import Irori.Proofs.Calm
import Irori.Proofs.Versions

/-!
# What a hold counts on

A state trigger's `for` counts while the entity is where the trigger wants it. It does so as long as
the engine is told of every change, and what it knows of the home isn't replaced under it.
-/

namespace Irori.Proofs

open Irori

/-- Whether a value is one a state trigger waits for: inside its range, if it watches for a level,
else one of `to`. -/
def aims (to_ : Option Values) (above below : Option ℚ) (value : Json) : Bool :=
  if above.isSome ∨ below.isSome then Engine.insideLevel above below value
  else to_.all (Engine.anyMatches · value)

/-- The entity a state trigger watches is available, its value is known, and that is one the trigger
wants. -/
def Wanted (trigger : Trigger) (states : Map EntityId EntityState) : Prop :=
  match trigger with
  | .state entity field _ to_ above below _ =>
    ∃ (state : EntityState) (value : State), states[entity]? = some state ∧
      state.availability = .available ∧ state.state = some value ∧
      (field.isSome = true → (readOf value field).isNull = false) ∧
      aims to_ above below (readOf value field) = true
  | _ => True

/-- Whether `new` says nothing that `old` didn't, to who watches a field of it. -/
def saysSame (entity : EntityId) (field : Option ObjectId) (old : Option EntityState)
    (new : EntityState) : Bool :=
  if entity.kind.countsEveryReport then old.all fun old => old.lastChanged = new.lastChanged
  else old.isSome && ((old.bind EntityState.state).map (readOf · field)).getD .null ==
    ((new.state).map (readOf · field)).getD .null

/-- A report of an entity that is available, with a value that isn't one the trigger wants, but that
says no other than `old`: the trigger takes it for one that changes nothing. -/
def Overlooked (trigger : Trigger) (old : Option EntityState) (new : EntityState) : Prop :=
  match trigger with
  | .state entity field _ to_ above below _ =>
    ∃ value : State, new.availability = .available ∧ new.state = some value ∧
      (field.isSome = true → (readOf value field).isNull = false) ∧
      saysSame entity field old new = true ∧ aims to_ above below (readOf value field) = false
  | _ => False

def Holding (e : Engine) (flow : RuleId) (node : NodeId) (trigger : Trigger) : Prop :=
  ∃ (loaded : Loaded) (until_ : Timestamp), e.flows[flow]? = some loaded ∧
    loaded.holds[node]? = some until_ ∧ loaded.flow.nodes[node]? = some (.trigger trigger)

/-- Every hold counts on a value its trigger wants. -/
def HoldsWanted (e : Engine) : Prop :=
  ∀ (flow : RuleId) (node : NodeId) (trigger : Trigger), Holding e flow node trigger →
    Wanted trigger e.states

/-- What is told about the home leaves no hold counting on a value its trigger doesn't want: states
that replace those the engine knows have every held entity where its trigger wants it, and a change
that says the same as before isn't to such a value. -/
def Heeded (op : Op) (e : Engine) : Prop :=
  match op with
  | .loadStates states | .resync states _ =>
    ∀ (flow : RuleId) (node : NodeId) (trigger : Trigger), Holding e flow node trigger →
      Wanted trigger (Std.ExtTreeMap.ofList (states.map fun s => (s.entityId, s)) compare)
  | .stateChanged old new _ =>
    ∀ (flow : RuleId) (node : NodeId) (trigger : Trigger), Holding e flow node trigger →
      Engine.watches new.entityId trigger = true → ¬ Overlooked trigger old new
  | _ => True

def anyRun : RunFact := fun _ _ => True

lemma carried_anyRun (env : Env) : Carried env anyRun := by
  constructor <;> simp [anyRun]

section

variable {env : Env} {A : Arm → Prop} {now : Timestamp} {e e' e'' : Engine} {flow : RuleId}
  {node : NodeId} {trigger : Trigger}

lemma Calm.holding {Q : RunFact} (h : Calm Q e e') (hheld : Holding e' flow node trigger) :
    Holding e flow node trigger := by
  obtain ⟨loaded', until_, hloaded', hnode, htrigger⟩ := hheld
  obtain ⟨loaded, hloaded, hflow, hholds⟩ := h.holds hloaded'
  exact ⟨loaded, until_, hloaded, hholds node until_ hnode, hflow ▸ htrigger⟩

lemma HoldsWanted.calm {Q : RunFact} (h : HoldsWanted e) (hcalm : Calm Q e e') : HoldsWanted e' := by
  intro flow node trigger hheld
  rw [hcalm.states]
  exact h flow node trigger (hcalm.holding hheld)

lemma not_holding_cancelHold (e : Engine) (flow : RuleId) (node : NodeId) (trigger : Trigger) :
    ¬ Holding (e.cancelHold flow node).2 flow node trigger := by
  rintro ⟨loaded, until_, hloaded, hnode, -⟩
  unfold Engine.cancelHold at hloaded
  split at hloaded
  · next hnone =>
    rw [hnone] at hloaded
    simp at hloaded
  · rw [Engine.setLoaded, Map.get_insert, if_pos rfl, Option.some.injEq] at hloaded
    subst hloaded
    rw [Map.get_erase, if_pos rfl] at hnode
    simp at hnode

/-- What became of the holds once a trigger has looked at a change: its own counts on what it wants,
and no other counts that didn't. -/
structure Looked (flow : RuleId) (node : NodeId) (e e' : Engine) : Prop where
  states : e'.states = e.states
  own : ∀ {trigger : Trigger}, Holding e' flow node trigger → Wanted trigger e.states
  others : ∀ {flow' : RuleId} {node' : NodeId} {trigger : Trigger},
    Holding e' flow' node' trigger → ¬ (flow' = flow ∧ node' = node) →
    Holding e flow' node' trigger

lemma looked_calm (hcalm : Calm anyRun e e')
    (hown : ∀ {trigger : Trigger}, Holding e flow node trigger → Wanted trigger e.states) :
    Looked flow node e e' where
  states := hcalm.states
  own hheld := hown (hcalm.holding hheld)
  others hheld _ := hcalm.holding hheld

lemma looked_cancelled (hcalm : Calm anyRun (e.cancelHold flow node).2 e') :
    Looked flow node e e' where
  states := hcalm.states.trans (calm_cancelHold (Q := anyRun) e flow node).states
  own hheld := absurd (hcalm.holding hheld) (not_holding_cancelHold e flow node _)
  others hheld _ := (calm_cancelHold (Q := anyRun) e flow node).holding (hcalm.holding hheld)

lemma looked_triggerMatched (hnode : ∀ loaded : Loaded, e.flows[flow]? = some loaded →
      loaded.flow.nodes[node]? = some (.trigger trigger)) (hwanted : Wanted trigger e.states)
    (hold : Option CompactDuration) (new : EntityState) (note : String) (read : Read) :
    Looked flow node e (e.triggerMatched env flow node hold new note read now) := by
  have hown : ∀ {trigger' : Trigger}, Holding e flow node trigger' → Wanted trigger' e.states := by
    rintro trigger' ⟨loaded, until_, hloaded, -, htrigger⟩
    rw [hnode loaded hloaded] at htrigger
    simp only [Option.some.injEq, Node.trigger.injEq] at htrigger
    exact htrigger ▸ hwanted
  unfold Engine.triggerMatched
  split
  · next hold =>
    dsimp only
    split
    · exact looked_calm (calm_of_eq rfl rfl rfl) hown
    · next loaded hloaded =>
      have hcases : ∀ {flow' : RuleId} {node' : NodeId} {trigger' : Trigger},
          Holding ((e.setLoaded flow { loaded with
            holds := loaded.holds.insert node (plus now hold.millis) }).schedule
              (plus now hold.millis) (.hold flow node)) flow' node' trigger' →
          Holding e flow' node' trigger' ∨ (flow' = flow ∧ node' = node ∧ trigger' = trigger) := by
        rintro flow' node' trigger' ⟨loaded', until_, hloaded', hnode', htrigger'⟩
        change (e.flows.insert flow _)[flow']? = some loaded' at hloaded'
        rw [Map.get_insert] at hloaded'
        split at hloaded'
        · next hflow =>
          rw [Option.some.injEq] at hloaded'
          subst hflow hloaded'
          rw [Map.get_insert] at hnode'
          split at hnode'
          · next hsame =>
            subst hsame
            have htrigger : loaded.flow.nodes[node]? = some (.trigger trigger') := htrigger'
            rw [hnode loaded hloaded] at htrigger
            simp only [Option.some.injEq, Node.trigger.injEq] at htrigger
            exact .inr ⟨rfl, rfl, htrigger.symm⟩
          · exact .inl ⟨loaded, until_, hloaded, hnode', htrigger'⟩
        · exact .inl ⟨loaded', until_, hloaded', hnode', htrigger'⟩
      refine ⟨rfl, fun hheld => ?_, fun hheld hne => ?_⟩
      · rcases hcases hheld with hheld | ⟨-, -, rfl⟩
        · exact hown hheld
        · exact hwanted
      · rcases hcases hheld with hheld | ⟨hflow, hnode', -⟩
        · exact hheld
        · exact absurd ⟨hflow, hnode'⟩ hne
  · exact looked_calm ((endures_calm (carried_anyRun env)).fireNow _ _ _ _) hown

lemma changeOf_aims {from_ to_ : Option Values} {above below : Option ℚ}
    {old : Option EntityState} {oldValue newValue : Json}
    (h : Engine.changeOf from_ to_ above below old oldValue newValue ≠ .left) :
    aims to_ above below newValue = true := by
  unfold Engine.changeOf at h
  unfold aims
  split
  · next hlevel =>
    rw [if_pos hlevel] at h
    dsimp only at h
    by_contra hout
    simp [hout] at h
  · next hlevel =>
    rw [if_neg hlevel] at h
    dsimp only at h
    by_contra hout
    simp [hout] at h

lemma stateTrigger_looked {old : Option EntityState} {new : EntityState}
    (hat : e.states[new.entityId]? = some new) (hwatches : Engine.watches new.entityId trigger = true)
    (hnode : ∀ loaded : Loaded, e.flows[flow]? = some loaded →
      loaded.flow.nodes[node]? = some (.trigger trigger))
    (hheeds : Holding e flow node trigger → ¬ Overlooked trigger old new) :
    Looked flow node e (e.stateTrigger env flow node trigger old new now) := by
  have hmiss : ∀ (e : Engine) (kind : NearMissKind) (message : String) (reads : List Read),
      Calm anyRun e (e.nearMiss flow node kind message reads now) :=
    fun _ _ _ _ => calm_of_eq rfl rfl rfl
  unfold Engine.stateTrigger
  split
  · next entity field from_ to_ above below hold =>
    have hentity : entity = new.entityId := by simpa [Engine.watches] using hwatches
    have hread : (Read.ofField entity field e.states).value =
        ((new.state).map (readOf · field)).getD .null := by
      rw [hentity, Read.ofField, hat]
      rfl
    dsimp only
    rw [hread]
    split
    · split
      · exact looked_cancelled (hmiss _ _ _ _)
      · exact looked_cancelled (Calm.refl _)
    next hknown =>
    rw [not_or] at hknown
    obtain ⟨value, hvalue⟩ : ∃ value : State, new.state = some value := by
      cases hstate : new.state with
      | none => exact absurd (by rw [hstate]; rfl) hknown.2
      | some value => exact ⟨value, rfl⟩
    have havailable : new.availability = .available := by
      cases hnew : new.availability with
      | available => rfl
      | unavailable => exact absurd hnew hknown.1
    rw [hvalue, Option.map_some, Option.getD_some]
    split
    · exact looked_cancelled (Calm.refl _)
    next hsaid =>
    have hfield : field.isSome = true → (readOf value field).isNull = false := by
      intro hsome
      by_contra hnull
      exact hsaid ⟨hsome, by simpa using hnull⟩
    have hwanted : aims to_ above below (readOf value field) = true →
        Wanted (.state entity field from_ to_ above below hold) e.states := fun haims =>
      ⟨new, value, hentity ▸ hat, havailable, hvalue, hfield, haims⟩
    have howned : (Holding e flow node (.state entity field from_ to_ above below hold) →
        Wanted (.state entity field from_ to_ above below hold) e.states) →
        ∀ {trigger : Trigger}, Holding e flow node trigger → Wanted trigger e.states := by
      rintro hheld trigger' ⟨loaded, until_, hloaded, hholds, htrigger⟩
      have hsame := htrigger
      rw [hnode loaded hloaded] at hsame
      simp only [Option.some.injEq, Node.trigger.injEq] at hsame
      exact hsame ▸ hheld ⟨loaded, until_, hloaded, hholds, hsame ▸ htrigger⟩
    -- A report that says nothing new leaves the hold as it is.
    have hsame : saysSame entity field old new = true →
        ∀ {trigger : Trigger}, Holding e flow node trigger → Wanted trigger e.states := by
      intro hsays
      refine howned fun hheld => hwanted ?_
      by_contra haims
      exact hheeds hheld ⟨value, havailable, hvalue, hfield, hsays, by simpa using haims⟩
    split
    · next hagain =>
      refine looked_calm (Calm.refl e) (hsame ?_)
      rw [saysSame, if_pos hagain.1]
      exact hagain.2
    split
    · next hagain =>
      have hsays : saysSame entity field old new = true := by
        rw [saysSame, if_neg (by simpa using hagain.1), hvalue]
        simpa using hagain.2
      split
      · exact looked_calm (hmiss _ _ _ _) (hsame hsays)
      · exact looked_calm (Calm.refl e) (hsame hsays)
    split
    · next hchange =>
      exact looked_triggerMatched hnode (hwanted (changeOf_aims (by rw [hchange]; simp))) _ _ _ _
    · next hchange =>
      exact looked_calm (Calm.refl e)
        (howned fun _ => hwanted (changeOf_aims (by rw [hchange]; simp)))
    · split
      · exact looked_cancelled (hmiss _ _ _ _)
      · exact looked_cancelled (Calm.refl _)
  · simp [Engine.watches] at hwatches

lemma Wanted.not_overlooked {old : Option EntityState} {new : EntityState}
    {states : Map EntityId EntityState} (hat : states[new.entityId]? = some new)
    (hwatches : Engine.watches new.entityId trigger = true) (h : Wanted trigger states) :
    ¬ Overlooked trigger old new := by
  cases trigger with
  | state entity field from_ to_ above below hold =>
    have hentity : entity = new.entityId := by simpa [Engine.watches] using hwatches
    obtain ⟨state, value, hstate, -, hvalue, -, haims⟩ := h
    rintro ⟨value', -, hvalue', -, -, hout⟩
    rw [hentity, hat, Option.some.injEq] at hstate
    rw [← hstate, hvalue', Option.some.injEq] at hvalue
    rw [← hvalue, hout] at haims
    simp at haims
  | _ => exact id

variable (env now) in
lemma stateTriggers_wanted (old : Option EntityState) {new : EntityState}
    (l : List (RuleId × NodeId × Trigger)) : ∀ e : Engine,
    e.states[new.entityId]? = some new →
    (∀ x ∈ l, IsArmed e x.1 ∧ Engine.watches new.entityId x.2.2 = true ∧
      ∀ loaded : Loaded, e.flows[x.1]? = some loaded →
        loaded.flow.nodes[x.2.1]? = some (.trigger x.2.2)) →
    (∀ {flow : RuleId} {node : NodeId} {trigger : Trigger}, Holding e flow node trigger →
      (Wanted trigger e.states ∨ (flow, node, trigger) ∈ l) ∧
        (Engine.watches new.entityId trigger = true → ¬ Overlooked trigger old new)) →
    HoldsWanted (l.foldl (fun e (flow, node, trigger) =>
      e.stateTrigger env flow node trigger old new now) e) := by
  induction l with
  | nil =>
    intro e _ _ hholds flow node trigger hheld
    simpa using (hholds hheld).1
  | cons x l ih =>
    obtain ⟨flow, node, trigger⟩ := x
    intro e hat hl hholds
    obtain ⟨harmed, hwatches, hnode⟩ := hl _ List.mem_cons_self
    have hlooked : Looked flow node e (e.stateTrigger env flow node trigger old new now) :=
      stateTrigger_looked hat hwatches hnode fun hheld => (hholds hheld).2 hwatches
    have hframes : SameFrames e (e.stateTrigger env flow node trigger old new now) :=
      (turnsAt_stateTrigger (A := fun _ => True) (H := True) harmed node trigger old new).2
    rw [List.foldl_cons]
    refine ih _ (hlooked.states ▸ hat) (fun y hy => ?_) fun {flow' node' trigger'} hheld => ?_
    · obtain ⟨harmed', hwatches', hnode'⟩ := hl y (List.mem_cons_of_mem _ hy)
      refine ⟨hframes.isArmed harmed', hwatches', fun loaded' hloaded' => ?_⟩
      obtain ⟨loaded, hloaded, hsame, -⟩ := hframes.back hloaded'
      exact hsame ▸ hnode' loaded hloaded
    · rw [hlooked.states]
      by_cases hown : flow' = flow ∧ node' = node
      · rw [hown.1, hown.2] at hheld
        have hwanted : Wanted trigger' e.states := hlooked.own hheld
        exact ⟨.inl hwanted, fun hwatched => hwanted.not_overlooked hat hwatched⟩
      · obtain ⟨hwanted, hheeds⟩ := hholds (hlooked.others hheld hown)
        refine ⟨hwanted.imp_right fun hmem => ?_, hheeds⟩
        refine (List.mem_cons.mp hmem).resolve_left fun heq => hown ?_
        rw [Prod.mk.injEq, Prod.mk.injEq] at heq
        exact ⟨heq.1, heq.2.1⟩

lemma mem_triggersWhere_of {wanted : Trigger → Bool} {loaded : Loaded}
    (hloaded : e.flows[flow]? = some loaded) (harmed : loaded.armed = .armed)
    (hnode : loaded.flow.nodes[node]? = some (.trigger trigger)) (hwanted : wanted trigger = true) :
    (flow, node, trigger) ∈ e.triggersWhere wanted := by
  unfold Engine.triggersWhere
  refine List.mem_flatMap.mpr
    ⟨(flow, loaded), Std.ExtTreeMap.mem_toList_iff_getElem?_eq_some.mpr hloaded, ?_⟩
  dsimp only
  rw [if_pos harmed]
  refine List.mem_filterMap.mpr
    ⟨(node, .trigger trigger), Std.ExtTreeMap.mem_toList_iff_getElem?_eq_some.mpr hnode, ?_⟩
  simp [hwanted]

lemma Wanted.insert {states : Map EntityId EntityState} {new : EntityState}
    (h : Wanted trigger states) (hother : ¬ Engine.watches new.entityId trigger = true) :
    Wanted trigger (states.insert new.entityId new) := by
  cases trigger with
  | state entity field from_ to_ above below hold =>
    obtain ⟨state, value, hstate, hrest⟩ := h
    refine ⟨state, value, ?_, hrest⟩
    rw [Map.get_insert, if_neg, hstate]
    simpa [Engine.watches, eq_comm] using hother
  | _ => trivial

theorem stateChanged_wanted {fuel : Nat} (hsound : Sound env A e) (h : HoldsWanted e)
    {old : Option EntityState} {new : EntityState} (heeded : Heeded (.stateChanged old new now) e)
    (hop : e.stateChanged env old new now fuel = some e') : HoldsWanted e' := by
  unfold Engine.stateChanged at hop
  dsimp only at hop
  generalize htold : ({ e.noteOvertaken now with
    states := e.states.insert new.entityId new } : Engine) = told at hop
  have hstates : told.states = e.states.insert new.entityId new := by
    rw [← htold]
  have hflows : told.flows = (e.noteOvertaken now).flows := by rw [← htold]
  have hholding : ∀ {flow : RuleId} {node : NodeId} {trigger : Trigger},
      Holding told flow node trigger → Holding e flow node trigger := by
    rintro flow node trigger ⟨loaded, until_, hloaded, hrest⟩
    exact (calm_noteOvertaken (Q := anyRun) e now).holding
      ⟨loaded, until_, hflows ▸ hloaded, hrest⟩
  have hquiet : Quiet e told := by
    rw [← htold]
    exact (quiet_noteOvertaken e now).trans (Quiet.plain rfl rfl rfl rfl rfl rfl)
  have htidy : Tidy told := hsound.tidy.quiet hquiet
  have hat : told.states[new.entityId]? = some new := by rw [hstates, Map.get_insert, if_pos rfl]
  have hwanted := stateTriggers_wanted env now old
    (told.triggersWhere (Engine.watches new.entityId)) told hat ?_ ?_
  · have hturns : TurnsAt env A True now e
        ((told.triggersWhere (Engine.watches new.entityId)).foldl (fun e (flow, node, trigger) =>
          e.stateTrigger env flow node trigger old new now) told) :=
      (turnsAt_quiet hquiet).trans (turnsAt_triggers
        (fun x _ harmed => turnsAt_stateTrigger harmed x.2.1 x.2.2 old new) _ told
        fun _ hx => armed_of_mem hx)
    have hwaited := calm_checkWaits now (carried_anyRun env)
      (sound_turnsAt hturns hsound)
    have hwaits : ∀ waits : List (ContextId × Nat), TurnsAt env A True now e
        (((told.triggersWhere (Engine.watches new.entityId)).foldl (fun e (flow, node, trigger) =>
          e.stateTrigger env flow node trigger old new now) told).checkWaits env waits now) :=
      fun waits => hturns.trans (turnsAt_checkWaits (sound_turnsAt hturns hsound) waits)
    exact (hwanted.calm (hwaited _)).calm
      (calm_drive (carried_anyRun env) fuel _ (sound_turnsAt (hwaits _) hsound) _ hop)
  · intro x hx
    obtain ⟨loaded, hloaded, -, hnode, hwatched⟩ := mem_triggersWhere hx
    refine ⟨armed_of_mem hx, hwatched, fun loaded' hloaded' => ?_⟩
    rw [hloaded, Option.some.injEq] at hloaded'
    exact hloaded' ▸ hnode
  · intro flow node trigger hheld
    refine ⟨?_, heeded _ _ _ (hholding hheld)⟩
    by_cases hwatched : Engine.watches new.entityId trigger = true
    · obtain ⟨loaded, until_, hloaded, hnode, htrigger⟩ := hheld
      -- Only a flow that is armed has holds.
      have harmed : loaded.armed = .armed := by
        by_contra hne
        rw [(htidy.idle hloaded hne).1] at hnode
        simp at hnode
      exact .inr (mem_triggersWhere_of hloaded harmed htrigger hwatched)
    · rw [hstates]
      exact .inl ((h _ _ _ (hholding hheld)).insert hwatched)

lemma loadStates_wanted {states : List EntityState} (heeded : Heeded (.loadStates states) e) :
    HoldsWanted (e.loadStates states) := by
  rintro flow node trigger ⟨loaded, until_, hloaded, hrest⟩
  exact heeded _ _ _ ⟨loaded, until_, hloaded, hrest⟩

theorem resync_wanted {fuel : Nat} (hsound : Sound env A e) {states : List EntityState}
    (heeded : Heeded (.resync states now) e) (hop : e.resync env states now fuel = some e') :
    HoldsWanted e' := by
  unfold Engine.resync at hop
  dsimp only at hop
  have hloaded : HoldsWanted ((e.noteOvertaken now).loadStates states) := by
    exact loadStates_wanted fun flow node trigger hheld =>
      heeded flow node trigger ((calm_noteOvertaken (Q := anyRun) e now).holding hheld)
  have hturns : TurnsAt env A True now e ((e.noteOvertaken now).loadStates states) :=
    turnsAt_quiet ((quiet_noteOvertaken e now).trans (Quiet.plain rfl rfl rfl rfl rfl rfl))
  have hsound' := sound_turnsAt hturns hsound
  have hwaited : Sound env A (((e.noteOvertaken now).loadStates states).checkWaits env
      (((e.noteOvertaken now).loadStates states).waiting fun _ => true) now) :=
    sound_turnsAt (hturns.trans (turnsAt_checkWaits hsound' _)) hsound
  exact (hloaded.calm (calm_checkWaits now (carried_anyRun env) hsound' _)).calm
    (calm_drive (carried_anyRun env) fuel _ hwaited _ hop)

/-- The holds of the flows gathered so far are those of flows of the old set with the same version,
and the flows not seen yet are as they were. -/
structure HoldsOf (e : Engine) (next : Map RuleId Loaded) (e' : Engine) : Prop where
  states : e'.states = e.states
  old : ∀ {id : RuleId} {loaded : Loaded}, e'.flows[id]? = some loaded → e.flows[id]? = some loaded
  kept : ∀ {id : RuleId} {loaded : Loaded} {node : NodeId} {until_ : Timestamp},
    next[id]? = some loaded → loaded.holds[node]? = some until_ → ∃ old : Loaded,
      e.flows[id]? = some old ∧ old.version = loaded.version ∧ old.holds[node]? = some until_

lemma HoldsOf.arm {next : Map RuleId Loaded} (h : HoldsOf e next e') (a : Arm) (now : Timestamp) :
    HoldsOf e (Engine.arm env now next e' a).1 (Engine.arm env now next e' a).2 := by
  cases hkept : keptOf env e' a with
  | some old =>
    obtain ⟨hold, hversion, -⟩ := keptOf_eq_some hkept
    rw [arm_kept hkept]
    refine ⟨h.states, fun {id loaded} hloaded => ?_, fun {id loaded node until_} hloaded hnode => ?_⟩
    · rw [Map.get_erase] at hloaded
      split at hloaded
      · simp at hloaded
      · exact h.old hloaded
    · rw [Map.get_insert] at hloaded
      split at hloaded
      · next hid =>
        rw [Option.some.injEq] at hloaded
        subst hid hloaded
        exact ⟨old, h.old hold, hversion, hnode⟩
      · exact h.kept hloaded hnode
  | none =>
    obtain ⟨runs, ready, flows, heq, -, hflows⟩ := arm_cut next hkept now
    rw [heq]
    refine ⟨h.states, fun {id loaded} hloaded => ?_, fun {id loaded node until_} hloaded hnode => ?_⟩
    · dsimp only at hloaded
      rw [hflows] at hloaded
      split at hloaded
      · simp at hloaded
      · exact h.old hloaded
    · rw [Map.get_insert] at hloaded
      split at hloaded
      · rw [Option.some.injEq] at hloaded
        subst hloaded
        simp at hnode
      · exact h.kept hloaded hnode

variable (env) in
lemma HoldsOf.arms (arms : List Arm) (now : Timestamp) :
    ∀ {next : Map RuleId Loaded} {e' : Engine}, HoldsOf e next e' →
    HoldsOf e (arms.foldl (fun (next, e) a => Engine.arm env now next e a) (next, e')).1
      (arms.foldl (fun (next, e) a => Engine.arm env now next e a) (next, e')).2 := by
  induction arms with
  | nil => exact fun h => h
  | cons a arms ih => exact fun h => ih (h.arm a now)

variable (env) in
lemma replaceFlows_holds (e : Engine) (arms : List Arm) (now : Timestamp) :
    (e.replaceFlows env arms now).states = e.states ∧
    ∀ {id : RuleId} {loaded : Loaded} {node : NodeId} {until_ : Timestamp},
      (e.replaceFlows env arms now).flows[id]? = some loaded →
      loaded.holds[node]? = some until_ → ∃ old : Loaded, e.flows[id]? = some old ∧
        old.version = loaded.version ∧ old.holds[node]? = some until_ := by
  have hstart : HoldsOf e ∅ e := ⟨rfl, fun h => h, by simp⟩
  have hgathered := hstart.arms env arms now
  unfold Engine.replaceFlows
  dsimp only
  generalize arms.foldl (fun (next, e) a => Engine.arm env now next e a) (∅, e) = gathered
    at hgathered ⊢
  have hcalm : Calm anyRun gathered.2
      (gathered.2.flows.keys.foldl (fun e id => e.abortFlow env id .removed now) gathered.2) :=
    calm_foldl (fun e id => calm_abortFlow (carried_anyRun env) e id .removed now) _ _
  obtain ⟨timers, nextTimer, hwound⟩ := windClocks_eq env
    { gathered.2.flows.keys.foldl (fun e flow => e.abortFlow env flow .removed now) gathered.2 with
      flows := gathered.1 } now
  rw [hwound]
  exact ⟨hcalm.states.trans hgathered.states, fun hloaded hnode => hgathered.kept hloaded hnode⟩

lemma replaceFlows_wanted (hnumbers : NumberTexts env.showNumber) (hhash : Collisionless env A)
    (hsound : Sound env A e)
    (h : HoldsWanted e) {arms : List Arm} (known : ∀ a ∈ arms, A a) (now : Timestamp) :
    HoldsWanted (e.replaceFlows env arms now) := by
  have hreplace : TurnsAt env A True now e (e.replaceFlows env arms now) :=
    Relation.ReflTransGen.single (.replace known)
  have hsound' := sound_turnsAt hreplace hsound
  obtain ⟨hstates, hholds⟩ := replaceFlows_holds env e arms now
  rintro flow node trigger ⟨loaded, until_, hloaded, hnode, htrigger⟩
  obtain ⟨old, hold, hversion, holdNode⟩ := hholds hloaded hnode
  obtain ⟨b, hb, hbflow, -, hbversion⟩ := hsound'.sane.loaded hloaded
  obtain ⟨a, ha, haflow, -, haversion⟩ := hsound.sane.loaded hold
  rw [hstates]
  cases trigger with
  | state entity field from_ to_ above below hold' =>
    have hjson := hhash b a hb ha (by rw [← haversion, ← hbversion, hversion])
    have hback := sameStateTrigger hnumbers hjson (hbflow ▸ htrigger)
    exact h flow node _ ⟨old, until_, hold, holdNode, haflow ▸ hback⟩
  | _ => trivial

theorem perform_wanted (hnumbers : NumberTexts env.showNumber) (hhash : Collisionless env A)
    {op : Op} {fuel : Nat} (hsound : Sound env A e) (h : HoldsWanted e) (known : ∀ (arms : List Arm) (now : Timestamp), op = .setFlows arms now →
      ∀ arm ∈ arms, A arm) (heeded : Heeded op e) (hop : op.perform env e fuel = some e') :
    HoldsWanted e' := by
  have hany := carried_anyRun env
  cases op with
  | setFlows arms now =>
    obtain ⟨advanced, hadvance, rfl⟩ := Option.map_eq_some_iff.mp hop
    have hturns : Turns env A True e advanced := advance_turns fuel e hsound _ hadvance
    exact replaceFlows_wanted hnumbers hhash (sound_turns hturns hsound)
      (h.calm (calm_advance hany fuel e hsound _ hadvance)) (known arms now rfl) now
  | setPlace place now =>
    have hset : e.setPlace env place now fuel = some e' := hop
    unfold Engine.setPlace at hset
    split at hset
    · rw [Option.some.injEq] at hset
      exact hset ▸ h
    · obtain ⟨advanced, hadvance, rfl⟩ := Option.map_eq_some_iff.mp hset
      have hplaced : Calm anyRun advanced { advanced with place } := calm_of_eq rfl rfl rfl
      exact (h.calm (calm_advance hany fuel e hsound _ hadvance)).calm
        (hplaced.trans (calm_windClocks _))
  | loadStates states =>
    rw [Op.perform, Option.some.injEq] at hop
    exact hop ▸ loadStates_wanted heeded
  | start now => exact h.calm (calm_start hany hsound hop)
  | fire flow trigger test by_ now =>
    obtain ⟨⟨answer, fired⟩, hfire, rfl⟩ := Option.map_eq_some_iff.mp hop
    exact h.calm (calm_fireBy hany hsound hfire)
  | stateChanged old new now => exact stateChanged_wanted hsound h heeded hop
  | resync states now => exact resync_wanted hsound heeded hop
  | callFinished callId result now => exact h.calm (calm_callFinished hany hsound hop)
  | cancel run now =>
    obtain ⟨⟨found, cancelled⟩, hcancel, rfl⟩ := Option.map_eq_some_iff.mp hop
    exact h.calm (calm_cancel hany hsound hcancel)
  | advance now => exact h.calm (calm_advance hany fuel e hsound _ hop)
  | takeEffects =>
    rw [Op.perform, Option.some.injEq] at hop
    have htaken : Calm anyRun e e.takeEffects.2 := calm_of_eq rfl rfl rfl
    exact hop ▸ h.calm htaken
  | shutdown now =>
    rw [Op.perform, Option.some.injEq] at hop
    exact hop ▸ h.calm (calm_shutdown hany e)

/-- A hold never counts on a value the home has left, where every call of the engine heeds those
that count. -/
theorem holds_wanted (hnumbers : NumberTexts env.showNumber) {ops : List Op}
    (hhash : Collisionless env (ArmedBy ops)) (h : ReachesWith env Heeded ops e) :
    HoldsWanted e := by
  refine reachesWith_keeps (A := ArmedBy ops) (P := HoldsWanted) (fun dry => ?_)
    (fun op fuel e e' hsound hwanted known heeded hop =>
      perform_wanted hnumbers hhash hsound hwanted known heeded hop) h fun _ harm => harm
  rintro flow node trigger ⟨loaded, until_, hloaded, -⟩
  simp [Engine.new] at hloaded

end

def lingering : Flow :=
  Sample.flow (.named .single)
    [(Sample.started, .trigger (.state Sample.motion none none (some (.one (.bool true))) none none
      (some ⟨"1m", Sample.minute_parses⟩)))] []

def lingers : List Op :=
  [.setFlows [⟨lingering, []⟩] 0,
    .stateChanged none (Sample.reported Sample.motion (.bool true) .available) 0]

def anyHold (e : Engine) : Bool := (Map.vals e.flows).any fun loaded => !loaded.holds.isEmpty

theorem holds_wanted_lingering : ∃ e : Engine, anyHold e = true ∧ HoldsWanted e := by
  have hruns : ((Op.performAll (plainEnv []) 9 lingers (Engine.new false)).any anyHold) = true := by
    decide
  obtain ⟨e, he, hcounts⟩ := (Option.any_eq_true _ _).mp hruns
  have hreach : ReachesWith (plainEnv []) Heeded ([] ++ lingers) e := by
    refine reachesWith_performAll lingers (fun op hop e => ?_) (.new false) he
    rcases List.mem_cons.mp hop with rfl | hop
    · trivial
    · rw [List.mem_singleton.mp hop]
      intro flow node trigger _ hwatches hout
      cases trigger with
      | state entity field from_ to_ above below hold =>
        obtain ⟨value, -, -, -, hsame, -⟩ := hout
        have hentity : entity = Sample.motion := of_decide_eq_true hwatches
        have hkind : Sample.motion.kind.countsEveryReport = false := by decide
        simp [saysSame, hentity, hkind] at hsame
      | _ => exact hout
  refine ⟨e, hcounts, holds_wanted numberTexts_numberText ?_ hreach⟩
  rintro a b ⟨arms, now, hset, ha⟩ ⟨arms', now', hset', hb⟩ -
  simp only [lingers, List.nil_append, List.mem_cons, Op.setFlows.injEq, reduceCtorEq,
    List.not_mem_nil, or_false] at hset hset'
  rw [hset.1, List.mem_singleton] at ha
  rw [hset'.1, List.mem_singleton] at hb
  rw [ha, hb]

/-- Whether a hold of the flow counts on someone moving about, where nobody does. -/
def strayHold (e : Engine) : Bool :=
  (e.flows[lingering.id]?).any fun loaded : Loaded => (loaded.holds[Sample.started]?).isSome &&
    match (loaded.flow.nodes[Sample.started]? : Option Node) with
    | some (.trigger (.state entity none _ (some (.one (.bool true))) none none _)) =>
      (e.states[entity]?).any fun state => state.state.any fun value => value.primary = .bool false
    | _ => false

lemma strayHold_unwanted {e : Engine} (h : strayHold e = true) : ¬ HoldsWanted e := by
  intro hwanted
  obtain ⟨loaded, hloaded, h⟩ := (Option.any_eq_true _ _).mp h
  rw [Bool.and_eq_true] at h
  obtain ⟨until_, hhold⟩ := Option.isSome_iff_exists.mp h.1
  have hstray := h.2
  split at hstray
  · next entity from_ hold hnode =>
    obtain ⟨state, hstate, hsaid⟩ := (Option.any_eq_true _ _).mp hstray
    obtain ⟨value, hvalue, hfalse⟩ := (Option.any_eq_true _ _).mp hsaid
    obtain ⟨state', value', hstate', -, hvalue', -, haims⟩ :=
      hwanted _ _ _ ⟨loaded, until_, hloaded, hhold, hnode⟩
    rw [hstate, Option.some.injEq] at hstate'
    rw [← hstate', hvalue, Option.some.injEq] at hvalue'
    subst hvalue'
    have hprimary : value.primary = .bool false := by simpa using hfalse
    simp [aims, readOf, hprimary, Typed.toJson, Engine.anyMatches, Values.iter, valueMatches] at haims
  · simp at hstray

/-- Whoever moved about is gone once the home is read again, and the hold counts on. -/
theorem holds_wanted_refuted :
    ¬ ∀ (ops : List Op) (e : Engine), Reaches (plainEnv []) ops e → HoldsWanted e := by
  intro hall
  have hruns : ((Op.performAll (plainEnv []) 9
      (lingers ++ [.resync [Sample.reported Sample.motion (.bool false) .available] 0])
      (Engine.new false)).any strayHold) = true := by decide
  obtain ⟨e, he, hstray⟩ := (Option.any_eq_true _ _).mp hruns
  exact strayHold_unwanted hstray (hall _ e (reaches_performAll _ (.new false) he))

end Irori.Proofs
