import Irori.Proofs.Tidy

/-!
# Every operation is made of turns

What the engine does when it is called, as a sequence of turns, for an engine whose runs' parts fit
together. So every state the engine can be in is reached by turns, and whatever every move of a run
keeps holds of every run there is.
-/

namespace Irori.Proofs

open Irori

/-- The parts of a run fit together, and it is kept under its own id. -/
def Sane (id : ContextId) (_ : List NodeId) (run : Run) (_ : List Nat) : Prop :=
  Fit none run ∧ run.record.runId = id

lemma fit_newRun (hand : Option Nat) (id : ContextId) (flow : RuleId) (loaded : Loaded)
    (firing : Firing) (now : Timestamp) :
    Fit hand (Engine.newRun id flow loaded firing now) := by
  have hjoins : ∀ (node : NodeId) (w : Wire),
      ((Engine.newRun id flow loaded firing now).joinAt node).arrived[w]? = none := by
    intro node w
    simp [Run.joinAt, Engine.newRun, JoinState.new]
  constructor <;> simp_all [Engine.newRun]

theorem lifts_sane (env : Env) (A : Arm → Prop) : Lifts env A Sane where
  more _ h := h
  start _ id firing now _ _ :=
    ⟨(fit_newRun none id _ _ firing now).leave _ _,
      congrArg RunRecord.runId (launched_header id _ _ firing now)⟩
  move h hm := ⟨fit_goes h.1 hm, (congrArg RunRecord.runId (goes_header hm).1).trans h.2⟩
  step h hm := ⟨(fit_goes (h.1.take _) hm.1).release hm.2,
    (congrArg RunRecord.runId (goes_header hm.1).1).trans h.2⟩

/-- The flows are known, the runs are of armed ones, and their parts fit together. -/
structure Sound (env : Env) (A : Arm → Prop) (e : Engine) : Prop where
  sane : Holds env A Sane e
  tidy : Tidy e

section

variable {env : Env} {A : Arm → Prop} {H : Prop} {now : Timestamp} {e e' : Engine}

lemma Sound.fit (h : Sound env A e) {id : ContextId} {run : Run} (hrun : e.runs[id]? = some run) :
    Fit none run := (h.sane.runs hrun).1

lemma sound_turns (ht : Turns env A H e e') (h : Sound env A e) : Sound env A e' := by
  unfold Turns at ht
  induction ht with
  | refl => exact h
  | tail _ hlast ih =>
    obtain ⟨now, hlast⟩ := hlast
    exact ⟨holds_turn (lifts_sane env A) ih.sane hlast, tidy_turn ih.tidy hlast⟩

lemma sound_turnsAt (ht : TurnsAt env A H now e e') (h : Sound env A e) : Sound env A e' :=
  sound_turns ht.turns h

lemma turnsAt_quiet (hq : Quiet e e') : TurnsAt env A H now e e' :=
  Relation.ReflTransGen.single (.quiet hq)

lemma turnsAt_refl : TurnsAt env A H now e e := Relation.ReflTransGen.refl

lemma Quiet.plain (hruns : e'.runs = e.runs) (hready : e'.ready = e.ready)
    (hflows : e'.flows = e.flows) (heffects : e'.effects = e.effects)
    (hminted : e'.minted = e.minted) (hledger : e'.ledger = e.ledger) : Quiet e e' where
  runs := hruns
  ready := hready
  flows _ := by rw [hflows]
  idle h h' _ hnone := by
    rw [hflows, h, Option.some.injEq] at h'
    exact h' ▸ hnone
  effects := ⟨[], by simp, by rw [heffects]; simp⟩
  minted := hminted
  ledger := ⟨e.ledger.bare, [], [], by rw [hledger]; simp⟩

lemma quiet_ledger
    (heffects : ∃ misses : List NearMiss, (∀ miss ∈ misses, miss.kind ≠ .dropped) ∧
      e'.effects = e.effects ++ misses.map .nearMiss)
    (hruns : e'.runs = e.runs) (hready : e'.ready = e.ready) (hflows : e'.flows = e.flows)
    (hminted : e'.minted = e.minted) (_ : e'.timers = e.timers)
    (hledger : ∃ (bare stillborn : List ContextId) (overtaken : List Timestamp),
      e'.ledger = { e.ledger with
        bare, stillborn := e.ledger.stillborn ++ stillborn,
        overtaken := e.ledger.overtaken ++ overtaken }) : Quiet e e' where
  runs := hruns
  ready := hready
  flows _ := by rw [hflows]
  idle h h' _ hnone := by
    rw [hflows, h, Option.some.injEq] at h'
    exact h' ▸ hnone
  effects := heffects
  minted := hminted
  ledger := hledger

lemma quiet_noteOvertaken (e : Engine) (now : Timestamp) : Quiet e (e.noteOvertaken now) := by
  unfold Engine.noteOvertaken
  split
  · exact quiet_ledger ⟨[], by simp⟩ rfl rfl rfl rfl rfl ⟨e.ledger.bare, [], [now], by simp⟩
  · exact Quiet.refl e

lemma quiet_schedule (e : Engine) (at_ : Timestamp) (timer : Timer) :
    Quiet e (e.schedule at_ timer) :=
  Quiet.plain rfl rfl rfl rfl rfl rfl

lemma quiet_setLoaded {flow : RuleId} {loaded loaded' : Loaded}
    (hflow : e.flows[flow]? = some loaded) (hcore : core loaded' = core loaded)
    (hidle : loaded'.armed ≠ .armed → loaded.holds = ∅ → loaded'.holds = ∅) :
    Quiet e (e.setLoaded flow loaded') where
  runs := rfl
  ready := rfl
  flows id := by
    rw [Engine.setLoaded, Map.get_insert]
    split
    · next hid => rw [← hid, hflow, Option.map_some, Option.map_some, hcore]
    · rfl
  idle {id old new} hold hnew hne hnone := by
    rw [Engine.setLoaded, Map.get_insert] at hnew
    split at hnew
    · next hid =>
      rw [← hid, hflow, Option.some.injEq] at hold
      rw [Option.some.injEq] at hnew
      subst hold hnew
      exact hidle hne hnone
    · rw [hold, Option.some.injEq] at hnew
      exact hnew ▸ hnone
  effects := ⟨[], by simp [Engine.setLoaded]⟩
  minted := rfl
  ledger := ⟨e.ledger.bare, [], [], by simp [Engine.setLoaded]⟩

lemma quiet_cancelHold (e : Engine) (flow : RuleId) (node : NodeId) :
    Quiet e (e.cancelHold flow node).2 := by
  unfold Engine.cancelHold
  split
  · exact Quiet.refl e
  · next loaded hflow =>
    refine quiet_setLoaded hflow rfl fun _ hnone => ?_
    rw [hnone]
    exact Std.ExtTreeMap.erase_empty

lemma quiet_nearMiss (e : Engine) (flow : RuleId) (node : NodeId) {kind : NearMissKind}
    (hkind : kind ≠ .dropped) (message : String) (reads : List Read) (now : Timestamp) :
    Quiet e (e.nearMiss flow node kind message reads now) :=
  quiet_ledger ⟨[_], by simpa using hkind, rfl⟩ rfl rfl rfl rfl rfl
    ⟨e.ledger.bare, [], [], by simp [Engine.nearMiss, Engine.addEffect]⟩

lemma turnsAt_fire {flow : RuleId} (harmed : IsArmed e flow) (firing : Firing) :
    TurnsAt env A H now e (e.fireNow env flow firing now).2 :=
  Relation.ReflTransGen.single (.fire firing harmed)

lemma turnsAt_withRun {id : ContextId} {f : Run → Moved}
    (hf : ∀ run : Run, e.runs[id]? = some run → Goes now none run (f run)) :
    TurnsAt env A H now e (e.withRun id f) := by
  unfold Engine.withRun
  split
  · exact turnsAt_refl
  · next run hrun => exact Relation.ReflTransGen.single (.move hrun (hf run hrun))

lemma turnsAt_finish {id : ContextId} {outcome : Option RunOutcome}
    (ends : ∀ run : Run, e.runs[id]? = some run → outcome = none → run.tokens.isEmpty)
    (lets : Engine.letsNextStart outcome = true) :
    TurnsAt env A H now e (e.finish env id outcome now) := by
  cases going : e.runs[id]? with
  | none =>
    rw [finish_of_none env going]
    exact turnsAt_refl
  | some run => exact Relation.ReflTransGen.single (.finish going (ends run going) lets)

lemma turnsAt_halt (stops : H) (id : ContextId) :
    TurnsAt env A H now e (e.finish env id (some (.aborted .shutdown)) now) := by
  cases going : e.runs[id]? with
  | none =>
    rw [finish_of_none env going]
    exact turnsAt_refl
  | some run => exact Relation.ReflTransGen.single (.halt stops going)

lemma turnsAt_foldl {α : Type} {f : Engine → α → Engine} {l : List α}
    (hf : ∀ x ∈ l, ∀ e : Engine, Sound env A e → TurnsAt env A H now e (f e x)) :
    ∀ e : Engine, Sound env A e → TurnsAt env A H now e (l.foldl f e) := by
  induction l with
  | nil => exact fun _ _ => turnsAt_refl
  | cons x l ih =>
    intro e h
    have hx := hf x List.mem_cons_self e h
    exact hx.trans (ih (fun y hy => hf y (List.mem_cons_of_mem _ hy)) _ (sound_turnsAt hx h))

lemma turnsAt_step (h : Sound env A e) {id : ContextId} {k : Nat} {rest : List (ContextId × Nat)}
    (first : e.ready = (id, k) :: rest) :
    TurnsAt env A H now e ({ e with ready := rest }.step env id k now) := by
  unfold Engine.step Engine.withRun
  dsimp only
  split
  · next ended => exact Relation.ReflTransGen.single (.stale first ended)
  · next run going =>
    exact Relation.ReflTransGen.single (.step first going (step_settles (h.fit going)))

lemma turnsAt_settleIdle (h : Sound env A e) (id : ContextId) :
    TurnsAt env A H now e (e.settleIdle env id now) := by
  unfold Engine.settleIdle
  split
  · exact turnsAt_refl
  next run going =>
  split
  · have hgive : TurnsAt env A H now e (e.withRun id (Run.giveUpJoins · now)) :=
      turnsAt_withRun fun r hr => giveUpJoins_goes (h.fit hr)
    dsimp only
    split
    · next hempty =>
      refine hgive.trans (turnsAt_finish (fun r hr _ => ?_) rfl)
      simpa [hr] using hempty.1
    · exact hgive
  · next hempty =>
    refine turnsAt_finish (fun r hr _ => ?_) rfl
    rw [going, Option.some.injEq] at hr
    simpa [hr] using hempty

lemma turnsAt_sweep (h : Sound env A e) : TurnsAt env A H now e (e.sweep env now) :=
  turnsAt_foldl (fun id _ _ he => turnsAt_settleIdle he id) e h

lemma quiet_unbare (e : Engine) : Quiet e { e with ledger := { e.ledger with bare := [] } } :=
  quiet_ledger ⟨[], by simp⟩ rfl rfl rfl rfl rfl ⟨[], [], [], by simp⟩

lemma quiet_stillborn (e : Engine) (runs : List ContextId) : Quiet e
    { e with ledger := { e.ledger with stillborn := e.ledger.stillborn ++ runs } } :=
  quiet_ledger ⟨[], by simp⟩ rfl rfl rfl rfl rfl ⟨e.ledger.bare, runs, [], by simp⟩

theorem drive_turns (fuel : Nat) : ∀ e : Engine, Sound env A e → ∀ e' : Engine,
    e.drive env now fuel = some e' → TurnsAt env A H now e e' := by
  induction fuel with
  | zero => exact fun _ _ _ hdrive => by simp [Engine.drive] at hdrive
  | succ fuel ih =>
    intro e h e' hdrive
    unfold Engine.drive at hdrive
    split at hdrive
    · next id k rest first =>
      have hstep : TurnsAt env A H now e ({ e with ready := rest }.step env id k now) :=
        turnsAt_step h first
      exact hstep.trans (ih _ (sound_turnsAt hstep h) _ hdrive)
    · have hunbare : TurnsAt env A H now e { e with ledger := { e.ledger with bare := [] } } :=
        turnsAt_quiet (quiet_unbare e)
      have hswept : TurnsAt env A H now { e with ledger := { e.ledger with bare := [] } }
          ({ e with ledger := { e.ledger with bare := [] } }.sweep env now) :=
        turnsAt_sweep (sound_turnsAt hunbare h)
      have hsweep := hunbare.trans hswept
      dsimp only at hdrive
      split at hdrive
      · rw [Option.some.injEq] at hdrive
        exact hdrive ▸ hsweep.trans (turnsAt_quiet (quiet_stillborn _ _))
      · exact hsweep.trans (ih _ (sound_turnsAt hsweep h) _ hdrive)

lemma turnsAt_driven {before : Engine} {fuel : Nat} (h : Sound env A e)
    (hdone : TurnsAt env A H now e before) (hdrive : before.drive env now fuel = some e') :
    TurnsAt env A H now e e' :=
  hdone.trans (drive_turns fuel _ (sound_turnsAt hdone h) _ hdrive)

lemma armed_of_armedTrigger {flow : RuleId} {node : NodeId} {trigger : Trigger}
    (h : e.armedTrigger flow node = some trigger) : IsArmed e flow := by
  intro loaded hloaded
  unfold Engine.armedTrigger at h
  rw [hloaded] at h
  dsimp only at h
  split at h
  · next harmed => exact harmed
  · simp at h

lemma turnsAt_clockDue (flow : RuleId) (node : NodeId) :
    TurnsAt env A H now e (e.clockDue env flow node now) := by
  unfold Engine.clockDue
  split
  · next place trigger _ htrigger =>
    have harmed := armed_of_armedTrigger htrigger
    have hwound : ∀ e' : Engine, Quiet e e' → ∀ firing : Firing,
        TurnsAt env A H now e (e'.fireNow env flow firing now).2 := fun e' hq firing =>
      (turnsAt_quiet hq).trans (turnsAt_fire (hq.sameFrames.isArmed harmed) firing)
    dsimp only
    refine hwound _ ?_ _
    split
    · exact quiet_schedule _ _ _
    · exact Quiet.refl e
  · exact turnsAt_refl

lemma turnsAt_holdDue (h : Sound env A e) (flow : RuleId) (node : NodeId) :
    TurnsAt env A H now e (e.holdDue env flow node now) := by
  unfold Engine.holdDue
  split
  · exact turnsAt_refl
  next loaded hflow =>
  split
  · next hdue =>
    -- Only a flow that is armed has holds.
    have harmed : IsArmed e flow := by
      intro loaded' hloaded'
      rw [hflow, Option.some.injEq] at hloaded'
      by_contra hne
      rw [← hloaded'] at hne
      rw [(h.tidy.idle hflow hne).1] at hdue
      simp at hdue
    have hq := quiet_cancelHold e flow node
    have hcancel : TurnsAt env A H now e (e.cancelHold flow node).2 := turnsAt_quiet hq
    dsimp only
    split
    · exact hcancel.trans (turnsAt_fire (hq.sameFrames.isArmed harmed) _)
    · exact hcancel
  · exact turnsAt_refl

theorem timer_turns (h : Sound env A e) (timer : Timer) :
    TurnsAt env A H now e (e.timer env timer now) := by
  cases timer with
  | hold flow node => exact turnsAt_holdDue h flow node
  | clock flow node => exact turnsAt_clockDue flow node
  | token id k => exact turnsAt_withRun fun run hrun => tokenDue_goes (h.fit hrun)
  | join id node => exact turnsAt_withRun fun run hrun => joinDue_goes (h.fit hrun)

lemma turnsAt_due (h : Sound env A e) (rest : List (Timestamp × Nat × Timer)) (timer : Timer) :
    TurnsAt env A H now e (({ e with timers := rest }.noteOvertaken now).timer env timer now) := by
  have hpop : TurnsAt env A H now e ({ e with timers := rest }.noteOvertaken now) :=
    turnsAt_quiet ((Quiet.plain rfl rfl rfl rfl rfl rfl : Quiet e { e with timers := rest }).trans
      (quiet_noteOvertaken _ _))
  exact hpop.trans (timer_turns (sound_turnsAt hpop h) timer)

theorem advance_turns (fuel : Nat) : ∀ e : Engine, Sound env A e → ∀ e' : Engine,
    e.advance env now fuel = some e' → Turns env A H e e' := by
  induction fuel with
  | zero => exact fun _ _ _ hadvance => by simp [Engine.advance] at hadvance
  | succ fuel ih =>
    intro e h e' hadvance
    unfold Engine.advance at hadvance
    split at hadvance
    · rw [Option.some.injEq] at hadvance
      exact hadvance ▸ Relation.ReflTransGen.refl
    next at_ _ timer rest _ =>
    split at hadvance
    · rw [Option.some.injEq] at hadvance
      exact hadvance ▸ Relation.ReflTransGen.refl
    dsimp only at hadvance
    split at hadvance
    · simp at hadvance
    · next driven hdrive =>
      have hfirst : TurnsAt env A H (Engine.moment timer at_ now) e driven :=
        turnsAt_driven h (turnsAt_due h rest timer) hdrive
      exact hfirst.turns.trans (ih _ (sound_turnsAt hfirst h) _ hadvance)

lemma turnsAt_noted (e : Engine) (now : Timestamp) : TurnsAt env A H now e (e.noteOvertaken now) :=
  turnsAt_quiet (quiet_noteOvertaken e now)

lemma turnsAt_checkWaits (h : Sound env A e) (waits : List (ContextId × Nat)) :
    TurnsAt env A H now e (e.checkWaits env waits now) :=
  turnsAt_foldl (fun _ _ _ he => turnsAt_withRun fun _ hrun => (checkWait_goes (he.fit hrun)).1) e h

lemma mem_triggersWhere {wanted : Trigger → Bool} {x : RuleId × NodeId × Trigger}
    (h : x ∈ e.triggersWhere wanted) : ∃ loaded : Loaded, e.flows[x.1]? = some loaded ∧
      loaded.armed = .armed ∧ loaded.flow.nodes[x.2.1]? = some (.trigger x.2.2) ∧
        wanted x.2.2 = true := by
  unfold Engine.triggersWhere at h
  obtain ⟨⟨id, loaded⟩, hloaded, h⟩ := List.mem_flatMap.mp h
  rw [Std.ExtTreeMap.mem_toList_iff_getElem?_eq_some] at hloaded
  dsimp only at h
  split at h
  · next harmed =>
    obtain ⟨⟨node, kind⟩, hnode, h⟩ := List.mem_filterMap.mp h
    rw [Std.ExtTreeMap.mem_toList_iff_getElem?_eq_some] at hnode
    dsimp only at h
    split at h
    · split at h
      · next hwanted =>
        rw [Option.some.injEq] at h
        subst h
        exact ⟨loaded, hloaded, harmed, hnode, hwanted⟩
      · simp at h
    · simp at h
  · simp at h

lemma armed_of_mem {wanted : Trigger → Bool} {x : RuleId × NodeId × Trigger}
    (h : x ∈ e.triggersWhere wanted) : IsArmed e x.1 := by
  obtain ⟨loaded, hloaded, harmed, -⟩ := mem_triggersWhere h
  intro loaded' hloaded'
  rw [hloaded, Option.some.injEq] at hloaded'
  exact hloaded' ▸ harmed

lemma turnsAt_triggers {f : Engine → RuleId × NodeId × Trigger → Engine}
    (hf : ∀ (x : RuleId × NodeId × Trigger) (e : Engine), IsArmed e x.1 →
      TurnsAt env A H now e (f e x) ∧ SameFrames e (f e x))
    (l : List (RuleId × NodeId × Trigger)) : ∀ e : Engine, (∀ x ∈ l, IsArmed e x.1) →
      TurnsAt env A H now e (l.foldl f e) := by
  induction l with
  | nil => exact fun _ _ => turnsAt_refl
  | cons x l ih =>
    intro e harmed
    obtain ⟨hturns, hframes⟩ := hf x e (harmed x List.mem_cons_self)
    exact hturns.trans (ih _ fun y hy => hframes.isArmed (harmed y (List.mem_cons_of_mem _ hy)))

lemma framed_quiet (hq : Quiet e e') : TurnsAt env A H now e e' ∧ SameFrames e e' :=
  ⟨turnsAt_quiet hq, hq.sameFrames⟩

lemma framed_fire {flow : RuleId} (harmed : IsArmed e flow) (firing : Firing) :
    TurnsAt env A H now e (e.fireNow env flow firing now).2 ∧
      SameFrames e (e.fireNow env flow firing now).2 :=
  ⟨turnsAt_fire harmed firing, (endures_sameFrames env).fireNow e flow firing now⟩

lemma turnsAt_triggerMatched {flow : RuleId} (harmed : IsArmed e flow) (node : NodeId)
    (hold : Option CompactDuration) (new : EntityState) (note : String) (read : Read) :
    TurnsAt env A H now e (e.triggerMatched env flow node hold new note read now) ∧
      SameFrames e (e.triggerMatched env flow node hold new note read now) := by
  unfold Engine.triggerMatched
  split
  · have hscheduled : ∀ e' : Engine, Quiet e e' → ∀ (at_ : Timestamp) (timer : Timer),
        TurnsAt env A H now e (e'.schedule at_ timer) ∧ SameFrames e (e'.schedule at_ timer) :=
      fun e' hq at_ timer => framed_quiet (hq.trans (quiet_schedule e' at_ timer))
    dsimp only
    refine hscheduled _ ?_ _ _
    split
    · exact Quiet.refl e
    · next loaded hflow =>
      exact quiet_setLoaded hflow rfl fun hne _ => absurd (harmed loaded hflow) hne
  · exact framed_fire harmed _

lemma turnsAt_stateTrigger {flow : RuleId} (harmed : IsArmed e flow) (node : NodeId)
    (trigger : Trigger) (old : Option EntityState) (new : EntityState) :
    TurnsAt env A H now e (e.stateTrigger env flow node trigger old new now) ∧
      SameFrames e (e.stateTrigger env flow node trigger old new now) := by
  have hcancel := quiet_cancelHold e flow node
  have hmiss : ∀ (e : Engine) {kind : NearMissKind}, kind ≠ .dropped → ∀ (message : String)
      (reads : List Read), Quiet e (e.nearMiss flow node kind message reads now) :=
    fun e _ hkind message reads => quiet_nearMiss e flow node hkind message reads now
  have hsame : TurnsAt env A H now e e ∧ SameFrames e e := framed_quiet (Quiet.refl e)
  unfold Engine.stateTrigger
  split
  · dsimp only
    split
    · split
      · exact framed_quiet (hcancel.trans (hmiss _ (by simp) _ _))
      · exact framed_quiet hcancel
    split
    · exact framed_quiet hcancel
    split
    · exact hsame
    split
    · split
      · exact framed_quiet (hmiss _ (by simp) _ _)
      · exact hsame
    split
    · exact turnsAt_triggerMatched harmed _ _ _ _ _
    · exact hsame
    · split
      · exact framed_quiet (hcancel.trans (hmiss _ (by simp) _ _))
      · exact framed_quiet hcancel
  · exact hsame

theorem stateChanged_turns {fuel : Nat} (h : Sound env A e) {old : Option EntityState}
    {new : EntityState} (hop : e.stateChanged env old new now fuel = some e') :
    TurnsAt env A H now e e' := by
  unfold Engine.stateChanged at hop
  dsimp only at hop
  have hstate : TurnsAt env A H now e
      { e.noteOvertaken now with states := e.states.insert new.entityId new } :=
    turnsAt_quiet ((quiet_noteOvertaken e now).trans (Quiet.plain rfl rfl rfl rfl rfl rfl))
  have htriggers : ∀ told : Engine, TurnsAt env A H now e told → ∀ wanted : Trigger → Bool,
      TurnsAt env A H now e ((told.triggersWhere wanted).foldl
        (fun e x => e.stateTrigger env x.1 x.2.1 x.2.2 old new now) told) :=
    fun told htold wanted => htold.trans (turnsAt_triggers
      (fun x _ harmed => turnsAt_stateTrigger harmed x.2.1 x.2.2 old new) _ told
      fun _ hx => armed_of_mem hx)
  have hwaits : ∀ told : Engine, TurnsAt env A H now e told → ∀ waits : List (ContextId × Nat),
      TurnsAt env A H now e (told.checkWaits env waits now) :=
    fun told htold waits => htold.trans (turnsAt_checkWaits (sound_turnsAt htold h) waits)
  exact turnsAt_driven h (hwaits _ (htriggers _ hstate _) _) hop

theorem resync_turns {fuel : Nat} (h : Sound env A e) {states : List EntityState}
    (hop : e.resync env states now fuel = some e') : TurnsAt env A H now e e' := by
  unfold Engine.resync at hop
  refine turnsAt_driven h ?_ hop
  have hstates : TurnsAt env A H now e ((e.noteOvertaken now).loadStates states) :=
    turnsAt_quiet ((quiet_noteOvertaken e now).trans (Quiet.plain rfl rfl rfl rfl rfl rfl))
  exact hstates.trans (turnsAt_checkWaits (sound_turnsAt hstates h) _)

theorem start_turns {fuel : Nat} (h : Sound env A e) (hop : e.start env now fuel = some e') :
    TurnsAt env A H now e e' := by
  unfold Engine.start at hop
  refine turnsAt_driven h ?_ hop
  have hnoted : TurnsAt env A H now e (e.noteOvertaken now) := turnsAt_noted e now
  refine hnoted.trans (turnsAt_triggers (fun x _ harmed => framed_fire harmed _) _ _ fun x hx => ?_)
  exact (quiet_noteOvertaken e now).sameFrames.isArmed (armed_of_mem hx)

lemma armed_of_refusal {flow : RuleId} {trigger : NodeId} (h : e.refusal flow trigger = none) :
    IsArmed e flow := by
  intro loaded hloaded
  unfold Engine.refusal at h
  rw [hloaded] at h
  dsimp only at h
  split at h
  · split at h
    · next harmed => exact harmed
    · simp at h
    · simp at h
  · simp at h

theorem fire_turns {fuel : Nat} (h : Sound env A e) {flow : RuleId} {trigger : NodeId}
    {test : Option TestKind} {answer : Except String (Option ContextId)}
    (hop : e.fire env flow trigger test now fuel = some (answer, e')) : TurnsAt env A H now e e' := by
  unfold Engine.fire at hop
  split at hop
  · rw [Option.some.injEq, Prod.mk.injEq] at hop
    exact hop.2 ▸ turnsAt_refl
  · next hrefusal =>
    dsimp only at hop
    obtain ⟨driven, hdrive, heq⟩ := Option.map_eq_some_iff.mp hop
    rw [Prod.mk.injEq] at heq
    rw [← heq.2]
    have harmed := (quiet_noteOvertaken e now).sameFrames.isArmed (armed_of_refusal hrefusal)
    exact turnsAt_driven h ((turnsAt_noted e now).trans (turnsAt_fire harmed _)) hdrive

theorem fireBy_turns {fuel : Nat} (h : Sound env A e) {flow : RuleId} {trigger : NodeId}
    {test : Option TestKind} {by_ : Option UserId} {answer : Except String (Option ContextId)}
    (hop : e.fireBy env flow trigger test by_ now fuel = some (answer, e')) :
    TurnsAt env A H now e e' := by
  unfold Engine.fireBy at hop
  obtain ⟨⟨started, fired⟩, hfire, heq⟩ := Option.map_eq_some_iff.mp hop
  rw [Prod.mk.injEq] at heq
  have hset : TurnsAt env A H now e { e with byHand := by_ } :=
    turnsAt_quiet (Quiet.plain rfl rfl rfl rfl rfl rfl)
  have hunset : TurnsAt env A H now fired { fired with byHand := none } :=
    turnsAt_quiet (Quiet.plain rfl rfl rfl rfl rfl rfl)
  rw [← heq.2]
  exact (hset.trans (fire_turns (sound_turnsAt hset h) hfire)).trans hunset

theorem cancel_turns {fuel : Nat} (h : Sound env A e) {run : ContextId} {found : Bool}
    (hop : e.cancel env run now fuel = some (found, e')) : TurnsAt env A H now e e' := by
  unfold Engine.cancel at hop
  obtain ⟨driven, hdrive, heq⟩ := Option.map_eq_some_iff.mp hop
  rw [Prod.mk.injEq] at heq
  rw [← heq.2]
  exact turnsAt_driven h ((turnsAt_noted e now).trans (turnsAt_finish (by simp) rfl)) hdrive

theorem shutdown_turns (h : Sound env A e) (stops : H) :
    TurnsAt env A H now e (e.shutdown env now) := by
  have hnoted : TurnsAt env A H now e (e.noteOvertaken now) := turnsAt_noted e now
  exact hnoted.trans (turnsAt_foldl (fun id _ _ _ => turnsAt_halt stops id) _
    (sound_turnsAt hnoted h))

lemma mem_of_found {callId : Nat} {id : ContextId} {k : Nat}
    (h : (e.runs.toList.findSome? fun (runId, run) =>
      run.tokens.toList.findSome? fun (tokenId, token) =>
        match token.doing with
        | .call asked => if asked = callId then some (runId, tokenId) else none
        | _ => none) = some (id, k)) :
    ∃ (run : Run) (t : Token), e.runs[id]? = some run ∧ run.tokens[k]? = some t ∧
      t.doing = .call callId := by
  obtain ⟨⟨id', run⟩, hrun, h⟩ := List.exists_of_findSome?_eq_some h
  obtain ⟨⟨k', t⟩, ht, h⟩ := List.exists_of_findSome?_eq_some h
  dsimp only at h
  split at h
  · next asked hdoing =>
    split at h
    · next hasked =>
      rw [Option.some.injEq, Prod.mk.injEq] at h
      obtain ⟨rfl, rfl⟩ := h
      rw [Std.ExtTreeMap.mem_toList_iff_getElem?_eq_some] at hrun ht
      exact ⟨run, t, hrun, ht, hasked ▸ hdoing⟩
    · simp at h
  · simp at h

theorem callFinished_turns {fuel : Nat} (h : Sound env A e) {callId : Nat}
    {result : Except String Unit} (hop : e.callFinished env callId result now fuel = some e') :
    TurnsAt env A H now e e' := by
  unfold Engine.callFinished at hop
  dsimp only at hop
  split at hop
  · rw [Option.some.injEq] at hop
    exact hop ▸ turnsAt_refl
  · next id k hfound =>
    obtain ⟨run, t, hrun, ht, hdoing⟩ := mem_of_found hfound
    have hnoted : TurnsAt env A H now e (e.noteOvertaken now) := turnsAt_noted e now
    have hnrun : (e.noteOvertaken now).runs[id]? = some run := by
      rw [(quiet_noteOvertaken e now).runs]
      exact hrun
    refine turnsAt_driven h (hnoted.trans (turnsAt_withRun fun r hr => ?_)) hop
    rw [hnrun, Option.some.injEq] at hr
    subst hr
    exact answerCall_goes (h.fit hrun) ht hdoing result

/-- The flows an engine has been handed. -/
def ArmedBy (ops : List Op) (arm : Arm) : Prop :=
  ∃ (arms : List Arm) (now : Timestamp), Op.setFlows arms now ∈ ops ∧ arm ∈ arms

theorem setFlows_turns {fuel : Nat} (h : Sound env A e) {arms : List Arm}
    (known : ∀ arm ∈ arms, A arm) (hop : e.setFlows env arms now fuel = some e') :
    Turns env A H e e' := by
  unfold Engine.setFlows at hop
  obtain ⟨advanced, hadvance, rfl⟩ := Option.map_eq_some_iff.mp hop
  exact (advance_turns fuel e h _ hadvance).tail ⟨now, .replace known⟩

theorem setPlace_turns {fuel : Nat} (h : Sound env A e) {place : Option Place}
    (hop : e.setPlace env place now fuel = some e') : Turns env A H e e' := by
  unfold Engine.setPlace at hop
  split at hop
  · rw [Option.some.injEq] at hop
    exact hop ▸ Relation.ReflTransGen.refl
  · obtain ⟨advanced, hadvance, rfl⟩ := Option.map_eq_some_iff.mp hop
    obtain ⟨timers, next, hwound⟩ := windClocks_eq env { advanced with place } now
    refine (advance_turns fuel e h _ hadvance).tail ⟨now, .quiet ?_⟩
    rw [hwound]
    exact Quiet.plain rfl rfl rfl rfl rfl rfl

theorem perform_turns {op : Op} {fuel : Nat} (h : Sound env A e)
    (known : ∀ (arms : List Arm) (now : Timestamp), op = .setFlows arms now → ∀ arm ∈ arms, A arm)
    (stops : op.isShutdown = true → H) (hop : op.perform env e fuel = some e') : Turns env A H e e' := by
  cases op with
  | setFlows arms now => exact setFlows_turns h (known arms now rfl) hop
  | setPlace place now => exact setPlace_turns h hop
  | loadStates states =>
    rw [Op.perform, Option.some.injEq] at hop
    rw [← hop]
    exact Relation.ReflTransGen.single
      ⟨0, .quiet (Quiet.plain rfl rfl rfl rfl rfl rfl)⟩
  | start now => exact (start_turns h hop).turns
  | fire flow trigger test by_ now =>
    obtain ⟨⟨answer, fired⟩, hfire, rfl⟩ := Option.map_eq_some_iff.mp hop
    exact (fireBy_turns h hfire).turns
  | stateChanged old new now => exact (stateChanged_turns h hop).turns
  | resync states now => exact (resync_turns h hop).turns
  | callFinished callId result now => exact (callFinished_turns h hop).turns
  | cancel run now =>
    obtain ⟨⟨found, cancelled⟩, hcancel, rfl⟩ := Option.map_eq_some_iff.mp hop
    exact (cancel_turns h hcancel).turns
  | advance now => exact advance_turns fuel e h _ hop
  | takeEffects =>
    rw [Op.perform, Option.some.injEq] at hop
    exact hop ▸ Relation.ReflTransGen.single ⟨0, .take⟩
  | shutdown now =>
    rw [Op.perform, Option.some.injEq] at hop
    exact hop ▸ (shutdown_turns h (stops rfl)).turns

lemma holds_new (J : ContextId → List NodeId → Run → List Nat → Prop) (dry : Bool) :
    Holds env A J (Engine.new dry) := by
  constructor <;> simp [Engine.new, Ledger.empty]

lemma sound_new (dry : Bool) : Sound env A (Engine.new dry) where
  sane := holds_new _ dry
  tidy := by constructor <;> simp [Engine.new]

theorem reaches_turns {ops : List Op} (h : Reaches env ops e)
    (known : ∀ arm : Arm, ArmedBy ops arm → A arm)
    (stops : ∀ op ∈ ops, op.isShutdown = true → H) :
    ∃ dry : Bool, Turns env A H (Engine.new dry) e := by
  induction h with
  | new dry => exact ⟨dry, Relation.ReflTransGen.refl⟩
  | @perform ops e e' op fuel before returned ih =>
    obtain ⟨dry, hturns⟩ := ih
      (fun arm ⟨arms, now, hop, harm⟩ => known arm ⟨arms, now, List.mem_append_left _ hop, harm⟩)
      fun op hop => stops op (List.mem_append_left _ hop)
    have hsound : Sound env A e := sound_turns hturns (sound_new dry)
    refine ⟨dry, hturns.trans (perform_turns hsound ?_ (stops op (by simp)) returned)⟩
    rintro arms now rfl arm harm
    exact known arm ⟨arms, now, by simp, harm⟩

/-- The runs of every state the engine comes to fit together, and are of armed flows. -/
theorem reaches_sound {ops : List Op} (h : Reaches env ops e) : Sound env (ArmedBy ops) e := by
  obtain ⟨dry, hturns⟩ := @reaches_turns env (ArmedBy ops) True e ops h (fun _ harm => harm)
    fun _ _ _ => trivial
  exact sound_turns hturns (sound_new dry)

/-- A property every move keeps holds of every run there is, whatever the engine was called for. -/
theorem reaches_holds {ops : List Op} {J : ContextId → List NodeId → Run → List Nat → Prop}
    (hJ : Lifts env (ArmedBy ops) J) (h : Reaches env ops e) :
    Holds env (ArmedBy ops) J e := by
  obtain ⟨dry, hturns⟩ := @reaches_turns env (ArmedBy ops) True e ops h (fun _ harm => harm)
    fun _ _ _ => trivial
  exact holds_turns hJ hturns (holds_new J dry)

/-- What every operation keeps, called where `C` allows it, holds of every state reached so. -/
theorem reachesWith_keeps {C : Op → Engine → Prop} {P : Engine → Prop}
    (hnew : ∀ dry : Bool, P (Engine.new dry))
    (hstep : ∀ (op : Op) (fuel : Nat) (e e' : Engine), Sound env A e → P e →
      (∀ (arms : List Arm) (now : Timestamp), op = .setFlows arms now → ∀ arm ∈ arms, A arm) →
      C op e → op.perform env e fuel = some e' → P e')
    {ops : List Op} (h : ReachesWith env C ops e) (known : ∀ arm : Arm, ArmedBy ops arm → A arm) :
    P e := by
  induction h with
  | new dry => exact hnew dry
  | @perform ops e e' op fuel before allowed returned ih =>
    have hknown : ∀ arm : Arm, ArmedBy ops arm → A arm := fun arm ⟨arms, now, hop, harm⟩ =>
      known arm ⟨arms, now, List.mem_append_left _ hop, harm⟩
    obtain ⟨dry, hturns⟩ := @reaches_turns env A True e ops before.reaches hknown
      fun _ _ _ => trivial
    refine hstep op fuel e e' (sound_turns hturns (sound_new dry)) (ih hknown) ?_ allowed returned
    rintro arms now rfl arm harm
    exact known arm ⟨arms, now, by simp, harm⟩

lemma reachesWith_performAll {C : Op → Engine → Prop} {fuel : Nat} (ops : List Op) :
    (∀ op ∈ ops, ∀ e : Engine, C op e) → ∀ {before : List Op} {e : Engine},
    ReachesWith env C before e → ∀ {e' : Engine}, Op.performAll env fuel ops e = some e' →
    ReachesWith env C (before ++ ops) e' := by
  induction ops with
  | nil =>
    intro _ before e h e' hops
    rw [Op.performAll, List.foldlM_nil] at hops
    rw [List.append_nil]
    exact Option.some.inj hops ▸ h
  | cons op ops ih =>
    intro hallowed before e h e' hops
    rw [Op.performAll, List.foldlM_cons] at hops
    obtain ⟨next, hop, hrest⟩ := Option.bind_eq_some_iff.mp hops
    rw [← List.singleton_append, ← List.append_assoc]
    exact ih (fun op' hop' => hallowed op' (List.mem_cons_of_mem _ hop'))
      (h.perform (hallowed op List.mem_cons_self e) hop) hrest

lemma reaches_anyhow {ops : List Op} (h : Reaches env ops e) :
    ReachesWith env (fun _ _ => True) ops e := by
  induction h with
  | new dry => exact .new dry
  | perform _ returned ih => exact ih.perform trivial returned

lemma reaches_performAll {fuel : Nat} (ops : List Op) {before : List Op} {e : Engine}
    (h : Reaches env before e) {e' : Engine} (hops : Op.performAll env fuel ops e = some e') :
    Reaches env (before ++ ops) e' :=
  (reachesWith_performAll ops (by simp) (reaches_anyhow h) hops).reaches

lemma mem_records {record : RunRecord} :
    record ∈ e.records ↔ .finished record ∈ e.ledger.taken ++ e.effects := by
  unfold Engine.records
  rw [List.mem_filterMap]
  constructor
  · rintro ⟨effect, heffect, hrecord⟩
    split at hrecord
    · rw [Option.some.injEq] at hrecord
      exact hrecord ▸ heffect
    · simp at hrecord
  · exact fun hrecord => ⟨_, hrecord, rfl⟩

end

end Irori.Proofs
