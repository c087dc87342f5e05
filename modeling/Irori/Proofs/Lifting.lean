import Irori.Proofs.Turns

/-!
# Properties of runs, lifted to the engine

What every move keeps of a run, every turn of the engine keeps of all its runs.
-/

namespace Irori.Proofs

open Irori

section

variable {now : Timestamp} {hand : Option Nat} {r : Run} {m m' : Moved}

lemma prim_header (hp : Prim now hand m m') :
    header m'.run.record = header m.run.record ∧ m'.run.flow = m.run.flow := by
  cases hp with
  | touch cosmetic => exact ⟨by simp, by simp⟩
  | mark error stopped endedAt => exact ⟨rfl, rfl⟩
  | ask timers effects calls isCall => exact ⟨rfl, rfl⟩
  | evaluate here => exact ⟨rfl, rfl⟩
  | var name value => exact ⟨rfl, rfl⟩
  | doing here opened busy fits parked => exact ⟨by simp, by simp⟩
  | openStep held here unopened known room =>
    rw [openStep_eq now here]
    exact ⟨rfl, rfl⟩
  | drop port here noJoin noSet => exact ⟨by simp, by simp⟩
  | join isJoin stays comes keeps closes => exact ⟨rfl, rfl⟩
  | pass port here opened noJoin set => exact ⟨by simp, by simp⟩
  | passJoin port here opened isJoin first passed arrived alone => exact ⟨by simp, by simp⟩

lemma goes_header (h : Goes now hand r m) :
    header m.run.record = header r.record ∧ m.run.flow = r.flow :=
  goes_keeps (P := fun m => header m.run.record = header r.record ∧ m.run.flow = r.flow)
    (fun _ _ hp hm => ⟨(prim_header hp).1.trans hm.1, (prim_header hp).2.trans hm.2⟩) h ⟨rfl, rfl⟩

def CallOf (id : ContextId) (effect : Effect) : Prop :=
  ∃ (callId : Nat) (cause : Option ContextId) (entity : EntityId) (service : RuleService)
    (data : Option CallData), effect = .call callId id cause entity service data

lemma goes_effects (h : Goes now hand r m) : ∀ effect ∈ m.effects, CallOf r.record.runId effect := by
  have hkeeps := goes_keeps (P := fun m => m.run.record.runId = r.record.runId ∧
    ∀ effect ∈ m.effects, CallOf r.record.runId effect) ?_ h ⟨rfl, by simp⟩
  · exact hkeeps.2
  · intro m m' hp hm
    have hheader := congrArg RunRecord.runId (prim_header hp).1
    refine ⟨hheader.trans hm.1, ?_⟩
    cases hp with
    | ask timers effects calls isCall =>
      intro effect heffect
      rcases List.mem_append.mp heffect with heffect | heffect
      · exact hm.2 effect heffect
      · rw [← hm.1]
        exact isCall effect heffect
    | _ => exact hm.2

end

section

variable {env : Env} {A : Arm → Prop} {J : ContextId → List NodeId → Run → List Nat → Prop}
  {e e' : Engine} {now : Timestamp}

lemma Known.congr {id : RuleId} {loaded loaded' : Loaded} (h : Known env A id loaded)
    (hflow' : loaded'.flow = loaded.flow) (hversion' : loaded'.version = loaded.version) :
    Known env A id loaded' := by
  obtain ⟨arm, harm, hflow, hid, hversion⟩ := h
  exact ⟨arm, harm, hflow'.trans hflow, hid, hversion'.trans hversion⟩

lemma Holds.quiet (h : Holds env A J e) (hq : Quiet e e') : Holds env A J e' := by
  obtain ⟨misses, -, hmisses⟩ := hq.effects
  obtain ⟨bare, stillborn, overtaken, hledger⟩ := hq.ledger
  constructor
  · intro flow loaded hloaded
    have hcore := hq.flows flow
    rw [hloaded, Option.map_some] at hcore
    obtain ⟨old, hold, hsame⟩ := Option.map_eq_some_iff.mp hcore.symm
    exact (h.loaded hold).congr (congrArg Loaded.flow hsame).symm (congrArg Loaded.version hsame).symm
  · intro id run hrun
    rw [hq.runs] at hrun
    have hpending : pending e' id = pending e id := by rw [pending, hq.ready, pending]
    rw [hpending, hledger]
    exact h.runs hrun
  · intro record hrecord
    rw [hmisses, hledger] at hrecord
    refine h.ended ?_
    simp only [List.mem_append] at hrecord ⊢
    rcases hrecord with hrecord | hrecord | hrecord
    · exact .inl hrecord
    · exact .inr hrecord
    · obtain ⟨miss, -, hmiss⟩ := List.mem_map.mp hrecord
      simp at hmiss

lemma Holds.settle (hJ : Lifts env A J) {rest : List (ContextId × Nat)} {id : ContextId} {m : Moved}
    (hloaded : ∀ {flow : RuleId} {loaded : Loaded}, e.flows[flow]? = some loaded →
      Known env A flow loaded)
    (hothers : ∀ {other : ContextId} {run : Run}, other ≠ id → e.runs[other]? = some run →
      J other e.ledger.doubled run (pending { e with ready := rest } other))
    (hended : ∀ {record : RunRecord}, .finished record ∈ e.ledger.taken ++ e.effects →
      ∃ (id : ContextId) (doubled : List NodeId) (run : Run) (ready : List Nat)
        (outcome : Option RunOutcome) (now : Timestamp), J id doubled run ready ∧
        record = run.finalRecord outcome now ∧ (outcome = none → run.tokens.isEmpty))
    (hm : J id (e.ledger.doubled ++ m.doubled) m.run
      (pending { e with ready := rest } id ++ m.ready))
    (hcalls : ∀ effect ∈ m.effects, ∃ id : ContextId, CallOf id effect) :
    Holds env A J ({ e with ready := rest }.settle id m) := by
  constructor
  · intro flow loaded hflow
    rw [settle_flows] at hflow
    exact hloaded hflow
  · intro other run hrun
    rw [settle_runs, Map.get_insert] at hrun
    rw [settle_ledger, pending_settle]
    dsimp only
    split at hrun
    · next hsame =>
      subst hsame
      rw [if_pos rfl]
      rw [Option.some.injEq] at hrun
      exact hrun ▸ hm
    · next hne =>
      rw [if_neg (Ne.symm hne), List.append_nil]
      exact hJ.more _ (hothers (Ne.symm hne) hrun)
  · intro record hrecord
    rw [settle_ledger, settle_effects] at hrecord
    refine hended ?_
    simp only [List.mem_append] at hrecord ⊢
    rcases hrecord with hrecord | hrecord | hrecord
    · exact .inl hrecord
    · exact .inr hrecord
    · obtain ⟨_, _, _, _, _, _, heffect⟩ := hcalls _ hrecord
      simp at heffect

lemma Holds.startRun (hJ : Lifts env A J) (h : Holds env A J e) (flow : RuleId) (firing : Firing)
    (now : Timestamp) : Holds env A J (e.startRun env flow firing now).2 := by
  cases hflow : e.flows[flow]? with
  | none =>
    rw [startRun_of_none env hflow]
    exact ⟨h.loaded, h.runs, h.ended⟩
  | some loaded =>
    rw [startRun_eq env hflow]
    obtain ⟨-, heffects, -, -, hdoubled⟩ := leave_asks
      (Engine.newRun (env.runId e.minted now) flow loaded firing now) firing.trigger .out
    refine @Holds.settle env A J (begun env e flow loaded firing now) hJ e.ready _ _ h.loaded
      (fun hne hrun => ?_) h.ended ?_ (fun effect heffect => ?_)
    · rw [begun, Map.get_insert, if_neg (Ne.symm hne)] at hrun
      exact h.runs hrun
    · rw [launched, hdoubled, List.append_nil]
      exact hJ.start (h.loaded hflow) _ firing now _ _
    · rw [launched, heffects] at heffect
      simp at heffect

lemma Holds.setLoaded (h : Holds env A J e) {flow : RuleId} {loaded : Loaded}
    (hknown : Known env A flow loaded) : Holds env A J (e.setLoaded flow loaded) := by
  refine ⟨?_, h.runs, h.ended⟩
  intro other loaded' hloaded
  rw [Engine.setLoaded, Map.get_insert] at hloaded
  split at hloaded
  · next hsame =>
    rw [Option.some.injEq] at hloaded
    exact hsame ▸ hloaded ▸ hknown
  · exact h.loaded hloaded

lemma Holds.startNext (hJ : Lifts env A J) (h : Holds env A J e) (flow : RuleId)
    (now : Timestamp) : Holds env A J (e.startNext env flow now) := by
  unfold Engine.startNext
  split
  · exact h
  · next loaded hflow =>
    split
    · exact h
    · next next rest hqueue =>
      have hset : Holds env A J (e.setLoaded flow { loaded with queue := rest }) :=
        h.setLoaded ((h.loaded hflow).congr rfl rfl)
      exact hset.startRun hJ _ _ _

/-- A run ends: its record is given out. -/
def afterRun (e : Engine) (id : ContextId) (run : Run) (outcome : Option RunOutcome)
    (now : Timestamp) : Engine :=
  { e with
    runs := e.runs.erase id,
    ready := e.ready.filter fun entry => entry.1 ≠ id,
    effects := e.effects ++ [.finished (run.finalRecord outcome now)] }

lemma finish_eq (env : Env) {e : Engine} {id : ContextId} {run : Run}
    (going : e.runs[id]? = some run) (outcome : Option RunOutcome) (now : Timestamp) :
    e.finish env id outcome now =
      if Engine.letsNextStart outcome then
        (afterRun e id run outcome now).startNext env run.record.flowId now
      else afterRun e id run outcome now := by
  unfold Engine.finish
  simp only [going]
  rfl

lemma finish_of_none (env : Env) {e : Engine} {id : ContextId} (gone : e.runs[id]? = none)
    (outcome : Option RunOutcome) (now : Timestamp) : e.finish env id outcome now = e := by
  unfold Engine.finish
  simp only [gone]

/-- A relation of an engine to one it becomes that holds where a run begins or ends, a queue changes,
and a firing is counted or refused, and so whatever comes of a firing. -/
structure Endures (env : Env) (R : Engine → Engine → Prop) : Prop where
  refl : ∀ e : Engine, R e e
  trans : ∀ {e e' e'' : Engine}, R e e' → R e' e'' → R e e''
  startRun : ∀ (e : Engine) (flow : RuleId) (firing : Firing) (now : Timestamp),
    R e (e.startRun env flow firing now).2
  afterRun : ∀ (e : Engine) (id : ContextId) (run : Run) (outcome : Option RunOutcome)
    (now : Timestamp), R e (afterRun e id run outcome now)
  queue : ∀ {e : Engine} {flow : RuleId} {loaded : Loaded}, e.flows[flow]? = some loaded →
    ∀ queue : List Firing, R e (e.setLoaded flow { loaded with queue })
  drop : ∀ (e : Engine) (flow : RuleId) (firing : Firing) (why : String) (now : Timestamp),
    R e (e.drop flow firing why now)
  handed : ∀ (e : Engine) (n : Nat), R e { e with ledger := { e.ledger with handed := n } }

section

variable {R : Engine → Engine → Prop} (h : Endures env R) (e : Engine) (flow : RuleId)
include h

lemma Endures.startNext (now : Timestamp) : R e (e.startNext env flow now) := by
  unfold Engine.startNext
  split
  · exact h.refl e
  · next loaded hflow =>
    split
    · exact h.refl e
    · exact h.trans (h.queue hflow _) (h.startRun _ _ _ _)

lemma Endures.finish (id : ContextId) (outcome : Option RunOutcome) (now : Timestamp) :
    R e (e.finish env id outcome now) := by
  cases going : e.runs[id]? with
  | none =>
    rw [finish_of_none env going]
    exact h.refl e
  | some run =>
    rw [finish_eq env going]
    split
    · exact h.trans (h.afterRun e id run outcome now) (h.startNext _ _ _)
    · exact h.afterRun e id run outcome now

lemma Endures.finishAll (runs : List ContextId) (outcome : RunOutcome) (now : Timestamp) :
    R e (e.finishAll env runs outcome now) := by
  unfold Engine.finishAll
  induction runs generalizing e with
  | nil => exact h.refl e
  | cons id runs ih => exact h.trans (h.finish e id _ now) (ih _)

lemma Endures.byMode {loaded : Loaded} (hflow : e.flows[flow]? = some loaded) (firing : Firing)
    (now : Timestamp) : R e (e.byMode env flow loaded firing now).2 := by
  unfold Engine.byMode
  dsimp only
  split
  · split
    · exact h.drop _ _ _ _ _
    · exact h.startRun _ _ _ _
  · exact h.trans (h.finishAll e _ _ now) (h.startRun _ _ _ _)
  · split
    · split
      · exact h.queue hflow _
      · exact h.drop _ _ _ _ _
    · exact h.startRun _ _ _ _
  · split
    · exact h.drop _ _ _ _ _
    · exact h.startRun _ _ _ _

lemma Endures.fireNow (firing : Firing) (now : Timestamp) :
    R e (e.fireNow env flow firing now).2 := by
  unfold Engine.fireNow
  split
  · exact h.refl e
  · next loaded hflow =>
    let handed : Engine := { e with ledger := { e.ledger with handed := e.ledger.handed + 1 } }
    have hbyMode := h.byMode handed flow hflow { firing with serial := e.ledger.handed } now
    exact h.trans (h.handed e _) hbyMode

end

lemma pending_afterRun {e : Engine} {id other : ContextId} (run : Run) (outcome : Option RunOutcome)
    (now : Timestamp) (hne : other ≠ id) :
    pending (afterRun e id run outcome now) other = pending e other := by
  unfold pending afterRun
  dsimp only
  rw [List.filter_filter]
  congr 1
  refine List.filter_congr fun entry _ => ?_
  by_cases h : entry.1 = other
  · simp [h, hne]
  · simp [h]

lemma Holds.erase (h : Holds env A J e) {id : ContextId} {run : Run} {outcome : Option RunOutcome}
    (going : e.runs[id]? = some run) (ends : outcome = none → run.tokens.isEmpty)
    (now : Timestamp) : Holds env A J (afterRun e id run outcome now) := by
  refine ⟨h.loaded, ?_, ?_⟩
  · intro other run' hrun
    rw [afterRun, Map.get_erase] at hrun
    split at hrun
    · simp at hrun
    · next hne =>
      rw [pending_afterRun run outcome now (Ne.symm hne)]
      exact h.runs hrun
  · intro record hrecord
    rw [afterRun, ← List.append_assoc] at hrecord
    rcases List.mem_append.mp hrecord with hrecord | hrecord
    · exact h.ended hrecord
    · rw [List.mem_singleton, Effect.finished.injEq] at hrecord
      exact ⟨id, _, run, _, outcome, now, h.runs going, hrecord, ends⟩

lemma Holds.finish (hJ : Lifts env A J) (h : Holds env A J e) {id : ContextId}
    {outcome : Option RunOutcome}
    (ends : ∀ run : Run, e.runs[id]? = some run → outcome = none → run.tokens.isEmpty)
    (now : Timestamp) : Holds env A J (e.finish env id outcome now) := by
  cases going : e.runs[id]? with
  | none => rwa [finish_of_none env going]
  | some run =>
    rw [finish_eq env going]
    have herased := h.erase going (ends run going) now
    split
    · exact herased.startNext hJ _ _
    · exact herased

lemma Holds.finishAll (hJ : Lifts env A J) (runs : List ContextId) (outcome : RunOutcome)
    (now : Timestamp) : ∀ {e : Engine}, Holds env A J e →
    Holds env A J (e.finishAll env runs outcome now) := by
  unfold Engine.finishAll
  induction runs with
  | nil => exact fun h => h
  | cons id runs ih => exact fun h => ih (h.finish hJ (by simp) now)

lemma Holds.congr (h : Holds env A J e) (hflows : e'.flows = e.flows) (hruns : e'.runs = e.runs)
    (hready : e'.ready = e.ready) (hdoubled : e'.ledger.doubled = e.ledger.doubled)
    (hgiven : e'.ledger.taken ++ e'.effects = e.ledger.taken ++ e.effects) :
    Holds env A J e' := by
  refine ⟨fun hl => h.loaded (hflows ▸ hl), fun hr => ?_, fun hrecord => h.ended (hgiven ▸ hrecord)⟩
  have hpending : ∀ id : ContextId, pending e' id = pending e id := fun id => by
    rw [pending, hready, pending]
  rw [hpending, hdoubled]
  exact h.runs (hruns ▸ hr)

lemma Holds.abortFlow (hJ : Lifts env A J) (h : Holds env A J e) (flow : RuleId)
    (reason : AbortReason) (now : Timestamp) :
    Holds env A J (e.abortFlow env flow reason now) := by
  unfold Engine.abortFlow
  dsimp only
  have hfinished := h.finishAll hJ (e.runsOf flow) (.aborted reason) now
  split
  · exact hfinished
  · next loaded hflow =>
    have hknown : Known env A flow { loaded with queue := [], holds := ∅ } :=
      (hfinished.loaded hflow).congr rfl rfl
    exact (hfinished.setLoaded hknown).congr rfl rfl rfl rfl rfl

lemma Holds.drop (h : Holds env A J e) (flow : RuleId) (firing : Firing) (why : String)
    (now : Timestamp) : Holds env A J (e.drop flow firing why now) := by
  unfold Engine.drop Engine.nearMiss Engine.addEffect
  refine ⟨h.loaded, h.runs, fun hrecord => h.ended ?_⟩
  simp only [List.mem_append, List.mem_singleton] at hrecord ⊢
  rcases hrecord with hrecord | hrecord | hrecord
  · exact .inl hrecord
  · exact .inr hrecord
  · simp at hrecord

lemma Holds.byMode (hJ : Lifts env A J) (h : Holds env A J e) {flow : RuleId} {loaded : Loaded}
    (hflow : e.flows[flow]? = some loaded) (firing : Firing) (now : Timestamp) :
    Holds env A J (e.byMode env flow loaded firing now).2 := by
  unfold Engine.byMode
  dsimp only
  split
  · split
    · exact h.drop _ _ _ _
    · exact h.startRun hJ _ _ _
  · exact (h.finishAll hJ _ _ _).startRun hJ _ _ _
  · split
    · split
      · exact h.setLoaded ((h.loaded hflow).congr rfl rfl)
      · exact h.drop _ _ _ _
    · exact h.startRun hJ _ _ _
  · split
    · exact h.drop _ _ _ _
    · exact h.startRun hJ _ _ _

lemma Holds.fireNow (hJ : Lifts env A J) (h : Holds env A J e) (flow : RuleId) (firing : Firing)
    (now : Timestamp) : Holds env A J (e.fireNow env flow firing now).2 := by
  unfold Engine.fireNow
  split
  · exact h
  · next loaded hflow =>
    have hhanded : Holds env A J
        { e with ledger := { e.ledger with handed := e.ledger.handed + 1 } } :=
      h.congr rfl rfl rfl rfl rfl
    exact hhanded.byMode hJ hflow _ _

lemma Holds.arm (hJ : Lifts env A J) (h : Holds env A J e) {next : Map RuleId Loaded}
    (hnext : ∀ {flow : RuleId} {loaded : Loaded}, next[flow]? = some loaded →
      Known env A flow loaded) {a : Arm} (ha : A a) (now : Timestamp) :
    (∀ {flow : RuleId} {loaded : Loaded}, (Engine.arm env now next e a).1[flow]? = some loaded →
      Known env A flow loaded) ∧ Holds env A J (Engine.arm env now next e a).2 := by
  have hknown : ∀ (state : Armed) (holds : Map NodeId Timestamp) (queue : List Firing),
      Known env A a.flow.id ⟨a.flow, a.flow.version env, state, holds, queue⟩ :=
    fun _ _ _ => ⟨a, ha, rfl, rfl, rfl⟩
  have hinsert : ∀ {flow : RuleId} {loaded inserted : Loaded}, Known env A a.flow.id inserted →
      (next.insert a.flow.id inserted)[flow]? = some loaded → Known env A flow loaded := by
    intro flow loaded inserted hinserted hloaded
    rw [Map.get_insert] at hloaded
    split at hloaded
    · next hsame =>
      rw [Option.some.injEq] at hloaded
      exact hsame ▸ hloaded ▸ hinserted
    · exact hnext hloaded
  have herase : Holds env A J { e with flows := e.flows.erase a.flow.id } := by
    refine ⟨fun {flow loaded} hloaded => ?_, h.runs, h.ended⟩
    rw [Map.get_erase] at hloaded
    split at hloaded
    · simp at hloaded
    · exact h.loaded hloaded
  unfold Engine.arm
  dsimp only
  split
  · exact ⟨hinsert (hknown _ _ _), herase⟩
  · exact ⟨hinsert (hknown _ _ _), (herase.abortFlow hJ _ _ _).congr rfl rfl rfl rfl rfl⟩

lemma Holds.arms (hJ : Lifts env A J) (arms : List Arm) (ha : ∀ a ∈ arms, A a) (now : Timestamp) :
    ∀ {next : Map RuleId Loaded} {e : Engine}, Holds env A J e →
    (∀ {flow : RuleId} {loaded : Loaded}, next[flow]? = some loaded → Known env A flow loaded) →
    (∀ {flow : RuleId} {loaded : Loaded},
      (arms.foldl (fun (next, e) a => Engine.arm env now next e a) (next, e)).1[flow]? =
        some loaded → Known env A flow loaded) ∧
      Holds env A J (arms.foldl (fun (next, e) a => Engine.arm env now next e a) (next, e)).2 := by
  induction arms with
  | nil => exact fun h hnext => ⟨hnext, h⟩
  | cons a arms ih =>
    intro next e h hnext
    have harm := h.arm hJ hnext (ha a List.mem_cons_self) now
    exact ih (fun a' ha' => ha a' (List.mem_cons_of_mem _ ha')) harm.2 harm.1

lemma Holds.abortFlows (hJ : Lifts env A J) (flows : List RuleId) (reason : AbortReason)
    (now : Timestamp) : ∀ {e : Engine}, Holds env A J e →
    Holds env A J (flows.foldl (fun e flow => e.abortFlow env flow reason now) e) := by
  induction flows with
  | nil => exact fun h => h
  | cons flow flows ih => exact fun h => ih (h.abortFlow hJ _ _ _)

lemma windClocks_eq (env : Env) (e : Engine) (now : Timestamp) :
    ∃ (timers : List (Timestamp × Nat × Timer)) (next : Nat),
      e.windClocks env now = { e with timers, nextTimer := next } := by
  unfold Engine.windClocks
  dsimp only
  split
  · exact ⟨_, _, rfl⟩
  · exact scheduleAll_eq _ { e with timers := e.timers.filter fun entry => !entry.2.2.isClock }

lemma Holds.replaceFlows (hJ : Lifts env A J) (h : Holds env A J e) {arms : List Arm}
    (ha : ∀ a ∈ arms, A a) (now : Timestamp) : Holds env A J (e.replaceFlows env arms now) := by
  have hnone : ∀ {flow : RuleId} {loaded : Loaded}, (∅ : Map RuleId Loaded)[flow]? = some loaded →
      Known env A flow loaded := by simp
  have harms := Holds.arms hJ arms ha now h hnone
  unfold Engine.replaceFlows
  dsimp only
  generalize arms.foldl (fun (next, e) a => Engine.arm env now next e a) (∅, e) = gathered at harms ⊢
  have haborted := Holds.abortFlows hJ gathered.2.flows.keys .removed now harms.2
  obtain ⟨timers, next, hwound⟩ := windClocks_eq env
    { gathered.2.flows.keys.foldl (fun e flow => e.abortFlow env flow .removed now) gathered.2 with
      flows := gathered.1 } now
  rw [hwound]
  exact ⟨harms.1, haborted.runs, haborted.ended⟩

variable {H : Prop}

theorem holds_turn (hJ : Lifts env A J) (h : Holds env A J e) (ht : Turn env A H now e e') :
    Holds env A J e' := by
  cases ht with
  | quiet hq => exact h.quiet hq
  | @move id run m going goes =>
    have hcalls : ∀ effect ∈ m.effects, ∃ id : ContextId, CallOf id effect :=
      fun effect heffect => ⟨_, goes_effects goes effect heffect⟩
    exact @Holds.settle env A J e hJ e.ready id m h.loaded (fun _ hrun => h.runs hrun) h.ended
      (hJ.move (h.runs going) goes) hcalls
  | @step id k rest run m first going settles =>
    have hothers : ∀ other : ContextId, other ≠ id →
        pending { e with ready := rest } other = pending e other := by
      intro other hne
      simp [pending, first, Ne.symm hne]
    have hown : pending e id = k :: pending { e with ready := rest } id := by
      simp [pending, first]
    have hcalls : ∀ effect ∈ m.effects, ∃ id : ContextId, CallOf id effect :=
      fun effect heffect => ⟨_, goes_effects settles.1 effect heffect⟩
    refine Holds.settle hJ h.loaded (fun hne hrun => ?_) h.ended ?_ hcalls
    · rw [hothers _ hne]
      exact h.runs hrun
    · exact hJ.step (hown ▸ h.runs going) settles
  | @stale id k rest first ended =>
    refine ⟨h.loaded, fun {other run} hrun => ?_, h.ended⟩
    have hne : other ≠ id := by
      rintro rfl
      rw [ended] at hrun
      simp at hrun
    have hsame : pending { e with ready := rest } other = pending e other := by
      simp [pending, first, Ne.symm hne]
    rw [hsame]
    exact h.runs hrun
  | finish going ends lets =>
    refine h.finish hJ (fun run hrun => ?_) now
    rw [going, Option.some.injEq] at hrun
    exact hrun ▸ ends
  | halt stops going => exact h.finish hJ (by simp) now
  | fire firing armed => exact h.fireNow hJ _ firing now
  | replace known => exact h.replaceFlows hJ known now
  | take =>
    refine h.congr rfl rfl rfl rfl ?_
    simp [Engine.takeEffects]

theorem holds_turns (hJ : Lifts env A J) (ht : Turns env A H e e') (h : Holds env A J e) :
    Holds env A J e' := by
  unfold Turns at ht
  induction ht with
  | refl => exact h
  | tail _ hlast ih =>
    obtain ⟨now, hlast⟩ := hlast
    exact holds_turn hJ ih hlast

end

end Irori.Proofs
