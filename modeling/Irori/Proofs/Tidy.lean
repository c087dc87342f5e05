import Irori.Proofs.Lifting

/-!
# Runs, holds and queues belong to armed flows

Every run is of a flow that is loaded and armed, in the version that is loaded, and a flow that
isn't armed has neither holds nor a queue. Every turn of the engine keeps it so.
-/

namespace Irori.Proofs

open Irori

/-- Every run is of an armed flow, as it is loaded; flows that aren't armed have nothing waiting. -/
structure Tidy (e : Engine) : Prop where
  runs : ∀ {id : ContextId} {run : Run}, e.runs[id]? = some run → ∃ loaded : Loaded,
    e.flows[run.record.flowId]? = some loaded ∧ loaded.armed = .armed ∧
      run.record.version = loaded.version
  idle : ∀ {flow : RuleId} {loaded : Loaded}, e.flows[flow]? = some loaded →
    loaded.armed ≠ .armed → loaded.holds = ∅ ∧ loaded.queue = []

def frame (loaded : Loaded) : Loaded := { loaded with holds := ∅, queue := [] }

/-- The flows that are loaded stay so, armed as they were. -/
def SameFrames (e e' : Engine) : Prop :=
  ∀ id : RuleId, (e'.flows[id]?).map frame = (e.flows[id]?).map frame

def IsArmed (e : Engine) (flow : RuleId) : Prop :=
  ∀ loaded : Loaded, e.flows[flow]? = some loaded → loaded.armed = .armed

section

variable {env : Env} {now : Timestamp} {e e' e'' : Engine} {flow : RuleId} {loaded : Loaded}

lemma SameFrames.refl (e : Engine) : SameFrames e e := fun _ => rfl

lemma SameFrames.trans (h : SameFrames e e') (h' : SameFrames e' e'') : SameFrames e e'' :=
  fun id => (h' id).trans (h id)

lemma sameFrames_of_eq (h : e'.flows = e.flows) : SameFrames e e' := fun id => by rw [h]

lemma SameFrames.back (h : SameFrames e e') {loaded' : Loaded}
    (hloaded : e'.flows[flow]? = some loaded') :
    ∃ loaded : Loaded, e.flows[flow]? = some loaded ∧ loaded'.flow = loaded.flow ∧
      loaded'.version = loaded.version ∧ loaded'.armed = loaded.armed := by
  have hflow := h flow
  rw [hloaded, Option.map_some] at hflow
  obtain ⟨loaded, hold, hsame⟩ := Option.map_eq_some_iff.mp hflow.symm
  simp only [frame, Loaded.mk.injEq] at hsame
  exact ⟨loaded, hold, hsame.1.symm, hsame.2.1.symm, hsame.2.2.1.symm⟩

lemma SameFrames.symm (h : SameFrames e e') : SameFrames e' e := fun id => (h id).symm

lemma SameFrames.isArmed (h : SameFrames e e') (harmed : IsArmed e flow) : IsArmed e' flow := by
  intro loaded' hloaded'
  obtain ⟨loaded, hloaded, -, -, hsame⟩ := h.back hloaded'
  rw [hsame]
  exact harmed loaded hloaded

lemma Quiet.sameFrames (h : Quiet e e') : SameFrames e e' := by
  intro id
  have hcore := congrArg (Option.map frame) (h.flows id)
  rw [Option.map_map, Option.map_map] at hcore
  exact hcore

lemma sameFrames_setLoaded (hflow : e.flows[flow]? = some loaded) (holds : Map NodeId Timestamp)
    (queue : List Firing) : SameFrames e (e.setLoaded flow { loaded with holds, queue }) := by
  intro id
  rw [Engine.setLoaded, Map.get_insert]
  split
  · next hid =>
    rw [← hid, hflow]
    rfl
  · rfl

lemma sameFrames_startRun (env : Env) (e : Engine) (flow : RuleId) (firing : Firing)
    (now : Timestamp) : SameFrames e (e.startRun env flow firing now).2 := by
  cases hflow : e.flows[flow]? with
  | none =>
    rw [startRun_of_none env hflow]
    exact sameFrames_of_eq rfl
  | some loaded =>
    rw [startRun_eq env hflow]
    exact sameFrames_of_eq (settle_flows _ _ _)

variable (env) in
lemma endures_sameFrames : Endures env SameFrames where
  refl := SameFrames.refl
  trans h h' := h.trans h'
  startRun := sameFrames_startRun env
  afterRun _ _ _ _ _ := sameFrames_of_eq rfl
  queue hflow _ := sameFrames_setLoaded hflow _ _
  drop _ _ _ _ _ := sameFrames_of_eq rfl
  handed _ _ := sameFrames_of_eq rfl

lemma Tidy.congr (h : Tidy e) (hruns : e'.runs = e.runs) (hflows : e'.flows = e.flows) :
    Tidy e' := by
  refine ⟨fun hrun => ?_, fun hloaded => ?_⟩
  · rw [hruns] at hrun
    rw [hflows]
    exact h.runs hrun
  · rw [hflows] at hloaded
    exact h.idle hloaded

lemma Tidy.quiet (h : Tidy e) (hq : Quiet e e') : Tidy e' := by
  constructor
  · intro id run hrun
    rw [hq.runs] at hrun
    obtain ⟨loaded, hloaded, harmed, hversion⟩ := h.runs hrun
    obtain ⟨loaded', hloaded', -, hversion', harmed'⟩ := hq.sameFrames.symm.back hloaded
    exact ⟨loaded', hloaded', harmed' ▸ harmed, hversion.trans hversion'⟩
  · intro flow loaded' hloaded' hne
    have hcore := hq.flows flow
    rw [hloaded', Option.map_some] at hcore
    obtain ⟨loaded, hloaded, hsame⟩ := Option.map_eq_some_iff.mp hcore.symm
    simp only [core, Loaded.mk.injEq] at hsame
    obtain ⟨-, -, harmed, -, hqueue⟩ := hsame
    obtain ⟨hholds, hnil⟩ := h.idle hloaded (harmed ▸ hne)
    exact ⟨hq.idle hloaded hloaded' hne hholds, hqueue ▸ hnil⟩

lemma Tidy.settle (h : Tidy e) {id : ContextId} {run : Run} {m : Moved}
    (going : e.runs[id]? = some run) (hheader : header m.run.record = header run.record)
    (ready : List (ContextId × Nat)) : Tidy ({ e with ready }.settle id m) := by
  have hflowId : m.run.record.flowId = run.record.flowId := by
    have hsame := congrArg RunRecord.flowId hheader
    exact hsame
  have hversion : m.run.record.version = run.record.version := by
    have hsame := congrArg RunRecord.version hheader
    exact hsame
  constructor
  · intro other run' hrun
    rw [settle_runs, Map.get_insert] at hrun
    rw [settle_flows]
    split at hrun
    · rw [Option.some.injEq] at hrun
      rw [← hrun, hflowId, hversion]
      exact h.runs going
    · exact h.runs hrun
  · intro flow loaded hloaded
    rw [settle_flows] at hloaded
    exact h.idle hloaded

lemma Tidy.startRun (h : Tidy e) (harmed : IsArmed e flow) (firing : Firing) (now : Timestamp) :
    Tidy (e.startRun env flow firing now).2 := by
  cases hflow : e.flows[flow]? with
  | none =>
    rw [startRun_of_none env hflow]
    exact h.congr rfl rfl
  | some loaded =>
    rw [startRun_eq env hflow]
    have hheader := launched_header (env.runId e.minted now) flow loaded firing now
    constructor
    · intro id run hrun
      rw [settle_runs, begun, Map.get_insert, Map.get_insert] at hrun
      rw [settle_flows]
      split at hrun
      · rw [Option.some.injEq] at hrun
        have hid := congrArg RunRecord.flowId hheader
        have hversion := congrArg RunRecord.version hheader
        have hid' : run.record.flowId = flow := hrun ▸ hid
        have hversion' : run.record.version = loaded.version := hrun ▸ hversion
        exact ⟨loaded, hid' ▸ hflow, harmed loaded hflow, hversion'⟩
      · exact h.runs hrun
    · intro other loaded' hloaded'
      rw [settle_flows] at hloaded'
      exact h.idle hloaded'

lemma Tidy.setLoaded (h : Tidy e) (hflow : e.flows[flow]? = some loaded)
    (holds : Map NodeId Timestamp) (queue : List Firing)
    (hnone : loaded.armed ≠ .armed → holds = ∅ ∧ queue = []) :
    Tidy (e.setLoaded flow { loaded with holds, queue }) := by
  have hframes := sameFrames_setLoaded hflow holds queue
  constructor
  · intro id run hrun
    obtain ⟨loaded₀, hloaded₀, harmed, hversion⟩ := h.runs hrun
    obtain ⟨loaded', hloaded', -, hversion', harmed'⟩ := hframes.symm.back hloaded₀
    exact ⟨loaded', hloaded', harmed' ▸ harmed, hversion.trans hversion'⟩
  · intro other loaded' hloaded' hne
    rw [Engine.setLoaded, Map.get_insert] at hloaded'
    split at hloaded'
    · rw [Option.some.injEq] at hloaded'
      subst hloaded'
      exact hnone hne
    · exact h.idle hloaded' hne

lemma Tidy.startNext (h : Tidy e) (flow : RuleId) (now : Timestamp) :
    Tidy (e.startNext env flow now) := by
  unfold Engine.startNext
  split
  · exact h
  · next loaded hflow =>
    split
    · exact h
    · next firing rest hqueue =>
      -- A flow with a queue is armed.
      have harmed : loaded.armed = .armed := by
        by_contra hne
        rw [(h.idle hflow hne).2] at hqueue
        simp at hqueue
      have hset : Tidy (e.setLoaded flow { loaded with queue := rest }) :=
        h.setLoaded hflow loaded.holds rest fun hne => absurd harmed hne
      refine hset.startRun ?_ firing now
      intro loaded' hloaded'
      rw [Engine.setLoaded, Map.get_insert, if_pos rfl, Option.some.injEq] at hloaded'
      exact hloaded' ▸ harmed

lemma Tidy.erase (h : Tidy e) (id : ContextId) (run : Run) (outcome : Option RunOutcome)
    (now : Timestamp) : Tidy (afterRun e id run outcome now) := by
  refine ⟨fun hrun => ?_, h.idle⟩
  rw [afterRun, Map.get_erase] at hrun
  split at hrun
  · simp at hrun
  · exact h.runs hrun

lemma Tidy.finish (h : Tidy e) (id : ContextId) (outcome : Option RunOutcome) (now : Timestamp) :
    Tidy (e.finish env id outcome now) := by
  cases going : e.runs[id]? with
  | none => rwa [finish_of_none env going]
  | some run =>
    rw [finish_eq env going]
    split
    · exact (h.erase id run outcome now).startNext _ _
    · exact h.erase id run outcome now

lemma Tidy.finishAll (runs : List ContextId) (outcome : RunOutcome) (now : Timestamp) :
    ∀ {e : Engine}, Tidy e → Tidy (e.finishAll env runs outcome now) := by
  unfold Engine.finishAll
  induction runs with
  | nil => exact fun h => h
  | cons id runs ih => exact fun h => ih (h.finish id _ now)

lemma Tidy.byMode (h : Tidy e) (hflow : e.flows[flow]? = some loaded) (harmed : IsArmed e flow)
    (firing : Firing) (now : Timestamp) : Tidy (e.byMode env flow loaded firing now).2 := by
  unfold Engine.byMode
  dsimp only
  split
  · split
    · exact h.congr rfl rfl
    · exact h.startRun harmed _ _
  · exact Tidy.startRun (Tidy.finishAll _ _ _ h)
      (((endures_sameFrames env).finishAll e _ _ now).isArmed harmed) _ _
  · split
    · split
      · exact h.setLoaded hflow loaded.holds _ fun hne => absurd (harmed loaded hflow) hne
      · exact h.congr rfl rfl
    · exact h.startRun harmed _ _
  · split
    · exact h.congr rfl rfl
    · exact h.startRun harmed _ _

lemma Tidy.fireNow (h : Tidy e) (harmed : IsArmed e flow) (firing : Firing) (now : Timestamp) :
    Tidy (e.fireNow env flow firing now).2 := by
  unfold Engine.fireNow
  split
  · exact h
  · next loaded hflow =>
    have hhanded : Tidy { e with ledger := { e.ledger with handed := e.ledger.handed + 1 } } :=
      h.congr rfl rfl
    exact hhanded.byMode hflow harmed _ _

lemma mem_runsOf {id : ContextId} :
    id ∈ e.runsOf flow ↔ ∃ run : Run, e.runs[id]? = some run ∧ run.record.flowId = flow := by
  unfold Engine.runsOf
  simp only [List.mem_map, List.mem_filter, Prod.exists, decide_eq_true_eq,
    Std.ExtTreeMap.mem_toList_iff_getElem?_eq_some]
  constructor
  · rintro ⟨_, run, ⟨hrun, hflow⟩, rfl⟩
    exact ⟨run, hrun, hflow⟩
  · rintro ⟨run, hrun, hflow⟩
    exact ⟨id, run, ⟨hrun, hflow⟩, rfl⟩

lemma nodup_runsOf (e : Engine) (flow : RuleId) : (e.runsOf flow).Nodup := by
  have hkeys : (e.runs.toList.map Prod.fst).Nodup := by
    rw [Std.ExtTreeMap.map_fst_toList_eq_keys]
    exact (Std.ExtTreeMap.distinct_keys (t := e.runs)).imp fun hne => by simpa using hne
  exact hkeys.sublist (List.filter_sublist.map Prod.fst)

/-- The records of runs that end, all with the same outcome. -/
def endings (e : Engine) (ids : List ContextId) (outcome : RunOutcome) (now : Timestamp) :
    List Effect :=
  ids.filterMap fun id =>
    (e.runs[id]?).map fun run => .finished (run.finalRecord (some outcome) now)

/-- Ending this run lets no other start. -/
def EndsAlone (e : Engine) (outcome : RunOutcome) (id : ContextId) : Prop :=
  Engine.letsNextStart (some outcome) = false ∨ ∀ run : Run, e.runs[id]? = some run →
    ∀ loaded : Loaded, e.flows[run.record.flowId]? = some loaded → loaded.queue = []

lemma startNext_of_nil (h : ∀ loaded : Loaded, e.flows[flow]? = some loaded → loaded.queue = []) :
    e.startNext env flow now = e := by
  unfold Engine.startNext
  split
  · rfl
  · next loaded hflow => rw [h loaded hflow]

lemma finish_plain {id : ContextId} {run : Run} (going : e.runs[id]? = some run)
    {outcome : RunOutcome} (hplain : EndsAlone e outcome id) :
    e.finish env id (some outcome) now = afterRun e id run (some outcome) now := by
  rw [finish_eq env going]
  rcases hplain with hlets | hqueue
  · rw [hlets]
    rfl
  · split
    · exact startNext_of_nil (hqueue run going)
    · rfl

lemma endings_congr {ids : List ContextId} (h : ∀ id ∈ ids, e'.runs[id]? = e.runs[id]?)
    (outcome : RunOutcome) (now : Timestamp) : endings e' ids outcome now = endings e ids outcome now :=
  List.filterMap_congr fun id hid => by rw [h id hid]

variable (env) in
lemma finishAll_plain (outcome : RunOutcome) (now : Timestamp) (ids : List ContextId) :
    ∀ e : Engine, ids.Nodup → (∀ id ∈ ids, (e.runs[id]?).isSome) →
    (∀ id ∈ ids, EndsAlone e outcome id) →
    ∃ (runs : Map ContextId Run) (ready : List (ContextId × Nat)),
      e.finishAll env ids outcome now =
        { e with runs, ready, effects := e.effects ++ endings e ids outcome now } ∧
      (∀ id : ContextId, runs[id]? = if id ∈ ids then none else e.runs[id]?) ∧
      ready = e.ready.filter fun entry => entry.1 ∉ ids := by
  induction ids with
  | nil => exact fun e _ _ _ => ⟨e.runs, e.ready, by simp [Engine.finishAll, endings], by simp, by simp⟩
  | cons id ids ih =>
    intro e hnodup hgoing hplain
    rw [List.nodup_cons] at hnodup
    obtain ⟨run, going⟩ := Option.isSome_iff_exists.mp (hgoing id List.mem_cons_self)
    have hothers : ∀ other ∈ ids,
        (afterRun e id run (some outcome) now).runs[other]? = e.runs[other]? := by
      intro other hother
      have hne : id ≠ other := fun hid => hnodup.1 (hid ▸ hother)
      rw [afterRun, Map.get_erase, if_neg hne]
    obtain ⟨runs, ready, heq, hruns, hready⟩ := ih (afterRun e id run (some outcome) now) hnodup.2
      (fun other hother => by
        rw [hothers other hother]
        exact hgoing other (List.mem_cons_of_mem _ hother))
      (fun other hother => (hplain other (List.mem_cons_of_mem _ hother)).imp_right
        fun hqueue run hrun => hqueue run (hothers other hother ▸ hrun))
    refine ⟨runs, ready, ?_, fun other => ?_, ?_⟩
    · have hfirst : e.finishAll env (id :: ids) outcome now =
          (afterRun e id run (some outcome) now).finishAll env ids outcome now := by
        rw [Engine.finishAll, List.foldl_cons, finish_plain going (hplain id List.mem_cons_self)]
        rfl
      have hlist : endings e (id :: ids) outcome now =
          .finished (run.finalRecord (some outcome) now) :: endings e ids outcome now := by
        rw [endings, List.filterMap_cons, going]
        rfl
      rw [hfirst, heq, endings_congr hothers, hlist]
      simp [afterRun]
    · rw [hruns]
      by_cases hid : other = id
      · rw [hid, if_pos List.mem_cons_self, if_neg hnodup.1, afterRun, Map.get_erase, if_pos rfl]
      · have herased : (afterRun e id run (some outcome) now).runs[other]? = e.runs[other]? := by
          rw [afterRun, Map.get_erase, if_neg (Ne.symm hid)]
        rw [herased]
        by_cases hin : other ∈ ids
        · rw [if_pos hin, if_pos (List.mem_cons_of_mem _ hin)]
        · rw [if_neg hin, if_neg (by simp [hid, hin])]
    · rw [hready, afterRun, List.filter_filter]
      refine List.filter_congr fun entry _ => ?_
      by_cases hid : entry.1 = id
      · simp [hid]
      · simp [hid]

lemma endsAlone_aborted {reason : AbortReason} (h : reason ≠ .cancelled) (e : Engine) (id : ContextId) :
    EndsAlone e (.aborted reason) id := by
  left
  cases reason with
  | cancelled => exact absurd rfl h
  | _ => rfl

lemma runs_left (e : Engine) (flow : RuleId) (id : ContextId) :
    (if id ∈ e.runsOf flow then none else e.runs[id]?) =
      (e.runs[id]?).filter fun run => run.record.flowId ≠ flow := by
  cases hrun : e.runs[id]? with
  | none => simp
  | some run =>
    by_cases hflow : run.record.flowId = flow
    · rw [if_pos (mem_runsOf.mpr ⟨run, hrun, hflow⟩), Option.filter_some, if_neg (by simp [hflow])]
    · rw [if_neg]
      · rw [Option.filter_some, if_pos (by simp [hflow])]
      · intro hid
        obtain ⟨run', hrun', hflow'⟩ := mem_runsOf.mp hid
        rw [hrun, Option.some.injEq] at hrun'
        exact hflow (hrun' ▸ hflow')

lemma abortFlow_eq (env : Env) (e : Engine) (flow : RuleId) {reason : AbortReason}
    (h : reason ≠ .cancelled) (now : Timestamp) :
    ∃ (runs : Map ContextId Run) (ready : List (ContextId × Nat)) (flows : Map RuleId Loaded),
      e.abortFlow env flow reason now = { e with
        runs, ready, flows,
        effects := e.effects ++ endings e (e.runsOf flow) (.aborted reason) now,
        ledger := { e.ledger with
          discarded := e.ledger.discarded ++
            ((e.flows[flow]?).map fun loaded => loaded.queue.map Firing.serial).getD [] } } ∧
      (∀ id : ContextId, runs[id]? = (e.runs[id]?).filter fun run => run.record.flowId ≠ flow) ∧
      (∀ id : RuleId, flows[id]? = if flow = id then
        (e.flows[id]?).map fun loaded => { loaded with queue := [], holds := ∅ }
        else e.flows[id]?) := by
  obtain ⟨runs, ready, heq, hruns, -⟩ := finishAll_plain env (.aborted reason) now
    (e.runsOf flow) e (nodup_runsOf e flow)
    (fun id hid => by obtain ⟨run, hrun, -⟩ := mem_runsOf.mp hid; rw [hrun]; rfl)
    (fun id _ => endsAlone_aborted h e id)
  have hleft : ∀ id : ContextId,
      runs[id]? = (e.runs[id]?).filter fun run => run.record.flowId ≠ flow :=
    fun id => (hruns id).trans (runs_left e flow id)
  unfold Engine.abortFlow
  rw [heq]
  dsimp only
  cases hloaded : e.flows[flow]? with
  | none =>
    refine ⟨runs, ready, e.flows, by simp, hleft, fun id => ?_⟩
    split
    · next hid => rw [← hid, hloaded]; rfl
    · rfl
  | some loaded =>
    refine ⟨runs, ready, _, by simp [Engine.setLoaded]; rfl, hleft, fun id => ?_⟩
    rw [Map.get_insert]
    split
    · next hid => rw [← hid, hloaded]; rfl
    · rfl

/-- While a set of flows replaces another, every run is of an armed flow of the ones gathered so far
or of those not seen yet. -/
structure Gathered (next : Map RuleId Loaded) (e : Engine) : Prop where
  apart : ∀ {flow : RuleId}, (next[flow]?).isSome → e.flows[flow]? = none
  runs : ∀ {id : ContextId} {run : Run}, e.runs[id]? = some run → ∃ loaded : Loaded,
    (next[run.record.flowId]? = some loaded ∨ e.flows[run.record.flowId]? = some loaded) ∧
      loaded.armed = .armed ∧ run.record.version = loaded.version
  idle : ∀ {flow : RuleId} {loaded : Loaded},
    next[flow]? = some loaded ∨ e.flows[flow]? = some loaded → loaded.armed ≠ .armed →
      loaded.holds = ∅ ∧ loaded.queue = []

def changeReason (state : Armed) : AbortReason := if state = .disabled then .disabled else .changed

lemma changeReason_ne (state : Armed) : changeReason state ≠ .cancelled := by
  unfold changeReason
  split <;> simp

def keptOf (env : Env) (e : Engine) (a : Arm) : Option Loaded :=
  (e.flows[a.flow.id]?).filter fun old =>
    old.version = a.flow.version env ∧ Engine.armedOf a = .armed ∧ old.armed = .armed

lemma keptOf_eq_some {a : Arm} {old : Loaded} (h : keptOf env e a = some old) :
    e.flows[a.flow.id]? = some old ∧ old.version = a.flow.version env ∧
      Engine.armedOf a = .armed ∧ old.armed = .armed := by
  obtain ⟨hold, hsame⟩ := Option.filter_eq_some_iff.mp h
  exact ⟨hold, by simpa using hsame⟩

lemma arm_kept {next : Map RuleId Loaded} {a : Arm} {old : Loaded}
    (h : keptOf env e a = some old) (now : Timestamp) :
    Engine.arm env now next e a =
      (next.insert a.flow.id ⟨a.flow, a.flow.version env, Engine.armedOf a, old.holds, old.queue⟩,
        { e with flows := e.flows.erase a.flow.id }) := by
  unfold keptOf at h
  unfold Engine.arm
  simp only [h]

lemma arm_cut (next : Map RuleId Loaded) {a : Arm} (h : keptOf env e a = none) (now : Timestamp) :
    ∃ (runs : Map ContextId Run) (ready : List (ContextId × Nat)) (flows : Map RuleId Loaded),
      Engine.arm env now next e a =
        (next.insert a.flow.id ⟨a.flow, a.flow.version env, Engine.armedOf a, ∅, []⟩,
          { e with
            runs, ready, flows,
            effects := e.effects ++
              endings e (e.runsOf a.flow.id) (.aborted (changeReason (Engine.armedOf a))) now,
            ledger := { e.ledger with
              discarded := e.ledger.discarded ++
                (((e.flows[a.flow.id]?).map fun old => old.queue.map Firing.serial).getD [] ++
                  ((next[a.flow.id]?).map fun old => old.queue.map Firing.serial).getD []) } }) ∧
      (∀ id : ContextId,
        runs[id]? = (e.runs[id]?).filter fun run => run.record.flowId ≠ a.flow.id) ∧
      ∀ id : RuleId, flows[id]? = if a.flow.id = id then none else e.flows[id]? := by
  obtain ⟨runs, ready, flows, heq, hruns, hflows⟩ := abortFlow_eq env
    { e with flows := e.flows.erase a.flow.id } a.flow.id (changeReason_ne (Engine.armedOf a)) now
  have hnone : (e.flows.erase a.flow.id)[a.flow.id]? = none := by
    rw [Map.get_erase, if_pos rfl]
  refine ⟨runs, ready, flows, ?_, hruns, fun id => ?_⟩
  · unfold keptOf at h
    unfold Engine.arm
    simp only [h]
    rw [changeReason] at heq
    rw [heq]
    simp only [hnone, Option.map_none, Option.getD_none, List.append_nil]
    rfl
  · rw [hflows]
    split
    · next hid => rw [← hid, hnone]; rfl
    · next hid => rw [Map.get_erase, if_neg hid]

lemma Gathered.arm {next : Map RuleId Loaded} (h : Gathered next e) (a : Arm) (now : Timestamp) :
    Gathered (Engine.arm env now next e a).1 (Engine.arm env now next e a).2 := by
  cases hkept : keptOf env e a with
  | some old =>
    rw [arm_kept hkept]
    obtain ⟨hold, hversion, harmed, holdArmed⟩ := keptOf_eq_some hkept
    have hfresh : next[a.flow.id]? = none := by
      by_contra hsome
      rw [h.apart (Option.isSome_iff_ne_none.mpr hsome)] at hold
      simp at hold
    constructor
    · intro flow hflow
      rw [Map.get_erase]
      split
      · rfl
      · next hne =>
        rw [Map.get_insert, if_neg hne] at hflow
        exact h.apart hflow
    · intro id run hrun
      obtain ⟨loaded, hloaded, hloadedArmed, hsame⟩ := h.runs hrun
      by_cases hid : a.flow.id = run.record.flowId
      · refine ⟨_, .inl (by rw [Map.get_insert, if_pos hid]), harmed, ?_⟩
        rw [← hid, hfresh, hold] at hloaded
        simp only [reduceCtorEq, Option.some.injEq, false_or] at hloaded
        rw [hsame, ← hloaded, hversion]
      · refine ⟨loaded, ?_, hloadedArmed, hsame⟩
        rwa [Map.get_insert, if_neg hid, Map.get_erase, if_neg hid]
    · intro flow loaded hloaded hne
      rw [Map.get_insert, Map.get_erase] at hloaded
      split at hloaded
      · simp only [Option.some.injEq, reduceCtorEq, or_false] at hloaded
        rw [← hloaded] at hne
        exact absurd harmed hne
      · exact h.idle hloaded hne
  | none =>
    obtain ⟨runs, ready, flows, heq, hruns, hflows⟩ := arm_cut next hkept now
    rw [heq]
    constructor
    · intro flow hflow
      dsimp only
      rw [hflows]
      split
      · rfl
      · next hne =>
        rw [Map.get_insert, if_neg hne] at hflow
        exact h.apart hflow
    · intro id run hrun
      dsimp only at hrun ⊢
      rw [hruns] at hrun
      obtain ⟨hrun, hother⟩ := Option.filter_eq_some_iff.mp hrun
      obtain ⟨loaded, hloaded, hloadedArmed, hsame⟩ := h.runs hrun
      have hid : a.flow.id ≠ run.record.flowId := fun hid => by simp [hid] at hother
      refine ⟨loaded, ?_, hloadedArmed, hsame⟩
      rwa [Map.get_insert, if_neg hid, hflows, if_neg hid]
    · intro flow loaded hloaded hne
      dsimp only at hloaded
      rw [Map.get_insert, hflows] at hloaded
      split at hloaded
      · simp only [Option.some.injEq, reduceCtorEq, or_false] at hloaded
        exact hloaded ▸ ⟨rfl, rfl⟩
      · exact h.idle hloaded hne

variable (env) in
lemma Gathered.arms (arms : List Arm) (now : Timestamp) :
    ∀ {next : Map RuleId Loaded} {e : Engine}, Gathered next e →
    Gathered (arms.foldl (fun (next, e) a => Engine.arm env now next e a) (next, e)).1
      (arms.foldl (fun (next, e) a => Engine.arm env now next e a) (next, e)).2 := by
  induction arms with
  | nil => exact fun h => h
  | cons a arms ih => exact fun h => ih (h.arm a now)

lemma abortAll_eq (env : Env) (now : Timestamp) (ids : List RuleId) : ∀ e : Engine,
    (∀ id : ContextId, (ids.foldl (fun e flow => e.abortFlow env flow .removed now) e).runs[id]? =
      (e.runs[id]?).filter fun run => run.record.flowId ∉ ids) := by
  induction ids with
  | nil =>
    intro e id
    rw [List.foldl_nil]
    cases e.runs[id]? <;> simp [Option.filter]
  | cons flow ids ih =>
    intro e id
    obtain ⟨runs, ready, flows, heq, hruns, -⟩ := abortFlow_eq env e flow
      (by simp : AbortReason.removed ≠ .cancelled) now
    rw [List.foldl_cons, ih, heq]
    dsimp only
    rw [hruns]
    cases h : e.runs[id]? with
    | none => rfl
    | some run => by_cases hflow : run.record.flowId = flow <;> simp [Option.filter, hflow]

lemma Tidy.replaceFlows (h : Tidy e) (arms : List Arm) (now : Timestamp) :
    Tidy (e.replaceFlows env arms now) := by
  have hstart : Gathered ∅ e :=
    ⟨by simp, fun hrun => by simpa using h.runs hrun, fun hloaded => h.idle (by simpa using hloaded)⟩
  have hgathered := hstart.arms env arms now
  unfold Engine.replaceFlows
  dsimp only
  generalize arms.foldl (fun (next, e) a => Engine.arm env now next e a) (∅, e) = gathered
    at hgathered ⊢
  have hruns := abortAll_eq env now gathered.2.flows.keys gathered.2
  obtain ⟨timers, next, hwound⟩ := windClocks_eq env
    { gathered.2.flows.keys.foldl (fun e flow => e.abortFlow env flow .removed now) gathered.2 with
      flows := gathered.1 } now
  rw [hwound]
  refine ⟨fun {id run} hrun => ?_, fun hloaded => hgathered.idle (.inl hloaded)⟩
  dsimp only at hrun ⊢
  rw [hruns] at hrun
  obtain ⟨hrun, hkept⟩ := Option.filter_eq_some_iff.mp hrun
  obtain ⟨loaded, hloaded, harmed, hversion⟩ := hgathered.runs hrun
  refine ⟨loaded, hloaded.resolve_right fun hold => ?_, harmed, hversion⟩
  -- A flow that is left would have been thrown out.
  have hin : run.record.flowId ∈ gathered.2.flows.keys := by
    rw [Std.ExtTreeMap.mem_keys, Std.ExtTreeMap.mem_iff_isSome_getElem?, hold]
    rfl
  simp [hin] at hkept

theorem tidy_turn {A : Arm → Prop} {H : Prop} (h : Tidy e) (ht : Turn env A H now e e') :
    Tidy e' := by
  cases ht with
  | quiet hq => exact h.quiet hq
  | move going goes => exact h.settle going (goes_header goes).1 e.ready
  | step first going settles => exact h.settle going (goes_header settles.1).1 _
  | stale first ended => exact h.congr rfl rfl
  | finish going ends lets => exact h.finish _ _ _
  | halt stops going => exact h.finish _ _ _
  | fire firing armed => exact h.fireNow armed firing now
  | replace known => exact h.replaceFlows _ now
  | take => exact h.congr rfl rfl

end

end Irori.Proofs
