import Irori.Proofs.Replacing
import Irori.Proofs.Versions

/-!
# Where every firing ends up

The engine keeps to the modes of its flows and loses no firing: each is in exactly one place, runs
start in the order their firings were handed over, every run that started is going or has ended
once, and one that has ended asks for no more calls.
-/

namespace Irori.Proofs

open Irori

/-! ### What is counted -/

def endedIds (e : Engine) : List ContextId := e.records.map RunRecord.runId

def queueOf (e : Engine) (flow : RuleId) : List Nat :=
  ((e.flows[flow]?).map fun loaded => loaded.queue.map Firing.serial).getD []

def startedOf (e : Engine) (flow : RuleId) : List Nat :=
  (e.ledger.started.filter fun x => x.2.1 = flow).map (·.1)

def queuedCount (e : Engine) (serial : Nat) : Nat :=
  Map.total (fun loaded => (loaded.queue.map Firing.serial).count serial) e.flows

/-- What a mode allows of runs going and firings waiting. -/
def Within (mode : Mode) (running waiting : Nat) : Prop :=
  match mode with
  | .named _ => running ≤ 1 ∧ waiting = 0
  | .limited (.queued max) => running ≤ 1 ∧ waiting ≤ max.toNat
  | .limited (.parallel max) => running ≤ max.toNat ∧ waiting = 0

/-- A call after the record of its run. -/
def Late (before after : Effect) : Prop :=
  ∃ record : RunRecord, before = .finished record ∧ CallOf record.runId after

/-- The near-miss of a firing that was dropped. -/
def isDropped : Effect → Bool
  | .nearMiss miss => miss.kind = .dropped
  | _ => false

/-- Every firing is in one place, with those of `hand` on their way to one; the modes are kept to;
and a flow with firings waiting has a run going, unless it is the `hole` or the engine was stopped
(`H`). The firings of every flow start in order, and come before `n`. -/
structure Kept (env : Env) (H : Prop) (n : Nat) (hand : List Nat) (hole : Option RuleId)
    (e : Engine) : Prop where
  runIds : ∀ {id : ContextId} {run : Run}, e.runs[id]? = some run → run.record.runId = id
  minted : ∀ x ∈ e.ledger.started, ∃ (m : Nat) (at_ : Timestamp),
    m < e.minted ∧ x.2.2 = env.runId m at_
  once : (e.ledger.started.map (·.2.2)).Nodup
  known : ∀ id : ContextId, id ∈ e.ledger.started.map (·.2.2) ↔
    (e.runs[id]?).isSome ∨ id ∈ endedIds e
  endedOnce : (endedIds e).Nodup
  gone : ∀ id : ContextId, (e.runs[id]?).isSome → id ∉ endedIds e
  silent : (e.ledger.taken ++ e.effects).Pairwise fun before after => ¬ Late before after
  misses : (e.ledger.taken ++ e.effects).countP isDropped = e.ledger.dropped.length
  places : ∀ s : Nat, (e.ledger.started.map (·.1)).count s + e.ledger.dropped.count s +
    e.ledger.discarded.count s + queuedCount e s + hand.count s =
      if s < e.ledger.handed then 1 else 0
  within : ∀ {flow : RuleId} {loaded : Loaded}, e.flows[flow]? = some loaded →
    Within loaded.flow.mode (e.runsOf flow).length loaded.queue.length
  busy : ¬ H → ∀ {flow : RuleId} {loaded : Loaded}, hole ≠ some flow →
    e.flows[flow]? = some loaded → loaded.queue ≠ [] → e.runsOf flow ≠ []
  fifo : ¬ H → ∀ flow : RuleId, (startedOf e flow ++ queueOf e flow).Pairwise (· < ·)
  below : ∀ (flow : RuleId), ∀ s ∈ startedOf e flow ++ queueOf e flow, s < n

section

variable {env : Env} {H : Prop} {N n : Nat} {hand : List Nat} {hole : Option RuleId}
  {e e' : Engine} {flow : RuleId} {loaded : Loaded} {now : Timestamp}

/-! ### Counting runs -/

lemma runsOf_length_congr (h : ∀ id : ContextId, id ∈ e'.runsOf flow ↔ id ∈ e.runsOf flow) :
    (e'.runsOf flow).length = (e.runsOf flow).length :=
  ((List.perm_ext_iff_of_nodup (nodup_runsOf e' flow) (nodup_runsOf e flow)).mpr h).length_eq

lemma runsOf_length_cons (id : ContextId) (hid : id ∉ e.runsOf flow)
    (h : ∀ other : ContextId, other ∈ e'.runsOf flow ↔ other = id ∨ other ∈ e.runsOf flow) :
    (e'.runsOf flow).length = (e.runsOf flow).length + 1 := by
  have hnodup : (id :: e.runsOf flow).Nodup := List.nodup_cons.mpr ⟨hid, nodup_runsOf e flow⟩
  rw [((List.perm_ext_iff_of_nodup (nodup_runsOf e' flow) hnodup).mpr
    (by simpa using h)).length_eq, List.length_cons]

def flowOf (e : Engine) (id : ContextId) : Option RuleId :=
  (e.runs[id]?).map fun run => run.record.flowId

lemma mem_runsOf_iff {id : ContextId} : id ∈ e.runsOf flow ↔ flowOf e id = some flow := by
  rw [mem_runsOf, flowOf, Option.map_eq_some_iff]

lemma Within.mono {mode : Mode} {r r' w w' : Nat} (h : Within mode r w) (hr : r' ≤ r)
    (hw : w' ≤ w) : Within mode r' w' := by
  match mode, h with
  | .named _, h => exact ⟨by have := h.1; omega, by have := h.2; omega⟩
  | .limited (.queued max), h => exact ⟨by have := h.1; omega, by have := h.2; omega⟩
  | .limited (.parallel max), h => exact ⟨by have := h.1; omega, by have := h.2; omega⟩

/-! ### Changes that move no firing -/

def part (loaded : Loaded) : List Firing × Mode := (loaded.queue, loaded.flow.mode)

lemma part_back (h : ∀ id : RuleId, (e'.flows[id]?).map part = (e.flows[id]?).map part)
    {loaded' : Loaded} (hloaded : e'.flows[flow]? = some loaded') :
    ∃ loaded : Loaded, e.flows[flow]? = some loaded ∧ loaded.queue = loaded'.queue ∧
      loaded.flow.mode = loaded'.flow.mode := by
  have hflow := h flow
  rw [hloaded, Option.map_some] at hflow
  obtain ⟨loaded, hold, hsame⟩ := Option.map_eq_some_iff.mp hflow.symm
  exact ⟨loaded, hold, (Prod.mk.inj hsame).1, (Prod.mk.inj hsame).2⟩

lemma queueOf_congr (h : (e'.flows[flow]?).map part = (e.flows[flow]?).map part) :
    queueOf e' flow = queueOf e flow := by
  have hqueue := congrArg (Option.map fun x : List Firing × Mode => x.1.map Firing.serial) h
  rw [Option.map_map, Option.map_map] at hqueue
  unfold queueOf
  exact congrArg (Option.getD · []) hqueue

lemma queuedCount_congr (h : ∀ id : RuleId, (e'.flows[id]?).map part = (e.flows[id]?).map part)
    (serial : Nat) : queuedCount e' serial = queuedCount e serial := by
  refine Map.total_congr fun id => ?_
  have hqueue := congrArg
    (Option.map fun x : List Firing × Mode => (x.1.map Firing.serial).count serial) (h id)
  rw [Option.map_map, Option.map_map] at hqueue
  exact hqueue

lemma startedOf_congr (h : e'.ledger.started = e.ledger.started) (flow : RuleId) :
    startedOf e' flow = startedOf e flow := by
  unfold startedOf
  rw [h]

lemma records_append {new : List Effect}
    (hgiven : e'.ledger.taken ++ e'.effects = e.ledger.taken ++ e.effects ++ new) :
    endedIds e' = endedIds e ++ new.filterMap fun effect =>
      match effect with
      | .finished record => some record.runId
      | _ => none := by
  unfold endedIds Engine.records
  rw [hgiven, List.filterMap_append, List.map_append]
  congr 1
  rw [List.map_filterMap]
  refine List.filterMap_congr fun effect _ => ?_
  cases effect <;> rfl

/-- The parts of the ledger that say where firings are. -/
structure SameLedger (e e' : Engine) : Prop where
  handed : e'.ledger.handed = e.ledger.handed
  started : e'.ledger.started = e.ledger.started
  dropped : e'.ledger.dropped = e.ledger.dropped
  discarded : e'.ledger.discarded = e.ledger.discarded

lemma Kept.same (h : Kept env H n hand hole e)
    (hruns : ∀ id : ContextId, (e'.runs[id]?).map (fun run => (run.record.runId, run.record.flowId)) =
      (e.runs[id]?).map fun run => (run.record.runId, run.record.flowId))
    (hflows : ∀ id : RuleId, (e'.flows[id]?).map part = (e.flows[id]?).map part)
    (hminted : e.minted ≤ e'.minted) (hledger : SameLedger e e') (new : List Effect)
    (hgiven : e'.ledger.taken ++ e'.effects = e.ledger.taken ++ e.effects ++ new)
    (hnew : ∀ effect ∈ new,
      (∃ miss : NearMiss, miss.kind ≠ .dropped ∧ effect = .nearMiss miss) ∨
      ∃ id : ContextId, (e.runs[id]?).isSome ∧ CallOf id effect) :
    Kept env H n hand hole e' := by
  have hsome : ∀ id : ContextId, (e'.runs[id]?).isSome = (e.runs[id]?).isSome := by
    intro id
    have := congrArg Option.isSome (hruns id)
    rwa [Option.isSome_map, Option.isSome_map] at this
  have hflowOf : ∀ id : ContextId, flowOf e' id = flowOf e id := by
    intro id
    have := congrArg (Option.map Prod.snd) (hruns id)
    rw [Option.map_map, Option.map_map] at this
    exact this
  have hrunsOf : ∀ (flow : RuleId) (id : ContextId),
      id ∈ e'.runsOf flow ↔ id ∈ e.runsOf flow := by
    intro flow id
    rw [mem_runsOf_iff, mem_runsOf_iff, hflowOf]
  have hended : endedIds e' = endedIds e := by
    rw [records_append hgiven, List.filterMap_eq_nil_iff.mpr, List.append_nil]
    intro effect heffect
    rcases hnew effect heffect with ⟨miss, -, rfl⟩ | ⟨id, -, _, _, _, _, _, rfl⟩ <;> rfl
  constructor
  · intro id run hrun
    have hid := hruns id
    rw [hrun, Option.map_some] at hid
    obtain ⟨run', hrun', hsame⟩ := Option.map_eq_some_iff.mp hid.symm
    exact (Prod.mk.inj hsame).1.symm.trans (h.runIds hrun')
  · rw [hledger.started]
    intro x hx
    obtain ⟨m, at_, hm, hid⟩ := h.minted x hx
    exact ⟨m, at_, by omega, hid⟩
  · rw [hledger.started]
    exact h.once
  · intro id
    rw [hledger.started, hended, hsome]
    exact h.known id
  · rw [hended]
    exact h.endedOnce
  · intro id hid
    rw [hended]
    exact h.gone id (hsome id ▸ hid)
  · rw [hgiven, List.pairwise_append]
    refine ⟨h.silent, ?_, ?_⟩
    · refine List.pairwise_of_forall_mem_list fun before hbefore after _ => ?_
      rintro ⟨record, rfl, -⟩
      rcases hnew _ hbefore with ⟨miss, -, hmiss⟩ | ⟨id, -, _, _, _, _, _, hcall⟩
      · simp at hmiss
      · simp at hcall
    · rintro before hbefore after hafter ⟨record, rfl, hlate⟩
      rcases hnew after hafter with ⟨miss, -, rfl⟩ | ⟨id, hid, _, _, _, _, _, hcall⟩
      · obtain ⟨_, _, _, _, _, hcall⟩ := hlate
        simp at hcall
      · obtain ⟨_, _, _, _, _, hcall'⟩ := hlate
        rw [hcall] at hcall'
        simp only [Effect.call.injEq] at hcall'
        refine h.gone id hid (List.mem_map.mpr ⟨record, mem_records.mpr hbefore, hcall'.2.1.symm⟩)
  · rw [hgiven, List.countP_append, h.misses, hledger.dropped, List.countP_eq_zero.mpr,
      Nat.add_zero]
    intro effect heffect
    rcases hnew effect heffect with ⟨miss, hkind, rfl⟩ | ⟨id, -, _, _, _, _, _, rfl⟩
    · simpa [isDropped] using hkind
    · simp [isDropped]
  · intro s
    rw [hledger.started, hledger.dropped, hledger.discarded, hledger.handed,
      queuedCount_congr hflows]
    exact h.places s
  · intro flow loaded' hloaded'
    obtain ⟨loaded, hloaded, hqueue, hmode⟩ := part_back hflows hloaded'
    rw [runsOf_length_congr (hrunsOf flow), ← hqueue, ← hmode]
    exact h.within hloaded
  · intro hH flow loaded' hhole hloaded' hne
    obtain ⟨loaded, hloaded, hqueue, -⟩ := part_back hflows hloaded'
    obtain ⟨id, hid⟩ := List.exists_mem_of_ne_nil _ (h.busy hH hhole hloaded (hqueue ▸ hne))
    exact List.ne_nil_of_mem ((hrunsOf flow id).mpr hid)
  · intro hH flow
    rw [startedOf_congr hledger.started, queueOf_congr (hflows flow)]
    exact h.fifo hH flow
  · intro flow
    rw [startedOf_congr hledger.started, queueOf_congr (hflows flow)]
    exact h.below flow

/-! ### Runs end -/

lemma flowOf_afterRun (e : Engine) (id : ContextId) (run : Run) (outcome : Option RunOutcome)
    (now : Timestamp) (other : ContextId) :
    flowOf (afterRun e id run outcome now) other = if id = other then none else flowOf e other := by
  unfold flowOf
  rw [afterRun, Map.get_erase]
  split <;> rfl

lemma Kept.erase (h : Kept env H n hand hole e) {id : ContextId} {run : Run}
    (going : e.runs[id]? = some run) (hhole : hole = none ∨ hole = some run.record.flowId)
    (outcome : Option RunOutcome) (now : Timestamp) :
    Kept env H n hand (some run.record.flowId) (afterRun e id run outcome now) := by
  have hgiven : (afterRun e id run outcome now).ledger.taken ++
      (afterRun e id run outcome now).effects =
        e.ledger.taken ++ e.effects ++ [.finished (run.finalRecord outcome now)] :=
    (List.append_assoc _ _ _).symm
  have hended : endedIds (afterRun e id run outcome now) = endedIds e ++ [id] := by
    rw [records_append hgiven]
    exact congrArg (fun x => endedIds e ++ [x]) (h.runIds going)
  have hgoing : (e.runs[id]?).isSome := by rw [going]; rfl
  have hsome : ∀ other : ContextId, ((afterRun e id run outcome now).runs[other]?).isSome ↔
      id ≠ other ∧ (e.runs[other]?).isSome := by
    intro other
    rw [afterRun, Map.get_erase]
    split
    · next hid => simp [hid]
    · next hid => simp [hid]
  have hsub : ∀ flow : RuleId, (afterRun e id run outcome now).runsOf flow ⊆ e.runsOf flow := by
    intro flow other hother
    rw [mem_runsOf_iff, flowOf_afterRun] at hother
    split at hother
    · simp at hother
    · exact mem_runsOf_iff.mpr hother
  constructor
  · intro other run' hrun'
    rw [afterRun, Map.get_erase] at hrun'
    split at hrun'
    · simp at hrun'
    · exact h.runIds hrun'
  · exact h.minted
  · exact h.once
  · intro other
    rw [hended, hsome, List.mem_append, List.mem_singleton]
    refine (h.known other).trans ?_
    by_cases hid : id = other
    · subst hid
      simp [hgoing]
    · simp [hid, Ne.symm hid]
  · rw [hended]
    refine List.nodup_append.mpr ⟨h.endedOnce, by simp, ?_⟩
    intro other hother last hlast
    rw [List.mem_singleton.mp hlast]
    exact fun hid => h.gone id hgoing (hid ▸ hother)
  · intro other hother
    obtain ⟨hne, hother⟩ := (hsome other).mp hother
    rw [hended, List.mem_append, List.mem_singleton, not_or]
    exact ⟨h.gone other hother, Ne.symm hne⟩
  · rw [hgiven, List.pairwise_append]
    refine ⟨h.silent, by simp, ?_⟩
    rintro before - after hafter ⟨record, -, hlate⟩
    rw [List.mem_singleton.mp hafter] at hlate
    obtain ⟨_, _, _, _, _, hcall⟩ := hlate
    simp at hcall
  · rw [hgiven, List.countP_append, h.misses]
    rfl
  · exact h.places
  · intro flow loaded hloaded
    exact (h.within hloaded).mono
      ((nodup_runsOf _ flow).subperm (hsub flow)).length_le le_rfl
  · intro hH flow loaded hne hloaded hqueue
    have hopen : hole ≠ some flow := by
      rcases hhole with rfl | rfl
      · simp
      · exact hne
    obtain ⟨other, hother⟩ := List.exists_mem_of_ne_nil _ (h.busy hH hopen hloaded hqueue)
    refine List.ne_nil_of_mem (a := other) (mem_runsOf_iff.mpr ?_)
    rw [mem_runsOf_iff] at hother
    rw [flowOf_afterRun, if_neg, hother]
    rintro rfl
    rw [flowOf, going] at hother
    exact hne hother
  · exact h.fifo
  · exact h.below

lemma Kept.close (h : Kept env H n hand (some flow) e)
    (hqueue : ¬ H → ∀ loaded : Loaded, e.flows[flow]? = some loaded → loaded.queue ≠ [] →
      e.runsOf flow ≠ []) : Kept env H n hand none e :=
  { h with
    busy := fun hH other loaded _ hloaded hne => by
      by_cases hother : other = flow
      · subst hother
        exact hqueue hH loaded hloaded hne
      · exact h.busy hH (fun hsame => hother (Option.some.inj hsame).symm) hloaded hne }

/-! ### Runs begin -/

lemma Kept.fresh (hids : FreshIds env N) (hN : e.minted < N) (h : Kept env H n hand hole e)
    (now : Timestamp) :
    env.runId e.minted now ∉ e.ledger.started.map (·.2.2) := by
  intro hmem
  obtain ⟨x, hx, hid⟩ := List.mem_map.mp hmem
  obtain ⟨m, at_, hm, hid'⟩ := h.minted x hx
  have := hids m e.minted at_ now (hm.trans hN) hN (hid'.symm.trans hid)
  omega

/-- A firing in hand becomes a run, where its flow's mode has room for it and it comes in its
turn. -/
lemma Kept.begin (hids : FreshIds env N) (hN : e.minted < N) {firing : Firing}
    (h : Kept env H n [firing.serial] hole e) (hhole : hole = none ∨ hole = some flow)
    (hflow : e.flows[flow]? = some loaded)
    (room : Within loaded.flow.mode ((e.runsOf flow).length + 1) loaded.queue.length)
    (before : ¬ H → ∀ s ∈ startedOf e flow, s < firing.serial)
    (ahead : ¬ H → ∀ s ∈ queueOf e flow, firing.serial < s)
    {n' : Nat} (hn : n ≤ n') (hserial : firing.serial < n') (now : Timestamp) :
    Kept env H n' [] none (e.startRun env flow firing now).2 := by
  rw [startRun_eq env hflow]
  have hfresh := h.fresh hids hN now
  generalize hid : env.runId e.minted now = id at hfresh
  have hheader := launched_header id flow loaded firing now
  have hrunId : (launched id flow loaded firing now).run.record.runId = id := by
    have hsame := congrArg RunRecord.runId hheader
    exact hsame
  have hflowId : (launched id flow loaded firing now).run.record.flowId = flow := by
    have hsame := congrArg RunRecord.flowId hheader
    exact hsame
  generalize hstarted : (begun env e flow loaded firing now).settle id
    (launched id flow loaded firing now) = e'
  have hflows : e'.flows = e.flows := by rw [← hstarted, settle_flows]; rfl
  have hruns : ∀ other : ContextId, e'.runs[other]? =
      if id = other then some (launched id flow loaded firing now).run else e.runs[other]? := by
    intro other
    rw [← hstarted, settle_runs, Map.get_insert, begun, Map.get_insert, hid]
    split <;> rfl
  have hledger : e'.ledger.handed = e.ledger.handed ∧
      e'.ledger.started = e.ledger.started ++ [(firing.serial, flow, id)] ∧
      e'.ledger.dropped = e.ledger.dropped ∧ e'.ledger.discarded = e.ledger.discarded := by
    rw [← hstarted, settle_ledger, begun, hid]
    exact ⟨rfl, rfl, rfl, rfl⟩
  have hgiven : e'.ledger.taken ++ e'.effects = e.ledger.taken ++ e.effects := by
    obtain ⟨-, heffects, -⟩ := leave_asks (Engine.newRun id flow loaded firing now) firing.trigger
      .out
    rw [← hstarted, settle_ledger, settle_effects, launched, heffects, List.append_nil]
    rfl
  have hminted : e'.minted = e.minted + 1 := by rw [← hstarted, settle_minted]; rfl
  obtain ⟨hhanded, hstart, hdropped, hdiscarded⟩ := hledger
  have hended : endedIds e' = endedIds e := by
    unfold endedIds Engine.records
    rw [hgiven]
  have hnew : e.runs[id]? = none := by
    by_contra hsome
    exact hfresh ((h.known id).mpr (.inl (Option.isSome_iff_ne_none.mpr hsome)))
  have hflowOf : ∀ other : ContextId, flowOf e' other =
      if id = other then some flow else flowOf e other := by
    intro other
    unfold flowOf
    rw [hruns]
    split
    · rw [Option.map_some, hflowId]
    · rfl
  have hmine : (e'.runsOf flow).length = (e.runsOf flow).length + 1 := by
    refine runsOf_length_cons id ?_ fun other => ?_
    · rw [mem_runsOf_iff, flowOf, hnew]
      simp
    · rw [mem_runsOf_iff, mem_runsOf_iff, hflowOf]
      by_cases hother : id = other
      · simp [hother]
      · simp [hother, Ne.symm hother]
  have hothers : ∀ {other : RuleId}, other ≠ flow → ∀ id' : ContextId,
      id' ∈ e'.runsOf other ↔ id' ∈ e.runsOf other := by
    intro other hne id'
    rw [mem_runsOf_iff, mem_runsOf_iff, hflowOf]
    split
    · next hsame =>
      rw [← hsame, flowOf, hnew]
      simp [Ne.symm hne]
    · rfl
  have hstartedOf : ∀ other : RuleId, startedOf e' other =
      startedOf e other ++ if other = flow then [firing.serial] else [] := by
    intro other
    unfold startedOf
    rw [hstart, List.filter_append, List.map_append]
    congr 1
    split
    · next hsame => simp [hsame]
    · next hne => simp [Ne.symm hne]
  have hqueueOf : ∀ other : RuleId, queueOf e' other = queueOf e other := by
    intro other
    unfold queueOf
    rw [hflows]
  constructor
  · intro other run hrun
    rw [hruns] at hrun
    split at hrun
    · next hsame =>
      rw [Option.some.injEq] at hrun
      rw [← hrun, hrunId, hsame]
    · exact h.runIds hrun
  · rw [hstart, hminted]
    intro x hx
    rcases List.mem_append.mp hx with hx | hx
    · obtain ⟨m, at_, hm, hx⟩ := h.minted x hx
      exact ⟨m, at_, by omega, hx⟩
    · rw [List.mem_singleton.mp hx]
      exact ⟨e.minted, now, by omega, hid.symm⟩
  · rw [hstart, List.map_append, List.nodup_append]
    refine ⟨h.once, by simp, ?_⟩
    intro other hother last hlast
    rw [List.map_singleton, List.mem_singleton] at hlast
    intro hsame
    have hid' : other = id := hsame.trans hlast
    exact hfresh (hid' ▸ hother)
  · intro other
    rw [hstart, hended, List.map_append, List.mem_append, h.known other, hruns]
    by_cases hsame : id = other
    · simp [hsame]
    · simp [hsame, Ne.symm hsame]
  · rw [hended]
    exact h.endedOnce
  · intro other hother
    rw [hended]
    rw [hruns] at hother
    split at hother
    · next hsame => exact fun hmem => hfresh ((h.known id).mpr (.inr (hsame ▸ hmem)))
    · exact h.gone other hother
  · rw [hgiven]
    exact h.silent
  · rw [hgiven, hdropped]
    exact h.misses
  · intro s
    have hcount : queuedCount e' s = queuedCount e s := by
      unfold queuedCount
      rw [hflows]
    have hplaces := h.places s
    rw [hstart, hdropped, hdiscarded, hhanded, hcount, List.map_append, List.count_append]
    simpa [Nat.add_assoc, Nat.add_comm, Nat.add_left_comm] using hplaces
  · intro other loaded' hloaded'
    rw [hflows] at hloaded'
    by_cases hsame : other = flow
    · subst hsame
      rw [hflow, Option.some.injEq] at hloaded'
      rw [hmine, ← hloaded']
      exact room
    · rw [runsOf_length_congr (hothers hsame)]
      exact h.within hloaded'
  · intro hH other loaded' _ hloaded' hne
    rw [hflows] at hloaded'
    by_cases hsame : other = flow
    · have hpos : 0 < (e'.runsOf flow).length := by omega
      rw [hsame]
      exact List.ne_nil_of_length_pos hpos
    · have hopen : hole ≠ some other := by
        rcases hhole with rfl | rfl
        · simp
        · exact fun hother => hsame (Option.some.inj hother).symm
      obtain ⟨id', hid'⟩ := List.exists_mem_of_ne_nil _ (h.busy hH hopen hloaded' hne)
      exact List.ne_nil_of_mem ((hothers hsame id').mpr hid')
  · intro hH other
    rw [hstartedOf, hqueueOf]
    split
    · next hsame =>
      have hsorted := List.pairwise_append.mp (h.fifo hH other)
      rw [hsame] at hsorted ⊢
      rw [List.append_assoc, List.pairwise_append]
      refine ⟨hsorted.1, ?_, ?_⟩
      · exact List.pairwise_cons.mpr ⟨ahead hH, hsorted.2.1⟩
      · intro s hs s' hs'
        rcases List.mem_cons.mp hs' with rfl | hs'
        · exact before hH s hs
        · exact hsorted.2.2 s hs s' hs'
    · rw [List.append_nil]
      exact h.fifo hH other
  · intro other s hs
    rw [hstartedOf, hqueueOf] at hs
    have hbelow := h.below other s
    simp only [List.mem_append] at hs hbelow
    rcases hs with (hs | hs) | hs
    · have := hbelow (.inl hs)
      omega
    · split at hs
      · rw [List.mem_singleton.mp hs]
        exact hserial
      · simp at hs
    · have := hbelow (.inr hs)
      omega

/-! ### Turns of a run -/

lemma Kept.quiet (h : Kept env H n hand hole e) (hq : Quiet e e') : Kept env H n hand hole e' := by
  obtain ⟨misses, hkinds, hmisses⟩ := hq.effects
  obtain ⟨bare, stillborn, overtaken, hledger⟩ := hq.ledger
  refine h.same (fun id => by rw [hq.runs]) (fun id => ?_) hq.minted.ge
    ⟨by rw [hledger], by rw [hledger], by rw [hledger], by rw [hledger]⟩
    (misses.map .nearMiss) (by rw [hledger, hmisses, List.append_assoc]) fun effect heffect => ?_
  · have hpart := congrArg (Option.map part) (hq.flows id)
    rw [Option.map_map, Option.map_map] at hpart
    exact hpart
  · obtain ⟨miss, hmiss, rfl⟩ := List.mem_map.mp heffect
    exact .inl ⟨miss, hkinds miss hmiss, rfl⟩

lemma Kept.settle (h : Kept env H n hand hole e) {id : ContextId} {run : Run} {m : Moved}
    (going : e.runs[id]? = some run) (hheader : header m.run.record = header run.record)
    (hcalls : ∀ effect ∈ m.effects, CallOf run.record.runId effect)
    (ready : List (ContextId × Nat)) : Kept env H n hand hole ({ e with ready }.settle id m) := by
  have hrunId : m.run.record.runId = run.record.runId := by
    have hsame := congrArg RunRecord.runId hheader
    exact hsame
  have hflowId : m.run.record.flowId = run.record.flowId := by
    have hsame := congrArg RunRecord.flowId hheader
    exact hsame
  refine h.same (fun other => ?_) (fun other => by rw [settle_flows]) (by rw [settle_minted])
    ⟨by rw [settle_ledger], by rw [settle_ledger], by rw [settle_ledger], by rw [settle_ledger]⟩
    m.effects (by rw [settle_ledger, settle_effects, List.append_assoc]) fun effect heffect => ?_
  · rw [settle_runs, Map.get_insert]
    split
    · next hid => rw [← hid, going, Option.map_some, Option.map_some, hrunId, hflowId]
    · rfl
  · rw [h.runIds going] at hcalls
    exact .inr ⟨id, by rw [going]; rfl, hcalls effect heffect⟩

/-! ### Queues -/

lemma Kept.requeue (h : Kept env H n hand hole e) {hand' : List Nat} {hole' : Option RuleId}
    (hhole : hole = none ∨ hole = some flow) (hflow : e.flows[flow]? = some loaded)
    {queue : List Firing}
    (hcount : ∀ s : Nat, hand'.count s + (queue.map Firing.serial).count s =
      hand.count s + (loaded.queue.map Firing.serial).count s)
    (room : Within loaded.flow.mode (e.runsOf flow).length queue.length)
    (hbusy : ¬ H → hole' ≠ some flow → queue ≠ [] → e.runsOf flow ≠ [])
    (hfifo : ¬ H → (startedOf e flow ++ queue.map Firing.serial).Pairwise (· < ·))
    {n' : Nat} (hn : n ≤ n') (hbelow : ∀ s ∈ queue.map Firing.serial, s < n') :
    Kept env H n' hand' hole' (e.setLoaded flow { loaded with queue }) := by
  have hget : ∀ other : RuleId, (e.setLoaded flow { loaded with queue }).flows[other]? =
      if flow = other then some { loaded with queue } else e.flows[other]? := by
    intro other
    rw [Engine.setLoaded, Map.get_insert]
  have hqueueOf : ∀ other : RuleId, queueOf (e.setLoaded flow { loaded with queue }) other =
      if flow = other then queue.map Firing.serial else queueOf e other := by
    intro other
    unfold queueOf
    rw [hget]
    split <;> rfl
  have hopen : ∀ {other : RuleId}, flow ≠ other → hole ≠ some other := by
    rintro other hne rfl
    rcases hhole with hhole | hhole
    · cases hhole
    · exact hne (Option.some.inj hhole).symm
  refine ⟨h.runIds, h.minted, h.once, h.known, h.endedOnce, h.gone, h.silent, h.misses,
    fun s => ?_, fun {other loaded'} hother => ?_, fun hH other loaded' hne hother hqueue => ?_,
    fun hH other => ?_, fun other s hs => ?_⟩
  · have hplaces := h.places s
    have htotal : queuedCount (e.setLoaded flow { loaded with queue }) s +
        (loaded.queue.map Firing.serial).count s =
          queuedCount e s + (queue.map Firing.serial).count s := by
      have hinsert := Map.total_insert (fun loaded => (loaded.queue.map Firing.serial).count s)
        e.flows flow { loaded with queue }
      rw [hflow] at hinsert
      exact hinsert
    have hcounted := hcount s
    show (e.ledger.started.map (·.1)).count s + e.ledger.dropped.count s +
      e.ledger.discarded.count s + queuedCount (e.setLoaded flow { loaded with queue }) s +
        hand'.count s = if s < e.ledger.handed then 1 else 0
    omega
  · rw [hget] at hother
    split at hother
    · next hid => exact hid ▸ (Option.some.inj hother) ▸ room
    · exact h.within hother
  · rw [hget] at hother
    split at hother
    · next hid =>
      rw [← Option.some.inj hother] at hqueue
      exact hid ▸ hbusy hH (hid ▸ hne) hqueue
    · next hid => exact h.busy hH (hopen hid) hother hqueue
  · rw [hqueueOf]
    split
    · next hid => exact hid ▸ hfifo hH
    · exact h.fifo hH other
  · rw [hqueueOf] at hs
    have hold := h.below other s
    rw [List.mem_append] at hs hold
    rcases hs with hs | hs
    · exact (hold (.inl hs)).trans_le hn
    · split at hs
      · exact hbelow s hs
      · exact (hold (.inr hs)).trans_le hn

lemma queueOf_some (hflow : e.flows[flow]? = some loaded) :
    queueOf e flow = loaded.queue.map Firing.serial := by
  rw [queueOf, hflow]
  rfl

lemma startRun_minted (hflow : e.flows[flow]? = some loaded) (firing : Firing) (now : Timestamp) :
    (e.startRun env flow firing now).2.minted = e.minted + 1 := by
  rw [startRun_eq env hflow, settle_minted]
  rfl

lemma Kept.startNext (hids : FreshIds env N) (h : Kept env H n [] (some flow) e)
    (spare : ∀ loaded : Loaded, e.flows[flow]? = some loaded →
      Within loaded.flow.mode ((e.runsOf flow).length + 1) loaded.queue.length) (now : Timestamp)
    (hN : (e.startNext env flow now).minted ≤ N) : Kept env H n [] none (e.startNext env flow now) := by
  unfold Engine.startNext at hN ⊢
  split
  · next hnone => exact h.close fun _ loaded hloaded => by rw [hnone] at hloaded; cases hloaded
  next loaded hflow =>
  split
  · next hnil =>
    refine h.close fun _ loaded' hloaded' hne => absurd ?_ hne
    rw [hflow, Option.some.injEq] at hloaded'
    exact hloaded' ▸ hnil
  next next rest hqueue =>
  have hqueueOf := queueOf_some hflow
  rw [hqueue, List.map_cons] at hqueueOf
  have hlength : rest.length ≤ loaded.queue.length := by rw [hqueue, List.length_cons]; omega
  have hfifo : ¬ H → (startedOf e flow ++ next.serial :: rest.map Firing.serial).Pairwise (· < ·) :=
    fun hH => hqueueOf ▸ h.fifo hH flow
  have hbelow := h.below flow
  rw [hqueueOf] at hbelow
  have hpopped : Kept env H n [next.serial] (some flow)
      (e.setLoaded flow { loaded with queue := rest }) := by
    refine h.requeue (.inr rfl) hflow (fun s => ?_) ((spare loaded hflow).mono (by omega) hlength)
      (fun _ hne => absurd rfl hne) (fun hH => ?_) le_rfl fun s hs => hbelow s (by simp [hs])
    · rw [hqueue, List.map_cons, List.count_cons, List.count_cons]
      simp [Nat.add_comm]
    · exact (hfifo hH).sublist
        ((List.Sublist.refl _).append (List.sublist_cons_self _ _))
  have hset : (e.setLoaded flow { loaded with queue := rest }).flows[flow]? =
      some { loaded with queue := rest } := by
    rw [Engine.setLoaded, Map.get_insert, if_pos rfl]
  simp only [hflow, hqueue] at hN
  rw [startRun_minted hset] at hN
  refine hpopped.begin hids hN (.inr rfl) hset ((spare loaded hflow).mono le_rfl hlength)
    (fun hH s hs => ?_) (fun hH s hs => ?_) le_rfl (hbelow _ (by simp)) now
  · exact (List.pairwise_append.mp (hfifo hH)).2.2 s hs _ List.mem_cons_self
  · rw [queueOf_some hset] at hs
    exact (List.pairwise_cons.mp (List.pairwise_append.mp (hfifo hH)).2.1).1 s hs

/-! ### Ends of runs -/

lemma runsOf_afterRun {id : ContextId} {run : Run} (going : e.runs[id]? = some run)
    (outcome : Option RunOutcome) (now : Timestamp) :
    (e.runsOf run.record.flowId).length =
      ((afterRun e id run outcome now).runsOf run.record.flowId).length + 1 := by
  refine runsOf_length_cons id ?_ fun other => ?_
  · rw [mem_runsOf_iff, flowOf_afterRun, if_pos rfl]
    simp
  · rw [mem_runsOf_iff, mem_runsOf_iff, flowOf_afterRun]
    by_cases hother : id = other
    · subst hother
      simp [flowOf, going]
    · simp [hother, Ne.symm hother]

lemma Kept.finish (hids : FreshIds env N) (h : Kept env H n [] none e) {id : ContextId} {run : Run}
    {outcome : Option RunOutcome} (going : e.runs[id]? = some run)
    (lets : Engine.letsNextStart outcome = true ∨ H) (now : Timestamp)
    (hN : (e.finish env id outcome now).minted ≤ N) :
    Kept env H n [] none (e.finish env id outcome now) := by
  rw [finish_eq env going] at hN ⊢
  have herased := h.erase going (.inl rfl) outcome now
  split
  · next hlets =>
    rw [if_pos hlets] at hN
    refine herased.startNext hids (fun loaded hloaded => ?_) now hN
    rw [← runsOf_afterRun going outcome now]
    exact h.within hloaded
  · next hnot => exact herased.close fun hH => absurd (lets.resolve_right hH) hnot

lemma within_zero (mode : Mode) : Within mode 0 0 := by
  unfold Within
  split <;> simp

lemma endings_ids (h : Kept env H n hand hole e) (outcome : RunOutcome) (now : Timestamp) :
    (endings e (e.runsOf flow) outcome now).filterMap (fun effect =>
      match effect with
      | .finished record => some record.runId
      | _ => none) = e.runsOf flow := by
  unfold endings
  rw [List.filterMap_filterMap]
  have hsome : ∀ id ∈ e.runsOf flow, ((e.runs[id]?).map fun run =>
      Effect.finished (run.finalRecord (some outcome) now)).bind (fun effect =>
        match effect with
        | .finished record => some record.runId
        | _ => none) = some id := by
    intro id hid
    obtain ⟨run, hrun, -⟩ := mem_runsOf.mp hid
    rw [hrun]
    exact congrArg some (h.runIds hrun)
  rw [List.filterMap_congr hsome]
  exact List.filterMap_some

lemma runsOf_left (hruns : ∀ id : ContextId,
    e'.runs[id]? = (e.runs[id]?).filter fun run => run.record.flowId ≠ flow) :
    e'.runsOf flow = [] := by
  rw [List.eq_nil_iff_forall_not_mem]
  intro id hid
  obtain ⟨run, hrun, hflow⟩ := mem_runsOf.mp hid
  rw [hruns] at hrun
  simpa [hflow] using (Option.filter_eq_some_iff.mp hrun).2

lemma Kept.cut (h : Kept env H n hand none e) {outcome : RunOutcome}
    (hruns : ∀ id : ContextId,
      e'.runs[id]? = (e.runs[id]?).filter fun run => run.record.flowId ≠ flow)
    (hflows : ∀ id : RuleId, id ≠ flow → (e'.flows[id]?).map part = (e.flows[id]?).map part)
    (hempty : ∀ loaded : Loaded, e'.flows[flow]? = some loaded → loaded.queue = [])
    (hminted : e'.minted = e.minted)
    (hgiven : e'.ledger.taken ++ e'.effects =
      e.ledger.taken ++ e.effects ++ endings e (e.runsOf flow) outcome now)
    (hledger : e'.ledger.handed = e.ledger.handed ∧ e'.ledger.started = e.ledger.started ∧
      e'.ledger.dropped = e.ledger.dropped ∧
      e'.ledger.discarded = e.ledger.discarded ++ queueOf e flow) :
    Kept env H n hand none e' := by
  obtain ⟨hhanded, hstarted, hdropped, hdiscarded⟩ := hledger
  have hended : endedIds e' = endedIds e ++ e.runsOf flow := by
    rw [records_append hgiven, endings_ids h]
  have hleft : ∀ id : ContextId, (e'.runs[id]?).isSome ↔
      (e.runs[id]?).isSome ∧ id ∉ e.runsOf flow := by
    intro id
    rw [hruns, mem_runsOf]
    cases hrun : e.runs[id]? with
    | none => simp
    | some run => by_cases hflow : run.record.flowId = flow <;> simp [hflow]
  have hfinished : ∀ effect ∈ endings e (e.runsOf flow) outcome now,
      ∃ record : RunRecord, effect = .finished record := by
    intro effect heffect
    obtain ⟨id, -, hmap⟩ := List.mem_filterMap.mp heffect
    obtain ⟨run, -, rfl⟩ := Option.map_eq_some_iff.mp hmap
    exact ⟨_, rfl⟩
  have hrunsOf : ∀ other : RuleId, other ≠ flow → ∀ id : ContextId,
      id ∈ e'.runsOf other ↔ id ∈ e.runsOf other := by
    intro other hne id
    rw [mem_runsOf, mem_runsOf, hruns]
    cases hrun : e.runs[id]? with
    | none => simp
    | some run =>
      by_cases hflow : run.record.flowId = flow
      · simp [hflow, Ne.symm hne]
      · simp [hflow]
  have hnone : e'.runsOf flow = [] := runsOf_left hruns
  have hqueueNil : queueOf e' flow = [] := by
    unfold queueOf
    cases hloaded : e'.flows[flow]? with
    | none => rfl
    | some loaded => rw [Option.map_some, hempty loaded hloaded]; rfl
  constructor
  · intro id run hrun
    rw [hruns] at hrun
    exact h.runIds (Option.filter_eq_some_iff.mp hrun).1
  · rw [hstarted, hminted]
    exact h.minted
  · rw [hstarted]
    exact h.once
  · intro id
    rw [hstarted, hended, hleft, List.mem_append, h.known id]
    have hgoing : id ∈ e.runsOf flow → (e.runs[id]?).isSome := fun hid => by
      obtain ⟨run, hrun, -⟩ := mem_runsOf.mp hid
      rw [hrun]
      rfl
    tauto
  · rw [hended]
    refine List.nodup_append.mpr ⟨h.endedOnce, nodup_runsOf e flow, ?_⟩
    rintro id hid other hother rfl
    obtain ⟨run, hrun, -⟩ := mem_runsOf.mp hother
    exact h.gone id (by rw [hrun]; rfl) hid
  · intro id hid
    rw [hended, List.mem_append, not_or]
    exact ⟨h.gone id ((hleft id).mp hid).1, ((hleft id).mp hid).2⟩
  · rw [hgiven, List.pairwise_append]
    refine ⟨h.silent, List.pairwise_of_forall_mem_list fun before _ after hafter => ?_,
      fun before _ after hafter => ?_⟩ <;>
    · rintro ⟨late, -, _, _, _, _, _, hcall⟩
      obtain ⟨record, hrecord⟩ := hfinished after hafter
      rw [hcall] at hrecord
      cases hrecord
  · rw [hgiven, List.countP_append, h.misses, hdropped, List.countP_eq_zero.mpr, Nat.add_zero]
    intro effect heffect
    obtain ⟨record, rfl⟩ := hfinished effect heffect
    simp [isDropped]
  · intro s
    have hplaces := h.places s
    have hthere := Map.total_erase (fun loaded => (loaded.queue.map Firing.serial).count s) e.flows flow
    have hhere := Map.total_erase (fun loaded => (loaded.queue.map Firing.serial).count s) e'.flows flow
    have hrest : Map.total (fun loaded => (loaded.queue.map Firing.serial).count s)
        (e'.flows.erase flow) =
        Map.total (fun loaded => (loaded.queue.map Firing.serial).count s) (e.flows.erase flow) := by
      refine Map.total_congr fun id => ?_
      rw [Map.get_erase, Map.get_erase]
      split
      · rfl
      · next hne =>
        have hqueue := congrArg (Option.map fun x : List Firing × Mode =>
          (x.1.map Firing.serial).count s) (hflows id (Ne.symm hne))
        rw [Option.map_map, Option.map_map] at hqueue
        exact hqueue
    have hcount : ∀ e : Engine, ((e.flows[flow]?).map fun loaded =>
        (loaded.queue.map Firing.serial).count s).getD 0 = (queueOf e flow).count s := by
      intro e
      unfold queueOf
      cases e.flows[flow]? <;> rfl
    rw [hcount] at hthere hhere
    rw [hqueueNil, List.count_nil] at hhere
    rw [hstarted, hdropped, hdiscarded, hhanded, List.count_append]
    unfold queuedCount at hplaces ⊢
    omega
  · intro other loaded' hloaded'
    by_cases hother : other = flow
    · subst hother
      rw [hnone, hempty loaded' hloaded']
      exact within_zero _
    · obtain ⟨loaded, hloaded, hqueue, hmode⟩ :
          ∃ loaded : Loaded, e.flows[other]? = some loaded ∧ loaded.queue = loaded'.queue ∧
            loaded.flow.mode = loaded'.flow.mode := by
        have hpart := hflows other hother
        rw [hloaded', Option.map_some] at hpart
        obtain ⟨loaded, hold, hsame⟩ := Option.map_eq_some_iff.mp hpart.symm
        exact ⟨loaded, hold, (Prod.mk.inj hsame).1, (Prod.mk.inj hsame).2⟩
      rw [runsOf_length_congr (hrunsOf other hother), ← hqueue, ← hmode]
      exact h.within hloaded
  · intro hH other loaded' _ hloaded' hne
    by_cases hother : other = flow
    · subst hother
      exact absurd (hempty loaded' hloaded') hne
    · have hpart := hflows other hother
      rw [hloaded', Option.map_some] at hpart
      obtain ⟨loaded, hold, hsame⟩ := Option.map_eq_some_iff.mp hpart.symm
      obtain ⟨id, hid⟩ := List.exists_mem_of_ne_nil _ (h.busy hH (by simp) hold
        (by rw [(Prod.mk.inj hsame).1]; exact hne))
      exact List.ne_nil_of_mem ((hrunsOf other hother id).mpr hid)
  · intro hH other
    rw [startedOf_congr hstarted]
    by_cases hother : other = flow
    · rw [hother, hqueueNil, List.append_nil]
      exact (List.pairwise_append.mp (h.fifo hH flow)).1
    · rw [queueOf_congr (hflows other hother)]
      exact h.fifo hH other
  · intro other s hs
    rw [startedOf_congr hstarted] at hs
    by_cases hother : other = flow
    · rw [hother, hqueueNil, List.append_nil] at hs
      exact h.below flow s (List.mem_append_left _ hs)
    · rw [queueOf_congr (hflows other hother)] at hs
      exact h.below other s hs

/-! ### Firings -/

lemma Kept.rebase (h : Kept env H n hand hole e) : Kept env H e.ledger.handed hand hole e :=
  { h with
    below := fun flow s hs => by
      have hplaces := h.places s
      have hpos : 0 < (e.ledger.started.map (·.1)).count s + queuedCount e s := by
        rcases List.mem_append.mp hs with hs | hs
        · have hstarted : s ∈ e.ledger.started.map (·.1) :=
            List.map_subset _ (List.filter_subset_self _) hs
          have := List.count_pos_iff.mpr hstarted
          omega
        · have htotal := Map.total_erase
            (fun loaded => (loaded.queue.map Firing.serial).count s) e.flows flow
          unfold queueOf at hs
          cases hloaded : e.flows[flow]? with
          | none => simp [hloaded] at hs
          | some loaded =>
            rw [hloaded] at hs htotal
            have := List.count_pos_iff.mpr hs
            unfold queuedCount
            simp only [Option.map_some, Option.getD_some] at htotal this
            omega
      split at hplaces <;> omega }

lemma Kept.drop {firing : Firing} (h : Kept env H n [firing.serial] none e) (flow : RuleId)
    (why : String) (now : Timestamp) {n' : Nat} (hn : n ≤ n') :
    Kept env H n' [] none (e.drop flow firing why now) := by
  obtain ⟨miss, hkind, hmiss⟩ : ∃ miss : NearMiss, miss.kind = .dropped ∧
      (e.drop flow firing why now).effects = e.effects ++ [.nearMiss miss] := ⟨_, rfl, rfl⟩
  have hdropped : (e.drop flow firing why now).ledger.dropped =
      e.ledger.dropped ++ [firing.serial] := rfl
  have hgiven : (e.drop flow firing why now).ledger.taken ++ (e.drop flow firing why now).effects =
      e.ledger.taken ++ e.effects ++ [.nearMiss miss] := by
    rw [hmiss, List.append_assoc]
    rfl
  have hended : endedIds (e.drop flow firing why now) = endedIds e := by
    rw [records_append hgiven]
    exact List.append_nil _
  refine ⟨h.runIds, h.minted, h.once, fun id => hended ▸ h.known id, hended ▸ h.endedOnce,
    fun id hid => hended ▸ h.gone id hid, ?_, ?_, fun s => ?_, h.within, h.busy, h.fifo,
    fun flow s hs => (h.below flow s hs).trans_le hn⟩
  · rw [hgiven, List.pairwise_append]
    refine ⟨h.silent, List.pairwise_singleton _ _, ?_⟩
    rintro before - after hafter ⟨record, -, _, _, _, _, _, hcall⟩
    rw [List.mem_singleton.mp hafter] at hcall
    cases hcall
  · rw [hgiven, List.countP_append, h.misses, hdropped, List.length_append]
    simp [isDropped, hkind]
  · have hplaces := h.places s
    rw [hdropped, List.count_append]
    exact (by omega : ∀ {a b c d f g : Nat}, a + b + c + d + f = g → a + (b + f) + c + d + 0 = g)
      hplaces

lemma Kept.superseded (h : Kept env H n hand none e)
    (hqueue : ∀ loaded : Loaded, e.flows[flow]? = some loaded → loaded.queue = []) (now : Timestamp) :
    Kept env H n hand none (e.finishAll env (e.runsOf flow) .superseded now) ∧
      (e.finishAll env (e.runsOf flow) .superseded now).runsOf flow = [] ∧
      (e.finishAll env (e.runsOf flow) .superseded now).flows = e.flows ∧
      (e.finishAll env (e.runsOf flow) .superseded now).minted = e.minted := by
  obtain ⟨runs, ready, heq, hruns, -⟩ := finishAll_plain env .superseded now (e.runsOf flow) e
    (nodup_runsOf e flow)
    (fun id hid => by obtain ⟨run, hrun, -⟩ := mem_runsOf.mp hid; rw [hrun]; rfl)
    fun id hid => .inr fun run hrun => by
      obtain ⟨run', hrun', hflow⟩ := mem_runsOf.mp hid
      rw [hrun, Option.some.injEq] at hrun'
      rw [hrun', hflow]
      exact hqueue
  have hleft := fun id => (hruns id).trans (runs_left e flow id)
  have hnone : queueOf e flow = [] := by
    unfold queueOf
    cases hloaded : e.flows[flow]? with
    | none => rfl
    | some loaded => rw [Option.map_some, hqueue loaded hloaded]; rfl
  rw [heq]
  exact ⟨h.cut hleft (fun _ _ => rfl) hqueue rfl (List.append_assoc _ _ _).symm
    ⟨rfl, rfl, rfl, by rw [hnone, List.append_nil]⟩, runsOf_left hleft, rfl, rfl⟩

lemma Kept.beginNow (hids : FreshIds env N) (hN : e.minted < N) {firing : Firing}
    (h : Kept env H firing.serial [firing.serial] none e) (hflow : e.flows[flow]? = some loaded)
    (room : Within loaded.flow.mode ((e.runsOf flow).length + 1) loaded.queue.length)
    (hqueue : ¬ H → loaded.queue = []) (now : Timestamp) :
    Kept env H (firing.serial + 1) [] none (e.startRun env flow firing now).2 := by
  refine h.begin hids hN (.inl rfl) hflow room
    (fun _ s hs => h.below flow s (List.mem_append_left _ hs)) (fun hH s hs => ?_) (Nat.le_succ _)
    (Nat.lt_succ_self _) now
  rw [queueOf_some hflow, hqueue hH] at hs
  cases hs

lemma Kept.byMode (hids : FreshIds env N) (firing : Firing)
    (h : Kept env H firing.serial [firing.serial] none e) (hflow : e.flows[flow]? = some loaded)
    (now : Timestamp) (hN : (e.byMode env flow loaded firing now).2.minted ≤ N) :
    Kept env H (firing.serial + 1) [] none (e.byMode env flow loaded firing now).2 := by
  have hwithin := h.within hflow
  unfold Engine.byMode at hN ⊢
  dsimp only at hN ⊢
  split
  · next hmode =>
    simp only [hmode] at hN hwithin
    obtain ⟨-, hwaiting⟩ := hwithin
    split
    · exact h.drop _ _ _ (Nat.le_succ _)
    · next hrunning =>
      rw [if_neg hrunning, startRun_minted hflow] at hN
      have hnone : e.runsOf flow = [] := by simpa using hrunning
      refine h.beginNow hids hN hflow ?_ (fun _ => List.eq_nil_of_length_eq_zero hwaiting) now
      rw [hmode, hnone, hwaiting]
      exact ⟨le_rfl, rfl⟩
  · next hmode =>
    simp only [hmode] at hN hwithin
    obtain ⟨-, hwaiting⟩ := hwithin
    have hqueue := List.eq_nil_of_length_eq_zero hwaiting
    have hempty : ∀ other : Loaded, e.flows[flow]? = some other → other.queue = [] := by
      intro other hother
      rw [hflow, Option.some.injEq] at hother
      exact hother ▸ hqueue
    obtain ⟨hkept, hnone, hflows, hminted⟩ := h.superseded hempty now
    rw [← hflows] at hflow
    rw [startRun_minted hflow, hminted] at hN
    refine hkept.beginNow hids (hminted ▸ hN) hflow ?_ (fun _ => hqueue) now
    rw [hmode, hnone, hwaiting]
    exact ⟨le_rfl, rfl⟩
  · next max hmode =>
    simp only [hmode] at hN hwithin
    obtain ⟨hrunning, hwaiting⟩ := hwithin
    split
    · next hgoing =>
      have hne : e.runsOf flow ≠ [] := by simpa using hgoing
      split
      · next hroom =>
        refine h.requeue (.inl rfl) hflow (fun s => ?_) ?_ (fun _ _ _ => hne) (fun hH => ?_)
          (Nat.le_succ _) fun s hs => ?_
        · rw [List.map_append, List.count_append, List.count_nil, Nat.zero_add, List.map_singleton]
          exact Nat.add_comm _ _
        · rw [hmode, List.length_append]
          exact ⟨hrunning, hroom⟩
        · have hfifo := h.fifo hH flow
          rw [queueOf_some hflow] at hfifo
          rw [List.map_append, ← List.append_assoc, List.pairwise_append]
          refine ⟨hfifo, List.pairwise_singleton _ _, fun s hs other hother => ?_⟩
          rw [List.map_singleton, List.mem_singleton] at hother
          rw [hother]
          exact h.below flow s (queueOf_some hflow ▸ hs)
        · rw [List.map_append, List.mem_append, List.map_singleton, List.mem_singleton] at hs
          rcases hs with hs | rfl
          · have := h.below flow s (List.mem_append_right _ (queueOf_some hflow ▸ hs))
            omega
          · exact Nat.lt_succ_self _
      · exact h.drop _ _ _ (Nat.le_succ _)
    · next hgoing =>
      rw [if_neg hgoing, startRun_minted hflow] at hN
      have hnone : e.runsOf flow = [] := by simpa using hgoing
      refine h.beginNow hids hN hflow ?_ (fun hH => ?_) now
      · rw [hmode, hnone]
        exact ⟨le_rfl, hwaiting⟩
      · by_contra hne
        exact h.busy hH (by simp) hflow hne hnone
  · next max hmode =>
    simp only [hmode] at hN hwithin
    obtain ⟨-, hwaiting⟩ := hwithin
    split
    · exact h.drop _ _ _ (Nat.le_succ _)
    · next hroom =>
      rw [if_neg hroom, startRun_minted hflow] at hN
      refine h.beginNow hids hN hflow ?_ (fun _ => List.eq_nil_of_length_eq_zero hwaiting) now
      rw [hmode]
      exact ⟨by omega, hwaiting⟩

lemma Kept.fireNow (hids : FreshIds env N) (h : Kept env H e.ledger.handed [] none e)
    (flow : RuleId) (firing : Firing) (now : Timestamp)
    (hN : (e.fireNow env flow firing now).2.minted ≤ N) :
    Kept env H (e.fireNow env flow firing now).2.ledger.handed [] none
      (e.fireNow env flow firing now).2 := by
  unfold Engine.fireNow at hN ⊢
  split
  · exact h
  next loaded hflow =>
  simp only [hflow] at hN
  have hhanded : Kept env H e.ledger.handed [e.ledger.handed] none
      { e with ledger := { e.ledger with handed := e.ledger.handed + 1 } } :=
    { h with
      places := fun s => by
        have hplaces := h.places s
        have hhanded : (if s < e.ledger.handed + 1 then 1 else 0) =
            (if s < e.ledger.handed then 1 else 0) + [e.ledger.handed].count s := by
          rw [List.count_singleton]
          split_ifs <;> simp_all <;> omega
        rw [hhanded, ← hplaces]
        rfl }
  exact (Kept.byMode hids { firing with serial := e.ledger.handed } hhanded hflow now hN).rebase

/-! ### A new set of flows -/

/-- Firings are kept with the flows gathered so far of a new set beside what is left of the old. -/
structure Gathers (env : Env) (A : Arm → Prop) (H : Prop) (n : Nat) (next : Map RuleId Loaded)
    (e : Engine) : Prop where
  gathered : Gathered next e
  known : ∀ {flow : RuleId} {loaded : Loaded}, e.flows[flow]? = some loaded → Known env A flow loaded
  kept : ∃ flows : Map RuleId Loaded,
    (∀ id : RuleId, flows[id]? = (next[id]?).or e.flows[id]?) ∧
      Kept env H n [] none { e with flows }

variable {A : Arm → Prop} {next : Map RuleId Loaded}

lemma mode_of_kept (hnumbers : NumberTexts env.showNumber) (hhash : Collisionless env A)
    {a : Arm} (ha : A a) {old : Loaded} (hold : Known env A a.flow.id old)
    (hversion : old.version = a.flow.version env) : old.flow.mode = a.flow.mode := by
  obtain ⟨b, hb, hflow, -, hsame⟩ := hold
  rw [hflow]
  exact sameMode hnumbers (hhash b a hb ha (hsame.symm.trans hversion))

lemma Gathers.arm (hnumbers : NumberTexts env.showNumber) (hhash : Collisionless env A)
    (h : Gathers env A H n next e) {a : Arm} (ha : A a) (now : Timestamp) :
    Gathers env A H n (Engine.arm env now next e a).1 (Engine.arm env now next e a).2 := by
  obtain ⟨flows, hflows, hkept⟩ := h.kept
  refine ⟨h.gathered.arm a now, fun {flow loaded} hloaded => ?_, ?_⟩
  · cases hkeeps : keptOf env e a with
    | some old =>
      rw [arm_kept hkeeps, Map.get_erase] at hloaded
      split at hloaded
      · cases hloaded
      · exact h.known hloaded
    | none =>
      obtain ⟨runs, ready, left, heq, -, hleft⟩ := arm_cut next hkeeps now
      rw [heq] at hloaded
      dsimp only at hloaded
      rw [hleft] at hloaded
      split at hloaded
      · cases hloaded
      · exact h.known hloaded
  cases hkeeps : keptOf env e a with
  | some old =>
    obtain ⟨hold, hversion, -, -⟩ := keptOf_eq_some hkeeps
    have hmode := mode_of_kept hnumbers hhash ha (h.known hold) hversion
    have hnew : next[a.flow.id]? = none := by
      by_contra hsome
      rw [h.gathered.apart (Option.isSome_iff_ne_none.mpr hsome)] at hold
      cases hold
    rw [arm_kept hkeeps]
    refine ⟨flows.insert a.flow.id ⟨a.flow, a.flow.version env, Engine.armedOf a, old.holds,
      old.queue⟩, fun id => ?_, ?_⟩
    · rw [Map.get_insert, Map.get_insert, Map.get_erase]
      split
      · rfl
      · exact hflows id
    · refine hkept.same (fun _ => rfl) (fun id => ?_) le_rfl ⟨rfl, rfl, rfl, rfl⟩ []
        (List.append_nil _).symm (by simp)
      dsimp only
      rw [Map.get_insert]
      split
      · next hid =>
        rw [← hid, hflows, hnew, hold]
        exact congrArg (fun mode => some (old.queue, mode)) hmode.symm
      · rfl
  | none =>
    obtain ⟨runs, ready, left, heq, hruns, hleft⟩ := arm_cut next hkeeps now
    rw [heq]
    refine ⟨flows.insert a.flow.id ⟨a.flow, a.flow.version env, Engine.armedOf a, ∅, []⟩,
      fun id => ?_, ?_⟩
    · dsimp only
      rw [Map.get_insert, Map.get_insert, hleft]
      split
      · rfl
      · exact hflows id
    · refine hkept.cut hruns (fun id hid => ?_) (fun loaded hloaded => ?_) rfl
        (List.append_assoc _ _ _).symm ⟨rfl, rfl, rfl, ?_⟩
      · dsimp only
        rw [Map.get_insert, if_neg (Ne.symm hid)]
      · dsimp only at hloaded
        rw [Map.get_insert, if_pos rfl, Option.some.injEq] at hloaded
        rw [← hloaded]
      · unfold queueOf
        dsimp only
        rw [hflows]
        cases hnew : next[a.flow.id]? with
        | none => simp
        | some loaded => simp [h.gathered.apart (by rw [hnew]; rfl)]

lemma Gathers.arms (hnumbers : NumberTexts env.showNumber) (hhash : Collisionless env A)
    (arms : List Arm) (harms : ∀ a ∈ arms, A a) (now : Timestamp) :
    ∀ {next : Map RuleId Loaded} {e : Engine}, Gathers env A H n next e →
    Gathers env A H n (arms.foldl (fun (next, e) a => Engine.arm env now next e a) (next, e)).1
      (arms.foldl (fun (next, e) a => Engine.arm env now next e a) (next, e)).2 := by
  induction arms with
  | nil => exact fun h => h
  | cons a arms ih =>
    exact fun h => ih (fun b hb => harms b (List.mem_cons_of_mem _ hb))
      (h.arm hnumbers hhash (harms a List.mem_cons_self) now)

lemma Kept.abortAll (now : Timestamp) (ids : List RuleId) : ∀ {e : Engine}
    {flows : Map RuleId Loaded}, ids.Nodup → (∀ id ∈ ids, next[id]? = none) →
    (∀ id : RuleId, flows[id]? = (next[id]?).or (if id ∈ ids then e.flows[id]? else none)) →
    Kept env H n [] none { e with flows } →
    Kept env H n [] none
      { ids.foldl (fun e id => e.abortFlow env id .removed now) e with flows := next } := by
  induction ids with
  | nil =>
    intro e flows _ _ hflows h
    refine h.same (fun _ => rfl) (fun id => ?_) le_rfl ⟨rfl, rfl, rfl, rfl⟩ []
      (List.append_nil _).symm (by simp)
    dsimp only
    rw [hflows]
    cases next[id]? <;> rfl
  | cons flow ids ih =>
    intro e flows hnodup hnew hflows h
    rw [List.nodup_cons] at hnodup
    obtain ⟨runs, ready, left, heq, hruns, hleft⟩ := abortFlow_eq env e flow
      (by simp : AbortReason.removed ≠ .cancelled) now
    rw [List.foldl_cons, heq]
    refine @ih _ (flows.erase flow) hnodup.2
      (fun id hid => hnew id (List.mem_cons_of_mem _ hid)) (fun id => ?_) ?_
    · dsimp only
      rw [Map.get_erase, hflows, hleft]
      by_cases hid : flow = id
      · subst hid
        rw [if_pos rfl, hnew flow List.mem_cons_self, if_neg hnodup.1]
        rfl
      · simp [hid, Ne.symm hid]
    · refine h.cut hruns (fun id hid => ?_) (fun loaded hloaded => ?_) rfl
        (List.append_assoc _ _ _).symm ⟨rfl, rfl, rfl, ?_⟩
      · dsimp only
        rw [Map.get_erase, if_neg (Ne.symm hid)]
      · dsimp only at hloaded
        rw [Map.get_erase, if_pos rfl] at hloaded
        cases hloaded
      · unfold queueOf
        dsimp only
        rw [hflows, hnew flow List.mem_cons_self, if_pos List.mem_cons_self]
        rfl

lemma Kept.replaceFlows (hnumbers : NumberTexts env.showNumber) (hhash : Collisionless env A)
    (hsound : Sound env A e) (h : Kept env H n [] none e) {arms : List Arm} (harms : ∀ a ∈ arms, A a)
    (now : Timestamp) : Kept env H n [] none (e.replaceFlows env arms now) := by
  have hstart : Gathers env A H n ∅ e :=
    ⟨⟨by simp, fun hrun => by simpa using hsound.tidy.runs hrun,
      fun hloaded => hsound.tidy.idle (by simpa using hloaded)⟩, hsound.sane.loaded,
      e.flows, by simp, h⟩
  have hgathers := hstart.arms hnumbers hhash arms harms now
  unfold Engine.replaceFlows
  dsimp only
  generalize arms.foldl (fun (next, e) a => Engine.arm env now next e a) (∅, e) = gathered
    at hgathers ⊢
  obtain ⟨flows, hflows, hkept⟩ := hgathers.kept
  obtain ⟨timers, nextTimer, hwound⟩ := windClocks_eq env
    { gathered.2.flows.keys.foldl (fun e flow => e.abortFlow env flow .removed now) gathered.2 with
      flows := gathered.1 } now
  rw [hwound]
  have hnodup : gathered.2.flows.keys.Nodup :=
    (Std.ExtTreeMap.distinct_keys (t := gathered.2.flows)).imp fun hne => by simpa using hne
  have hin : ∀ id : RuleId, id ∈ gathered.2.flows.keys ↔ (gathered.2.flows[id]?).isSome := by
    intro id
    rw [Std.ExtTreeMap.mem_keys, Std.ExtTreeMap.mem_iff_isSome_getElem?]
  have hnew : ∀ id ∈ gathered.2.flows.keys, gathered.1[id]? = none := by
    intro id hid
    by_contra hsome
    rw [hin, hgathers.gathered.apart (Option.isSome_iff_ne_none.mpr hsome)] at hid
    cases hid
  have haborted := hkept.abortAll now gathered.2.flows.keys hnodup hnew fun id => by
    rw [hflows]
    split
    · rfl
    · next hnot =>
      rw [hin, Option.not_isSome_iff_eq_none] at hnot
      rw [hnot]
  exact haborted.same (fun _ => rfl) (fun _ => rfl) le_rfl ⟨rfl, rfl, rfl, rfl⟩ []
    (List.append_nil _).symm (by simp)

/-! ### What no firing does -/

/-- No fewer run ids were asked for, and no firing was thrown away. -/
def ThrowsNone (e e' : Engine) : Prop :=
  e.minted ≤ e'.minted ∧ e'.ledger.discarded = e.ledger.discarded

lemma throwsNone_startRun (e : Engine) (flow : RuleId) (firing : Firing) (now : Timestamp) :
    ThrowsNone e (e.startRun env flow firing now).2 := by
  cases hflow : e.flows[flow]? with
  | none =>
    rw [startRun_of_none env hflow]
    exact ⟨Nat.le_succ _, rfl⟩
  | some loaded =>
    refine ⟨(startRun_minted hflow firing now).symm ▸ Nat.le_succ _, ?_⟩
    rw [startRun_eq env hflow, settle_ledger]
    rfl

lemma endures_throwsNone (env : Env) : Endures env ThrowsNone where
  refl _ := ⟨le_rfl, rfl⟩
  trans h h' := ⟨h.1.trans h'.1, h'.2.trans h.2⟩
  startRun := throwsNone_startRun
  afterRun _ _ _ _ _ := ⟨le_rfl, rfl⟩
  queue _ _ := ⟨le_rfl, rfl⟩
  drop _ _ _ _ _ := ⟨le_rfl, rfl⟩
  handed _ _ := ⟨le_rfl, rfl⟩

lemma minted_replaceFlows (e : Engine) (arms : List Arm) (now : Timestamp) :
    (e.replaceFlows env arms now).minted = e.minted := by
  have harm : ∀ (next : Map RuleId Loaded) (e : Engine) (a : Arm),
      (Engine.arm env now next e a).2.minted = e.minted := by
    intro next e a
    cases hkeeps : keptOf env e a with
    | some old => rw [arm_kept hkeeps]
    | none =>
      obtain ⟨_, _, _, heq, -⟩ := arm_cut next hkeeps now
      rw [heq]
  have harms : ∀ (arms : List Arm) (next : Map RuleId Loaded) (e : Engine),
      (arms.foldl (fun (next, e) a => Engine.arm env now next e a) (next, e)).2.minted =
        e.minted := by
    intro arms
    induction arms with
    | nil => exact fun _ _ => rfl
    | cons a arms ih => exact fun next e => (ih _ _).trans (harm next e a)
  have hleft : ∀ (ids : List RuleId) (e : Engine),
      (ids.foldl (fun e flow => e.abortFlow env flow .removed now) e).minted = e.minted := by
    intro ids
    induction ids with
    | nil => exact fun _ => rfl
    | cons flow ids ih =>
      intro e
      obtain ⟨_, _, _, heq, -⟩ := abortFlow_eq env e flow
        (by simp : AbortReason.removed ≠ .cancelled) now
      have hsame : (e.abortFlow env flow .removed now).minted = e.minted := by rw [heq]
      exact (ih _).trans hsame
  unfold Engine.replaceFlows
  obtain ⟨_, _, hwound⟩ := windClocks_eq env { (arms.foldl (fun (next, e) a =>
    Engine.arm env now next e a) (∅, e)).2.flows.keys.foldl (fun e flow =>
      e.abortFlow env flow .removed now) (arms.foldl (fun (next, e) a =>
        Engine.arm env now next e a) (∅, e)).2 with
    flows := (arms.foldl (fun (next, e) a => Engine.arm env now next e a) (∅, e)).1 } now
  exact (congrArg Engine.minted hwound).trans ((hleft _ _).trans (harms arms ∅ e))

lemma throwsNone_turn (ht : Turn env A H now e e') :
    ThrowsNone e e' ∨ ∃ arms : List Arm, e' = e.replaceFlows env arms now := by
  cases ht with
  | quiet hq =>
    obtain ⟨bare, stillborn, overtaken, hledger⟩ := hq.ledger
    exact .inl ⟨hq.minted.ge, by rw [hledger]⟩
  | move going goes => exact .inl ⟨by rw [settle_minted], by rw [settle_ledger]⟩
  | step first going settles => exact .inl ⟨by rw [settle_minted], by rw [settle_ledger]⟩
  | stale first ended => exact .inl ⟨le_rfl, rfl⟩
  | finish going ends lets => exact .inl ((endures_throwsNone env).finish e _ _ now)
  | halt stops going => exact .inl ((endures_throwsNone env).finish e _ _ now)
  | fire firing armed => exact .inl ((endures_throwsNone env).fireNow e _ firing now)
  | @replace arms known => exact .inr ⟨arms, rfl⟩
  | take => exact .inl ⟨le_rfl, rfl⟩

lemma minted_turn (ht : Turn env A H now e e') : e.minted ≤ e'.minted := by
  rcases throwsNone_turn ht with hspares | ⟨arms, rfl⟩
  · exact hspares.1
  · rw [minted_replaceFlows]

/-! ### Turns -/

theorem kept_turn (hids : FreshIds env N) (hnumbers : NumberTexts env.showNumber)
    (hhash : Collisionless env A) (hsound : Sound env A e)
    (h : Kept env H e.ledger.handed [] none e) (ht : Turn env A H now e e') (hN : e'.minted ≤ N) :
    Kept env H e'.ledger.handed [] none e' := by
  cases ht with
  | quiet hq => exact (h.quiet hq).rebase
  | @move id run m going goes =>
    exact (h.settle going (goes_header goes).1 (goes_effects goes) e.ready).rebase
  | step first going settles =>
    exact (h.settle going (goes_header settles.1).1 (goes_effects settles.1) _).rebase
  | stale first ended =>
    exact (h.same (fun _ => rfl) (fun _ => rfl) le_rfl ⟨rfl, rfl, rfl, rfl⟩ []
      (List.append_nil _).symm (by simp))
  | finish going ends lets => exact (h.finish hids going (.inl lets) now hN).rebase
  | halt stops going => exact (h.finish hids going (.inr stops) now hN).rebase
  | fire firing armed => exact h.fireNow hids _ firing now hN
  | replace known => exact (h.replaceFlows hnumbers hhash hsound known now).rebase
  | take =>
    exact (h.same (fun _ => rfl) (fun _ => rfl) le_rfl ⟨rfl, rfl, rfl, rfl⟩ []
      (by simp [Engine.takeEffects]) (by simp))

theorem kept_turns (hids : FreshIds env N) (hnumbers : NumberTexts env.showNumber)
    (hhash : Collisionless env A) (hsound : Sound env A e)
    (h : Kept env H e.ledger.handed [] none e) (ht : Turns env A H e e') (hN : e'.minted ≤ N) :
    Kept env H e'.ledger.handed [] none e' := by
  unfold Turns at ht
  induction ht with
  | refl => exact h
  | tail hbefore hlast ih =>
    obtain ⟨now, hlast⟩ := hlast
    exact kept_turn hids hnumbers hhash (sound_turns hbefore hsound)
      (ih ((minted_turn hlast).trans hN)) hlast hN

end

lemma kept_new (env : Env) (H : Prop) (dry : Bool) :
    Kept env H (Engine.new dry).ledger.handed [] none (Engine.new dry) := by
  constructor <;>
    simp [Engine.new, Ledger.empty, endedIds, Engine.records, queuedCount, Map.total_eq_sum,
      startedOf, queueOf]

theorem kept_reaches {env : Env} {ops : List Op} {e : Engine} (hids : FreshIds env e.minted)
    (hnumbers : NumberTexts env.showNumber) (hhash : Collisionless env (ArmedBy ops))
    (h : Reaches env ops e) :
    Kept env (∃ op ∈ ops, op.isShutdown = true) e.ledger.handed [] none e := by
  obtain ⟨dry, hturns⟩ := @reaches_turns env (ArmedBy ops) (∃ op ∈ ops, op.isShutdown = true) e ops h
    (fun _ harm => harm) fun op hop hstops => ⟨op, hop, hstops⟩
  exact kept_turns hids hnumbers hhash (sound_new dry) (kept_new env _ dry) hturns le_rfl

/-! ### What is promised -/

/-- The modes of the flows are kept to in every state, where the engine wasn't stopped, and what waits
waits for a run that is going. -/
theorem modes_kept {env : Env} {ops : List Op} {e : Engine} (hids : FreshIds env e.minted)
    (hnumbers : NumberTexts env.showNumber) (hhash : Collisionless env (ArmedBy ops))
    (h : Reaches env ops e) (hgoing : ∀ op ∈ ops, op.isShutdown = false) {flow : RuleId}
    {loaded : Loaded} (hflow : e.flows[flow]? = some loaded) :
    Within loaded.flow.mode (e.runsOf flow).length loaded.queue.length ∧
      (loaded.queue ≠ [] → e.runsOf flow ≠ []) := by
  have hkept := kept_reaches hids hnumbers hhash h
  refine ⟨hkept.within hflow, hkept.busy ?_ (by simp) hflow⟩
  rintro ⟨op, hop, hstops⟩
  rw [hgoing op hop] at hstops
  cases hstops

def hesitant (mode : Mode) : Flow :=
  Sample.flow mode
    [(Sample.started, .trigger .startup), (Sample.dark, .delay ⟨"1m", Sample.minute_parses⟩)]
    [Sample.wire Sample.started .out Sample.dark]

/-- It is fired twice, and is to run one after the other. -/
def hesitates : List Op :=
  [.setFlows [⟨hesitant (.limited (.queued 1)), []⟩] 0,
    .fire (hesitant (.named .single)).id Sample.started none none 0,
    .fire (hesitant (.named .single)).id Sample.started none none 0]

lemma freshIds_plainEnv (known : List (String × Expr)) : FreshIds (plainEnv known) 31 := by
  have hlast : ∀ (millis random : Nat), (ulid millis random).text.toList.getLast? =
      some (crockford.getD (random % 32) '0') := by
    intro millis random
    have hdigit : (millis % 2 ^ 48 * 2 ^ 80 + random % 2 ^ 80) / 32 ^ 0 % 32 = random % 32 := by
      omega
    rw [← hdigit]
    exact congrArg List.getLast? (String.toList_ofList)
  have hdigits : ∀ m < 32, ∀ n < 32, crockford.getD m '0' = crockford.getD n '0' → m = n := by
    decide
  intro m n at_ now hm hn hsame
  have htexts := congrArg (fun id : ContextId => id.text.toList.getLast?) hsame
  have hchars := Option.some.inj ((hlast _ _).symm.trans (htexts.trans (hlast _ _)))
  have := hdigits _ (Nat.mod_lt _ (by decide)) _ (Nat.mod_lt _ (by decide)) hchars
  omega

lemma collisionless_hesitates : Collisionless (plainEnv []) (ArmedBy ([] ++ hesitates)) := by
  rintro a b ⟨arms, now, hset, ha⟩ ⟨arms', now', hset', hb⟩ -
  simp only [hesitates, List.nil_append, List.mem_cons, Op.setFlows.injEq, reduceCtorEq,
    List.not_mem_nil, or_false] at hset hset'
  rw [hset.1, List.mem_singleton] at ha
  rw [hset'.1, List.mem_singleton] at hb
  rw [ha, hb]

lemma hesitates_reaches {P : Engine → Bool}
    (h : ((Op.performAll (plainEnv []) 9 hesitates (Engine.new false)).any P) = true) :
    ∃ e : Engine, Reaches (plainEnv []) ([] ++ hesitates) e ∧ P e = true := by
  obtain ⟨e, he, hP⟩ := (Option.any_eq_true _ _).mp h
  exact ⟨e, reaches_performAll hesitates (.new false) he, hP⟩

def halting (e : Engine) : Bool :=
  (e.minted ≤ 31 : Bool) && (e.flows[(hesitant (.named .single)).id]?).any fun loaded : Loaded =>
    loaded.queue.length = 1 && decide (loaded.flow.mode = .limited (.queued 1))

theorem modes_kept_hesitant : ∃ (e : Engine) (loaded : Loaded), loaded.queue.length = 1 ∧
    loaded.flow.mode = .limited (.queued 1) ∧
      Within loaded.flow.mode (e.runsOf (hesitant (.named .single)).id).length loaded.queue.length ∧
      (loaded.queue ≠ [] → e.runsOf (hesitant (.named .single)).id ≠ []) := by
  obtain ⟨e, hreaches, hhalting⟩ := @hesitates_reaches halting (by decide)
  rw [halting, Bool.and_eq_true, decide_eq_true_eq] at hhalting
  obtain ⟨loaded, hloaded, hsaid⟩ := (Option.any_eq_true _ _).mp hhalting.2
  rw [Bool.and_eq_true, decide_eq_true_eq, decide_eq_true_eq] at hsaid
  exact ⟨e, loaded, hsaid.1, hsaid.2, modes_kept
    (fun m n at_ now hm hn => freshIds_plainEnv [] m n at_ now (hm.trans_le hhalting.1)
      (hn.trans_le hhalting.1)) numberTexts_numberText collisionless_hesitates hreaches
    (by decide) hloaded⟩

/-- No firing is lost and none counts twice; what each comes to, and what comes of a run. -/
structure NoneLost (env : Env) (ops : List Op) (e : Engine) : Prop where
  /-- Each firing handed over became a run, was refused, was thrown away or waits, and is only one
  of these. -/
  places : ∀ s : Nat, (e.ledger.started.map (·.1)).count s + e.ledger.dropped.count s +
    e.ledger.discarded.count s + queuedCount e s = if s < e.ledger.handed then 1 else 0
  misses : (e.ledger.taken ++ e.effects).countP isDropped = e.ledger.dropped.length
  inTurn : (∀ op ∈ ops, op.isShutdown = false) → ∀ flow : RuleId,
    (startedOf e flow ++ queueOf e flow).Pairwise (· < ·)
  /-- Only another set of flows throws firings away, and none of a flow that stays. -/
  thrown : ∀ (A : Arm → Prop) (now : Timestamp) (e' : Engine), Turn env A True now e e' →
    e'.ledger.discarded = e.ledger.discarded ∨ ∃ arms : List Arm, e' = e.replaceFlows env arms now
  spared : ∀ (arms : List Arm) (now : Timestamp), (arms.map (·.flow.id)).Nodup →
    ∀ flow : RuleId, Stays env arms e flow → queueOf (e.replaceFlows env arms now) flow = queueOf e flow
  once : (e.ledger.started.map (·.2.2)).Nodup
  ended : ∀ id ∈ e.ledger.started.map (·.2.2),
    (endedIds e).count id = if (e.runs[id]?).isSome then 0 else 1
  ofStarted : ∀ id ∈ endedIds e, id ∈ e.ledger.started.map (·.2.2)
  silent : (e.ledger.taken ++ e.effects).Pairwise fun before after => ¬ Late before after

end Irori.Proofs
