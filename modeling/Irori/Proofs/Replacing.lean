import Irori.Proofs.Ops
import Irori.Sample

/-!
# What a new set of flows keeps

A flow that is the same still, and armed before and after, keeps its runs, its holds and its queue.
The runs of every other flow are aborted, each for the reason its flow gives, and none starts in
their place.
-/

namespace Irori.Proofs

open Irori

def Stays (env : Env) (arms : List Arm) (e : Engine) (id : RuleId) : Prop :=
  ∃ a ∈ arms, a.flow.id = id ∧ Engine.armedOf a = .armed ∧
    ∃ old : Loaded, e.flows[id]? = some old ∧ old.armed = .armed ∧ old.version = a.flow.version env

/-- Why the runs of a flow that doesn't stay are aborted: it was turned off, it was changed or has an
error now, or it was removed. -/
def cutReason (arms : List Arm) (id : RuleId) : AbortReason :=
  match arms.find? fun a => a.flow.id = id with
  | some a => if a.flow.enabled then .changed else .disabled
  | none => .removed

/-- What a new set of flows, with the engine as `e` at `now`, makes of the engine. -/
structure Replaced (env : Env) (arms : List Arm) (now : Timestamp) (e e' : Engine) : Prop where
  flows : ∀ (id : RuleId) (loaded : Loaded), e'.flows[id]? = some loaded →
    ∃ a ∈ arms, a.flow = loaded.flow ∧ a.flow.id = id
  kept : ∀ id : RuleId, Stays env arms e id → ∃ old new : Loaded, e.flows[id]? = some old ∧
    e'.flows[id]? = some new ∧ new.armed = .armed ∧ new.version = old.version ∧
      new.holds = old.holds ∧ new.queue = old.queue
  runs : ∀ (id : ContextId) (run : Run), e'.runs[id]? = some run ↔
    e.runs[id]? = some run ∧ Stays env arms e run.record.flowId
  cut : ∀ (id : ContextId) (run : Run), e.runs[id]? = some run →
    ¬ Stays env arms e run.record.flowId →
    .finished (run.finalRecord (some (.aborted (cutReason arms run.record.flowId))) now) ∈ e'.effects
  given : ∀ effect ∈ e.effects, effect ∈ e'.effects
  started : e'.ledger.started = e.ledger.started ∧ e'.minted = e.minted

section

variable {env : Env} {now : Timestamp} {e e' : Engine} {arms : List Arm}

lemma keptOf_congr {a : Arm} (h : e'.flows[a.flow.id]? = e.flows[a.flow.id]?) :
    keptOf env e' a = keptOf env e a := by
  unfold keptOf
  rw [h]

lemma mem_endings {flow : RuleId} {id : ContextId} {run : Run} (hrun : e.runs[id]? = some run)
    (hflow : run.record.flowId = flow) (outcome : RunOutcome) (now : Timestamp) :
    .finished (run.finalRecord (some outcome) now) ∈ endings e (e.runsOf flow) outcome now :=
  List.mem_filterMap.mpr ⟨id, mem_runsOf.mpr ⟨run, hrun, hflow⟩, by rw [hrun]; rfl⟩

/-- What gathering the flows of a new set, each of them once, comes to. -/
structure Sorted (env : Env) (arms : List Arm) (now : Timestamp) (next : Map RuleId Loaded)
    (e : Engine) (next' : Map RuleId Loaded) (e' : Engine) : Prop where
  left : ∀ id : RuleId, e'.flows[id]? =
    if id ∈ arms.map (·.flow.id) then none else e.flows[id]?
  same : ∀ id : RuleId, id ∉ arms.map (·.flow.id) → next'[id]? = next[id]?
  gathered : ∀ a ∈ arms, ∃ loaded : Loaded, next'[a.flow.id]? = some loaded ∧
    loaded.flow = a.flow ∧ loaded.version = a.flow.version env ∧
      loaded.armed = Engine.armedOf a ∧ ∀ old : Loaded, keptOf env e a = some old →
        loaded.holds = old.holds ∧ loaded.queue = old.queue
  runs : ∀ (id : ContextId) (run : Run), e'.runs[id]? = some run ↔ e.runs[id]? = some run ∧
    ∀ a ∈ arms, a.flow.id = run.record.flowId → (keptOf env e a).isSome
  cut : ∀ (id : ContextId) (run : Run), e.runs[id]? = some run → ∀ a ∈ arms,
    a.flow.id = run.record.flowId → keptOf env e a = none →
      .finished (run.finalRecord (some (.aborted (changeReason (Engine.armedOf a)))) now) ∈
        e'.effects
  given : ∀ effect ∈ e.effects, effect ∈ e'.effects
  started : e'.ledger.started = e.ledger.started ∧ e'.minted = e.minted

lemma sorted_arm (next : Map RuleId Loaded) (e : Engine) (a : Arm) (now : Timestamp) :
    Sorted env [a] now next e (Engine.arm env now next e a).1 (Engine.arm env now next e a).2 := by
  cases hkept : keptOf env e a with
  | some old =>
    rw [arm_kept hkept]
    refine ⟨fun id => ?_, fun id hid => ?_, fun b hb => ?_, fun id run => ?_, fun id run _ b hb => ?_,
      fun _ h => h, rfl, rfl⟩
    · rw [Map.get_erase]
      simp [eq_comm]
    · rw [Map.get_insert, if_neg (by simpa [eq_comm] using hid)]
    · obtain rfl := List.mem_singleton.mp hb
      refine ⟨_, by rw [Map.get_insert, if_pos rfl], rfl, rfl, rfl, fun old' hold' => ?_⟩
      rw [hkept, Option.some.injEq] at hold'
      exact hold' ▸ ⟨rfl, rfl⟩
    · refine ⟨fun h => ⟨h, fun b hb _ => ?_⟩, And.left⟩
      rw [List.mem_singleton.mp hb, hkept]
      rfl
    · obtain rfl := List.mem_singleton.mp hb
      intro _ hnone
      rw [hkept] at hnone
      simp at hnone
  | none =>
    obtain ⟨runs, ready, flows, heq, hruns, hflows⟩ := arm_cut next hkept now
    rw [heq]
    refine ⟨fun id => ?_, fun id hid => ?_, fun b hb => ?_, fun id run => ?_, fun id run hrun b hb => ?_,
      fun _ h => List.mem_append_left _ h, rfl, rfl⟩
    · dsimp only
      rw [hflows]
      simp [eq_comm]
    · rw [Map.get_insert, if_neg (by simpa [eq_comm] using hid)]
    · obtain rfl := List.mem_singleton.mp hb
      refine ⟨_, by rw [Map.get_insert, if_pos rfl], rfl, rfl, rfl, fun old' hold' => ?_⟩
      rw [hkept] at hold'
      simp at hold'
    · dsimp only
      rw [hruns, Option.filter_eq_some_iff]
      refine and_congr_right fun _ => ⟨fun hne b hb hid => ?_, fun h => ?_⟩
      · rw [List.mem_singleton.mp hb] at hid
        simp [hid] at hne
      · by_contra hne
        have hid : run.record.flowId = a.flow.id := by simpa using hne
        have hsome := h a (List.mem_singleton_self a) hid.symm
        rw [hkept] at hsome
        simp at hsome
    · obtain rfl := List.mem_singleton.mp hb
      intro hid _
      exact List.mem_append_right _ (mem_endings hrun hid.symm _ _)

lemma Sorted.cons {a : Arm} {next next' next'' : Map RuleId Loaded} {e'' : Engine}
    (hnew : a.flow.id ∉ arms.map (·.flow.id)) (h : Sorted env [a] now next e next' e')
    (h' : Sorted env arms now next' e' next'' e'') :
    Sorted env (a :: arms) now next e next'' e'' := by
  -- The flows still to come are as they were.
  have hsame : ∀ b ∈ arms, keptOf env e' b = keptOf env e b := by
    intro b hb
    refine keptOf_congr ?_
    rw [h.left, if_neg]
    intro hid
    rw [List.map_singleton, List.mem_singleton] at hid
    exact hnew (hid ▸ List.mem_map_of_mem hb)
  constructor
  · intro id
    rw [h'.left, h.left]
    by_cases hid : id = a.flow.id
    · simp [hid]
    · simp [hid]
  · intro id hid
    rw [List.map_cons, List.mem_cons, not_or] at hid
    rw [h'.same id hid.2, h.same id (by simpa using hid.1)]
  · intro b hb
    rcases List.mem_cons.mp hb with rfl | hb
    · rw [h'.same _ hnew]
      exact h.gathered b (List.mem_singleton_self b)
    · obtain ⟨loaded, hloaded, hflow, hversion, harmed, hold⟩ := h'.gathered b hb
      exact ⟨loaded, hloaded, hflow, hversion, harmed, fun old hkept => hold old (hsame b hb ▸ hkept)⟩
  · intro id run
    rw [h'.runs, h.runs]
    constructor
    · rintro ⟨⟨hrun, ha⟩, hothers⟩
      refine ⟨hrun, fun b hb hid => ?_⟩
      rcases List.mem_cons.mp hb with rfl | hb
      · exact ha b (List.mem_singleton_self b) hid
      · exact hsame b hb ▸ hothers b hb hid
    · rintro ⟨hrun, hall⟩
      refine ⟨⟨hrun, fun b hb hid => ?_⟩, fun b hb hid => ?_⟩
      · exact hall b (List.mem_singleton.mp hb ▸ List.mem_cons_self) hid
      · rw [hsame b hb]
        exact hall b (List.mem_cons_of_mem _ hb) hid
  · intro id run hrun b hb hid hnone
    rcases List.mem_cons.mp hb with rfl | hb
    · exact h'.given _ (h.cut id run hrun b (List.mem_singleton_self b) hid hnone)
    · refine h'.cut id run ((h.runs id run).mpr ⟨hrun, fun b' hb' hid' => ?_⟩) b hb hid
        (hsame b hb ▸ hnone)
      rw [List.mem_singleton.mp hb', ← hid] at hid'
      exact absurd (hid' ▸ List.mem_map_of_mem hb) hnew
  · exact fun effect heffect => h'.given _ (h.given _ heffect)
  · exact ⟨h'.started.1.trans h.started.1, h'.started.2.trans h.started.2⟩

variable (env now) in
lemma sorted_arms (arms : List Arm) (hnodup : (arms.map (·.flow.id)).Nodup) :
    ∀ (next : Map RuleId Loaded) (e : Engine), Sorted env arms now next e
      (arms.foldl (fun (next, e) a => Engine.arm env now next e a) (next, e)).1
      (arms.foldl (fun (next, e) a => Engine.arm env now next e a) (next, e)).2 := by
  induction arms with
  | nil => exact fun next e => ⟨by simp, by simp, by simp, by simp, by simp, by simp, rfl, rfl⟩
  | cons a arms ih =>
    intro next e
    rw [List.map_cons, List.nodup_cons] at hnodup
    exact (sorted_arm next e a now).cons hnodup.1 (ih hnodup.2 _ _)

variable (env) in
lemma abortFlows_spec (now : Timestamp) (ids : List RuleId) : ∀ e : Engine,
    (∀ (id : ContextId) (run : Run), e.runs[id]? = some run → run.record.flowId ∈ ids →
      .finished (run.finalRecord (some (.aborted .removed)) now) ∈
        (ids.foldl (fun e flow => e.abortFlow env flow .removed now) e).effects) ∧
      (∀ effect ∈ e.effects,
        effect ∈ (ids.foldl (fun e flow => e.abortFlow env flow .removed now) e).effects) ∧
      (ids.foldl (fun e flow => e.abortFlow env flow .removed now) e).ledger.started =
        e.ledger.started ∧
      (ids.foldl (fun e flow => e.abortFlow env flow .removed now) e).minted = e.minted := by
  induction ids with
  | nil => exact fun e => ⟨by simp, fun _ h => h, rfl, rfl⟩
  | cons flow ids ih =>
    intro e
    obtain ⟨runs, ready, flows, heq, hruns, -⟩ := abortFlow_eq env e flow
      (by simp : AbortReason.removed ≠ .cancelled) now
    obtain ⟨hcut, hgiven, hstarted, hminted⟩ := ih (e.abortFlow env flow .removed now)
    rw [List.foldl_cons]
    refine ⟨fun id run hrun hin => ?_, fun effect heffect => hgiven effect ?_, ?_, ?_⟩
    · by_cases hflow : run.record.flowId = flow
      · refine hgiven _ ?_
        rw [heq]
        exact List.mem_append_right _ (mem_endings hrun hflow _ _)
      · refine hcut id run ?_ ((List.mem_cons.mp hin).resolve_left hflow)
        rw [heq]
        dsimp only
        rw [hruns, hrun, Option.filter_some, if_pos (by simpa using hflow)]
    · rw [heq]
      exact List.mem_append_left _ heffect
    · rw [hstarted, heq]
    · rw [hminted, heq]

lemma stays_iff (hnodup : (arms.map (·.flow.id)).Nodup) {a : Arm} (ha : a ∈ arms) :
    Stays env arms e a.flow.id ↔ (keptOf env e a).isSome := by
  constructor
  · rintro ⟨b, hb, hid, harmed, old, hold, holdArmed, hversion⟩
    obtain rfl : b = a := List.inj_on_of_nodup_map hnodup hb ha hid
    unfold keptOf
    rw [hold, Option.filter_some, if_pos (by simp [harmed, holdArmed, hversion])]
    rfl
  · intro hsome
    obtain ⟨old, hkept⟩ := Option.isSome_iff_exists.mp hsome
    obtain ⟨hold, hversion, harmed, holdArmed⟩ := keptOf_eq_some hkept
    exact ⟨a, ha, rfl, harmed, old, hold, holdArmed, hversion⟩

lemma cutReason_of_mem (hnodup : (arms.map (·.flow.id)).Nodup) {a : Arm} (ha : a ∈ arms) :
    cutReason arms a.flow.id = changeReason (Engine.armedOf a) := by
  have hfind : arms.find? (fun b => b.flow.id = a.flow.id) = some a := by
    obtain ⟨b, hb⟩ : ∃ b, arms.find? (fun b => b.flow.id = a.flow.id) = some b := by
      rw [← Option.isSome_iff_exists, List.find?_isSome]
      exact ⟨a, ha, by simp⟩
    have hid : b.flow.id = a.flow.id := by simpa using List.find?_some hb
    rw [hb, List.inj_on_of_nodup_map hnodup (List.mem_of_find?_eq_some hb) ha hid]
  unfold cutReason changeReason Engine.armedOf
  rw [hfind]
  dsimp only
  cases a.flow.enabled with
  | true =>
    cases a.problems.find? Problem.isError <;> rfl
  | false => rfl

theorem replaceFlows_replaced (hnodup : (arms.map (·.flow.id)).Nodup) (e : Engine)
    (htidy : Tidy e) (now : Timestamp) :
    Replaced env arms now e (e.replaceFlows env arms now) := by
  have hsorted := sorted_arms env now arms hnodup ∅ e
  unfold Engine.replaceFlows
  dsimp only
  generalize arms.foldl (fun (next, e) a => Engine.arm env now next e a) (∅, e) = gathered
    at hsorted ⊢
  have hruns := abortAll_eq env now gathered.2.flows.keys gathered.2
  obtain ⟨hcut, hgiven, hstarted, hminted⟩ :=
    abortFlows_spec env now gathered.2.flows.keys gathered.2
  obtain ⟨timers, nextTimer, hwound⟩ := windClocks_eq env
    { gathered.2.flows.keys.foldl (fun e flow => e.abortFlow env flow .removed now) gathered.2 with
      flows := gathered.1 } now
  rw [hwound]
  -- The flows that are thrown out are those the new set doesn't name.
  have hkeys : ∀ id : RuleId, id ∈ gathered.2.flows.keys ↔
      id ∉ arms.map (·.flow.id) ∧ (e.flows[id]?).isSome := by
    intro id
    rw [Std.ExtTreeMap.mem_keys, Std.ExtTreeMap.mem_iff_isSome_getElem?, hsorted.left]
    split <;> simp_all
  have hloaded : ∀ {id : ContextId} {run : Run}, e.runs[id]? = some run →
      (e.flows[run.record.flowId]?).isSome := by
    intro id run hrun
    obtain ⟨loaded, hloaded, -⟩ := htidy.runs hrun
    rw [hloaded]
    rfl
  have hnames : ∀ id : RuleId, Stays env arms e id → id ∈ arms.map (·.flow.id) := by
    rintro id ⟨a, ha, rfl, -⟩
    exact List.mem_map_of_mem ha
  constructor
  · intro id loaded hid
    dsimp only at hid
    by_cases hin : id ∈ arms.map (·.flow.id)
    · obtain ⟨a, ha, rfl⟩ := List.mem_map.mp hin
      obtain ⟨loaded', hloaded', hflow, -⟩ := hsorted.gathered a ha
      rw [hid, Option.some.injEq] at hloaded'
      exact ⟨a, ha, hloaded' ▸ hflow.symm, rfl⟩
    · rw [hsorted.same id hin] at hid
      simp at hid
  · intro id hstays
    obtain ⟨a, ha, rfl⟩ := List.mem_map.mp (hnames id hstays)
    obtain ⟨old, hkept⟩ := Option.isSome_iff_exists.mp ((stays_iff hnodup ha).mp hstays)
    obtain ⟨hold, hversion, harmed, -⟩ := keptOf_eq_some hkept
    obtain ⟨new, hnew, -, hnewVersion, hnewArmed, hkeeps⟩ := hsorted.gathered a ha
    exact ⟨old, new, hold, hnew, hnewArmed.trans harmed, hnewVersion.trans hversion.symm,
      hkeeps old hkept⟩
  · intro id run
    dsimp only
    rw [hruns, Option.filter_eq_some_iff, hsorted.runs]
    constructor
    · rintro ⟨⟨hrun, hkept⟩, hout⟩
      refine ⟨hrun, ?_⟩
      by_cases hin : run.record.flowId ∈ arms.map (·.flow.id)
      · obtain ⟨a, ha, hid⟩ := List.mem_map.mp hin
        rw [← hid, stays_iff hnodup ha]
        exact hkept a ha hid
      · have hkey := (hkeys run.record.flowId).mpr ⟨hin, hloaded hrun⟩
        simp [hkey] at hout
    · rintro ⟨hrun, hstays⟩
      refine ⟨⟨hrun, fun a ha hid => (stays_iff hnodup ha).mp (hid ▸ hstays)⟩, ?_⟩
      have hkey : run.record.flowId ∉ gathered.2.flows.keys := fun hkey =>
        ((hkeys _).mp hkey).1 (hnames _ hstays)
      simp [hkey]
  · intro id run hrun hnot
    by_cases hin : run.record.flowId ∈ arms.map (·.flow.id)
    · obtain ⟨a, ha, hid⟩ := List.mem_map.mp hin
      refine hgiven _ ?_
      rw [← hid, cutReason_of_mem hnodup ha]
      refine hsorted.cut id run hrun a ha hid ?_
      rw [← hid, stays_iff hnodup ha] at hnot
      simpa using hnot
    · have hreason : cutReason arms run.record.flowId = .removed := by
        unfold cutReason
        rw [List.find?_eq_none.mpr]
        intro a ha hid
        exact hin (by simpa using ⟨a, ha, by simpa using hid⟩)
      rw [hreason]
      refine hcut id run ((hsorted.runs id run).mpr ⟨hrun, fun a ha hid => ?_⟩)
        ((hkeys _).mpr ⟨hin, hloaded hrun⟩)
      exact absurd (hid ▸ List.mem_map_of_mem ha) hin
  · exact fun effect heffect => hgiven effect (hsorted.given effect heffect)
  · exact ⟨hstarted.trans hsorted.started.1, hminted.trans hsorted.started.2⟩

/-- Runs, holds and queues are those of armed flows, whatever the engine was called for. Replacing
the flows keeps those of a flow that stays, and ends the runs of every other one. -/
theorem armed_flows_only {ops : List Op} (h : Reaches env ops e) :
    (∀ (id : ContextId) (run : Run), e.runs[id]? = some run → ∃ loaded : Loaded,
      e.flows[run.record.flowId]? = some loaded ∧ loaded.armed = .armed ∧
        run.record.version = loaded.version) ∧
    (∀ (id : RuleId) (loaded : Loaded), e.flows[id]? = some loaded → loaded.armed ≠ .armed →
      loaded.holds = ∅ ∧ loaded.queue = []) ∧
    ∀ (arms : List Arm) (now : Timestamp) (fuel : Nat) (e' : Engine),
      (arms.map (·.flow.id)).Nodup → e.setFlows env arms now fuel = some e' →
      ∃ advanced : Engine, e.advance env now fuel = some advanced ∧
        Replaced env arms now advanced e' := by
  have hsound := reaches_sound h
  refine ⟨fun _ _ hrun => hsound.tidy.runs hrun, fun _ _ hloaded => hsound.tidy.idle hloaded, ?_⟩
  intro arms now fuel e' hnodup hset
  unfold Engine.setFlows at hset
  obtain ⟨advanced, hadvance, rfl⟩ := Option.map_eq_some_iff.mp hset
  have hturns : Turns env (ArmedBy ops) True e advanced := advance_turns fuel e hsound _ hadvance
  exact ⟨advanced, hadvance,
    replaceFlows_replaced hnodup advanced (sound_turns hturns hsound).tidy now⟩

end

def dawdling : Flow :=
  Sample.flow (.named .single)
    [(Sample.started, .trigger .startup), (Sample.dark, .delay ⟨"1m", by decide⟩)]
    [Sample.wire Sample.started .out Sample.dark]

theorem armed_flows_only_dawdling : ∃ e advanced e' : Engine,
    (∃ (id : ContextId) (run : Run), e.runs[id]? = some run) ∧
      Replaced (Sample.env []) [] 1 advanced e' := by
  have hruns : ((Op.performAll (Sample.env []) 9 [.setFlows [⟨dawdling, []⟩] 0, .start 0]
      (Engine.new false)).any fun e =>
        !e.runs.isEmpty && (e.setFlows (Sample.env []) [] 1 9).isSome) = true := by decide
  obtain ⟨e, he, hgoing⟩ := (Option.any_eq_true _ _).mp hruns
  rw [Bool.and_eq_true] at hgoing
  obtain ⟨e', hset⟩ := Option.isSome_iff_exists.mp hgoing.2
  obtain ⟨-, -, hreplaced⟩ := armed_flows_only (reaches_performAll _ (.new false) he)
  obtain ⟨advanced, -, hadvanced⟩ := hreplaced [] 1 9 e' (by simp) hset
  refine ⟨e, advanced, e', ?_, hadvanced⟩
  have hne : e.runs.toList ≠ [] := by
    intro hnil
    rw [Std.ExtTreeMap.toList_eq_nil_iff] at hnil
    simp [hnil] at hgoing
  obtain ⟨⟨id, run⟩, hmem⟩ := List.exists_mem_of_ne_nil _ hne
  exact ⟨id, run, Std.ExtTreeMap.mem_toList_iff_getElem?_eq_some.mp hmem⟩

end Irori.Proofs
