import Irori.Sample
import Mathlib.Data.Fintype.Order
import Mathlib.Order.WellFounded

/-!
# The order of a flow's nodes

Nodes are taken one after another, each once nothing it waits for is left. Every node is taken
exactly when the wires don't go round in a circle, and then each wire goes forward.
-/

namespace Irori.Flow

variable (flow : Flow)

/-- A wire goes from one node to another. -/
def Leads (a b : NodeId) : Prop := ∃ wire ∈ flow.wires, wire.source.node = a ∧ wire.target = b

def Joined : Prop :=
  ∀ wire ∈ flow.wires, wire.source.node ∈ flow.nodes ∧ wire.target ∈ flow.nodes

def waits (done : List NodeId) (id : NodeId) : Nat :=
  (flow.wires.filter fun wire => wire.target = id ∧ wire.source.node ∉ done).length

end Irori.Flow

namespace Irori.Proofs
open Irori

variable {flow : Flow} {done ready : List NodeId} {incoming : Map NodeId Nat} {id : NodeId}

/-- Every node is counted what it waits for; what is counted nothing is taken, or ready. Each node
was taken after those it waited for. -/
structure Taking (flow : Flow) (done : List NodeId) (incoming : Map NodeId Nat)
    (ready : List NodeId) : Prop where
  counts : ∀ id, incoming[id]? = if id ∈ flow.nodes then some (flow.waits done id) else none
  zero : ∀ id ∈ flow.nodes, id ∈ done ++ ready ↔ flow.waits done id = 0
  nodes : ∀ id ∈ done ++ ready, id ∈ flow.nodes
  nodup : (done ++ ready).Nodup
  forward : ∀ before id after, done = before ++ id :: after → flow.waits before id = 0

lemma waits_eq_zero : flow.waits done id = 0 ↔
    ∀ wire ∈ flow.wires, wire.target = id → wire.source.node ∈ done := by
  simp only [Flow.waits, List.length_eq_zero_iff, List.filter_eq_nil_iff, decide_eq_true_eq,
    not_and, not_not]

lemma waits_append (hid : id ∉ done) (other : NodeId) : flow.waits done other =
    flow.waits (done ++ [id]) other +
      ((flow.wires.filter fun wire => wire.source.node = id).filter fun wire =>
        wire.target = other).length := by
  unfold Flow.waits
  induction flow.wires with
  | nil => rfl
  | cons wire wires ih =>
    by_cases htarget : wire.target = other
    · by_cases hsource : wire.source.node = id
      · simp [htarget, hsource, hid] at ih ⊢
        omega
      · by_cases hdone : wire.source.node ∈ done
        · simp [htarget, hsource, hdone] at ih ⊢
          exact ih
        · simp [htarget, hsource, hdone] at ih ⊢
          omega
    · by_cases hsource : wire.source.node = id
      · simp [htarget, hsource] at ih ⊢
        exact ih
      · simp [htarget, hsource] at ih ⊢
        exact ih

lemma release_wires {wires : List Wire} {rest : NodeId → Nat} {taken : List NodeId}
    (hcounts : ∀ id, incoming[id]? = if id ∈ flow.nodes then
      some (rest id + (wires.filter fun wire => wire.target = id).length) else none)
    (hzero : ∀ id ∈ flow.nodes, id ∈ taken ++ ready ↔
      rest id + (wires.filter fun wire => wire.target = id).length = 0)
    (hnodes : ∀ id ∈ taken ++ ready, id ∈ flow.nodes) (hnodup : (taken ++ ready).Nodup)
    (hjoined : ∀ wire ∈ wires, wire.target ∈ flow.nodes) :
    ∃ incoming' ready', wires.foldl Flow.release (incoming, ready) = (incoming', ready') ∧
      (∀ id, incoming'[id]? = if id ∈ flow.nodes then some (rest id) else none) ∧
      (∀ id ∈ flow.nodes, id ∈ taken ++ ready' ↔ rest id = 0) ∧
      (∀ id ∈ taken ++ ready', id ∈ flow.nodes) ∧ (taken ++ ready').Nodup := by
  induction wires generalizing incoming ready with
  | nil =>
    exact ⟨incoming, ready, rfl, by simpa using hcounts, by simpa using hzero, hnodes, hnodup⟩
  | cons wire wires ih =>
    have htarget := hjoined wire List.mem_cons_self
    have hjoined' : ∀ wire ∈ wires, wire.target ∈ flow.nodes :=
      fun wire hwire => hjoined wire (List.mem_cons_of_mem _ hwire)
    have hself : ((wire :: wires).filter fun other => other.target = wire.target).length =
        (wires.filter fun other => other.target = wire.target).length + 1 := by simp
    have hother : ∀ id, id ≠ wire.target →
        ((wire :: wires).filter fun other => other.target = id).length =
          (wires.filter fun other => other.target = id).length := by
      intro id hne
      simp [Ne.symm hne]
    have hcount := hcounts wire.target
    rw [if_pos htarget, hself] at hcount
    have hnot : wire.target ∉ taken ++ ready := by
      rw [hzero _ htarget, hself]
      omega
    have hrelease : Flow.release (incoming, ready) wire =
        (incoming.insert wire.target
          (rest wire.target + (wires.filter fun other => other.target = wire.target).length),
          if rest wire.target + (wires.filter fun other => other.target = wire.target).length = 0
          then ready ++ [wire.target] else ready) := by
      simp only [Flow.release, hcount, ← Nat.add_assoc, Nat.add_sub_cancel]
    have hcounts' : ∀ id, (incoming.insert wire.target (rest wire.target +
        (wires.filter fun other => other.target = wire.target).length))[id]? =
          if id ∈ flow.nodes then
            some (rest id + (wires.filter fun wire => wire.target = id).length) else none := by
      intro id
      rw [Map.get_insert]
      by_cases hne : wire.target = id
      · subst hne
        rw [if_pos rfl, if_pos htarget]
      · rw [if_neg hne, hcounts, hother id (Ne.symm hne)]
    rw [List.foldl_cons, hrelease]
    by_cases hnow : rest wire.target +
        (wires.filter fun other => other.target = wire.target).length = 0
    · rw [if_pos hnow]
      refine ih hcounts' (fun id hid => ?_) (fun id hid => ?_) ?_ hjoined'
      · rw [← List.append_assoc, List.mem_append, List.mem_singleton]
        by_cases hne : id = wire.target
        · subst hne
          simp only [or_true, true_iff]
          exact hnow
        · rw [hzero id hid, hother id hne]
          simp [hne]
      · rw [← List.append_assoc, List.mem_append, List.mem_singleton] at hid
        rcases hid with hid | rfl
        · exact hnodes id hid
        · exact htarget
      · rw [← List.append_assoc]
        exact List.Nodup.append hnodup (List.nodup_singleton _)
          (List.disjoint_singleton.2 hnot)
    · rw [if_neg hnow]
      refine ih hcounts' (fun id hid => ?_) hnodes hnodup hjoined'
      by_cases hne : id = wire.target
      · subst hne
        simp only [hnot, false_iff]
        exact hnow
      · rw [hzero id hid, hother id hne]

lemma Taking.step (hjoined : flow.Joined) (h : Taking flow done incoming (id :: ready)) :
    ∃ incoming' ready', (flow.wires.filter fun wire => wire.source.node = id).foldl Flow.release
        (incoming, ready) = (incoming', ready') ∧
      Taking flow (done ++ [id]) incoming' ready' := by
  have hlist : done ++ [id] ++ ready = done ++ id :: ready := by simp
  have hid : id ∉ done := by
    intro hmem
    exact (List.nodup_append.1 h.nodup).2.2 id hmem id List.mem_cons_self rfl
  have hcounts : ∀ other, incoming[other]? = if other ∈ flow.nodes then
      some (flow.waits (done ++ [id]) other + ((flow.wires.filter fun wire =>
        wire.source.node = id).filter fun wire => wire.target = other).length) else none := by
    intro other
    rw [h.counts, waits_append hid]
  have hzero : ∀ other ∈ flow.nodes, other ∈ done ++ [id] ++ ready ↔
      flow.waits (done ++ [id]) other + ((flow.wires.filter fun wire =>
        wire.source.node = id).filter fun wire => wire.target = other).length = 0 := by
    intro other hother
    rw [hlist, h.zero other hother, waits_append hid]
  obtain ⟨incoming', ready', hfold, hcounts', hzero', hnodes', hnodup'⟩ :=
    release_wires hcounts hzero (by rw [hlist]; exact h.nodes) (by rw [hlist]; exact h.nodup)
      (fun wire hwire => (hjoined wire (List.mem_filter.1 hwire).1).2)
  refine ⟨incoming', ready', hfold, hcounts', hzero', hnodes', hnodup', ?_⟩
  intro before other after hsplit
  rcases List.eq_nil_or_concat after with rfl | ⟨after, last, rfl⟩
  · obtain ⟨rfl, hlast⟩ := List.append_inj' hsplit rfl
    obtain rfl := List.singleton_inj.1 hlast
    exact (h.zero _ (h.nodes _ (by simp))).1 (by simp)
  · rw [List.concat_eq_append, ← List.cons_append, ← List.append_assoc] at hsplit
    obtain ⟨rfl, -⟩ := List.append_inj' hsplit rfl
    exact h.forward before other after rfl

lemma Taking.length_le (h : Taking flow done incoming ready) :
    (done ++ ready).length ≤ flow.nodes.size := by
  rw [← Std.ExtTreeMap.length_keys]
  exact (List.subperm_of_subset h.nodup fun id hid =>
    Std.ExtTreeMap.mem_keys.2 (h.nodes id hid)).length_le

lemma Taking.run (hjoined : flow.Joined) {fuel : Nat} (h : Taking flow done incoming ready)
    (hfuel : flow.nodes.size ≤ done.length + fuel) :
    (∃ incoming', Taking flow (done ++ flow.takeReady fuel incoming ready) incoming' []) ∧
      ∀ more, flow.takeReady (fuel + more) incoming ready =
        flow.takeReady fuel incoming ready := by
  induction fuel generalizing done incoming ready with
  | zero =>
    have hlength := h.length_le
    rw [List.length_append] at hlength
    obtain rfl : ready = [] := List.eq_nil_of_length_eq_zero (by omega)
    refine ⟨⟨incoming, by simpa [Flow.takeReady] using h⟩, fun more => ?_⟩
    cases more <;> rfl
  | succ fuel ih =>
    cases ready with
    | nil =>
      refine ⟨⟨incoming, by simpa [Flow.takeReady] using h⟩, fun more => ?_⟩
      rw [Nat.succ_add]
      rfl
    | cons id ready =>
      obtain ⟨incoming', ready', hfold, hstep⟩ := h.step hjoined
      obtain ⟨⟨last, hlast⟩, hmore⟩ := ih hstep (by rw [List.length_append]; simp; omega)
      have htake : ∀ fuel, flow.takeReady (fuel + 1) incoming (id :: ready) =
          id :: flow.takeReady fuel incoming' ready' := by
        intro fuel
        rw [Flow.takeReady, hfold]
      refine ⟨⟨last, ?_⟩, fun more => ?_⟩
      · rw [htake]
        simpa using hlast
      · rw [Nat.succ_add, htake, htake, hmore]

lemma incomingCounts_get (id : NodeId) : flow.incomingCounts[id]? =
    if id ∈ flow.nodes then some (flow.waits [] id) else none := by
  have hfold : ∀ step : Map NodeId Nat → Wire → Map NodeId Nat,
      (∀ counts wire, counts[wire.target]? = none → step counts wire = counts) →
      (∀ counts wire count, counts[wire.target]? = some count →
        step counts wire = counts.insert wire.target (count + 1)) →
      ∀ (wires : List Wire) (counts : Map NodeId Nat) (rest : NodeId → Nat),
      (∀ id, counts[id]? = if id ∈ flow.nodes then some (rest id) else none) →
      (wires.foldl step counts)[id]? =
        if id ∈ flow.nodes then
          some (rest id + (wires.filter fun wire => wire.target = id).length) else none := by
    intro step hnone hsome wires
    induction wires with
    | nil => exact fun counts rest hcounts => hcounts id
    | cons wire wires ih =>
      intro counts rest hcounts
      rw [List.foldl_cons]
      by_cases htarget : wire.target ∈ flow.nodes
      · have hcount := hcounts wire.target
        rw [if_pos htarget] at hcount
        rw [hsome _ _ _ hcount]
        rw [ih _ (Function.update rest wire.target (rest wire.target + 1)) fun other => ?_]
        · by_cases hid : wire.target = id
          · subst hid
            rw [if_pos htarget, if_pos htarget, Function.update_self,
              List.filter_cons_of_pos (by simp), List.length_cons, Nat.add_right_comm,
              Nat.add_assoc]
          · simp [hid, Function.update_of_ne (Ne.symm hid)]
        · rw [Map.get_insert]
          by_cases hother : wire.target = other
          · subst hother
            simp [htarget]
          · rw [if_neg hother, hcounts, Function.update_of_ne (Ne.symm hother)]
      · have hcount := hcounts wire.target
        rw [if_neg htarget] at hcount
        rw [hnone _ _ hcount]
        rw [ih _ rest hcounts]
        by_cases hid : wire.target = id
        · subst hid
          rw [if_neg htarget, if_neg htarget]
        · simp [hid]
  have hwaits : flow.waits [] id =
      0 + (flow.wires.filter fun wire => wire.target = id).length := by
    simp [Flow.waits]
  refine (hfold _ (fun counts wire hget => by rw [hget])
    (fun counts wire count hget => by rw [hget]) flow.wires _ (fun _ => 0)
    fun other => ?_).trans (by rw [hwaits])
  by_cases hother : other ∈ flow.nodes
  · rw [if_pos hother]
    refine Std.ExtTreeMap.getElem?_ofList_of_mem (k := other) (by simp) ?_
      (List.mem_map.2 ⟨other, Std.ExtTreeMap.mem_keys.2 hother, rfl⟩)
    rw [List.pairwise_map]
    exact Std.ExtTreeMap.distinct_keys (t := flow.nodes)
  · rw [if_neg hother]
    refine Std.ExtTreeMap.getElem?_ofList_of_contains_eq_false ?_
    simpa using hother

lemma taking_start : Taking flow [] flow.incomingCounts
    ((flow.incomingCounts.toList.filter fun (_, count) => count = 0).map Prod.fst) := by
  have hmem : ∀ id, id ∈ ((flow.incomingCounts.toList.filter fun (_, count) =>
      count = 0).map Prod.fst) ↔ id ∈ flow.nodes ∧ flow.waits [] id = 0 := by
    intro id
    have hget : flow.incomingCounts[id]? =
        if id ∈ flow.nodes then some (flow.waits [] id) else none := incomingCounts_get id
    simp only [List.mem_map, List.mem_filter, Prod.exists, decide_eq_true_eq,
      Std.ExtTreeMap.mem_toList_iff_getElem?_eq_some]
    constructor
    · rintro ⟨a, count, ⟨hsome, rfl⟩, rfl⟩
      rw [hget] at hsome
      split at hsome
      · next hid => exact ⟨hid, Option.some.inj hsome⟩
      · cases hsome
    · rintro ⟨hid, hzero⟩
      exact ⟨id, 0, ⟨by rw [hget, if_pos hid, hzero], rfl⟩, rfl⟩
  refine ⟨incomingCounts_get, fun id hid => ?_, fun id hid => ((hmem id).1 hid).1, ?_, by simp⟩
  · rw [List.nil_append, hmem]
    exact ⟨And.right, fun h => ⟨hid, h⟩⟩
  · rw [List.nil_append]
    refine List.Nodup.sublist (List.filter_sublist.map _) ?_
    rw [Std.ExtTreeMap.map_fst_toList_eq_keys]
    exact Std.ExtTreeMap.nodup_keys

lemma not_transGen_of_forward {order : List NodeId}
    (hforward : ∀ before id after, order = before ++ id :: after → flow.waits before id = 0)
    (hnodup : order.Nodup) {a b : NodeId} (h : Relation.TransGen flow.Leads a b)
    (hb : b ∈ order) : a ∈ order ∧ order.idxOf a < order.idxOf b := by
  have hone : ∀ a b, flow.Leads a b → b ∈ order → a ∈ order ∧ order.idxOf a < order.idxOf b := by
    rintro a b ⟨wire, hwire, rfl, rfl⟩ hb
    obtain ⟨before, after, rfl⟩ := List.append_of_mem hb
    have hmem := waits_eq_zero.1 (hforward before _ after rfl) wire hwire rfl
    have hnot : wire.target ∉ before := fun htarget =>
      (List.nodup_append.1 hnodup).2.2 _ htarget _ List.mem_cons_self rfl
    refine ⟨List.mem_append_left _ hmem, ?_⟩
    rw [List.idxOf_append_of_mem hmem, List.idxOf_append_of_notMem hnot]
    exact Nat.lt_add_right _ (List.idxOf_lt_length_of_mem hmem)
  induction h with
  | single h => exact hone _ _ h hb
  | tail _ hlast ih =>
    obtain ⟨hmid, hlt⟩ := hone _ _ hlast hb
    obtain ⟨ha, hlt'⟩ := ih hmid
    exact ⟨ha, hlt'.trans hlt⟩

lemma exists_circle (hjoined : flow.Joined) (hid : id ∈ flow.nodes) (hnot : id ∉ done)
    (hwaits : ∀ other ∈ flow.nodes, other ∉ done → flow.waits done other ≠ 0) :
    ∃ id, Relation.TransGen flow.Leads id id := by
  by_contra hcircle
  push Not at hcircle
  have hstep : ∀ other ∈ flow.nodes, other ∉ done →
      ∃ before ∈ flow.nodes, before ∉ done ∧ flow.Leads before other := by
    intro other hother hnotdone
    have hsome := mt waits_eq_zero.2 (hwaits other hother hnotdone)
    push Not at hsome
    obtain ⟨wire, hwire, rfl, hsource⟩ := hsome
    exact ⟨wire.source.node, (hjoined wire hwire).1, hsource, wire, hwire, rfl, rfl⟩
  -- Of the nodes that wait, one would have nothing before it.
  have hfinite : Finite {id // id ∈ flow.nodes} :=
    Finite.of_injective (fun id => (⟨id.1, Std.ExtTreeMap.mem_keys.2 id.2⟩ :
      {id // id ∈ flow.nodes.keys})) fun a b heq => Subtype.ext (by simpa using heq)
  let lower (a b : {id // id ∈ flow.nodes}) : Prop := Relation.TransGen flow.Leads a.1 b.1
  have htrans : IsTrans _ lower := ⟨fun a b c => Relation.TransGen.trans⟩
  have hirrefl : Std.Irrefl lower := ⟨fun a => hcircle a.1⟩
  obtain ⟨least, hleast, hmin⟩ := (Finite.wellFounded_of_trans_of_irrefl lower).has_min
    {a | a.1 ∉ done} ⟨⟨id, hid⟩, hnot⟩
  obtain ⟨before, hbefore, hnotdone, hleads⟩ := hstep least.1 least.2 hleast
  exact hmin ⟨before, hbefore⟩ hnotdone (.single hleads)

/-- The nodes are put in an order exactly when the wires don't go round in a circle. Then it has
each node once, and each wire goes from an earlier to a later one. The nodes are all taken that ever
will be. -/
theorem topological_iff (flow : Flow) (hjoined : flow.Joined) :
    ((∃ order, flow.topological = some order) ↔ ∀ id, ¬ Relation.TransGen flow.Leads id id) ∧
    (∀ order, flow.topological = some order → order.Nodup ∧ (∀ id, id ∈ order ↔ id ∈ flow.nodes) ∧
      ∀ wire ∈ flow.wires, order.idxOf wire.source.node < order.idxOf wire.target) ∧
    ∀ more, flow.takeReady (flow.nodes.size + more) flow.incomingCounts
        ((flow.incomingCounts.toList.filter fun (_, count) => count = 0).map Prod.fst) =
      flow.takeReady flow.nodes.size flow.incomingCounts
        ((flow.incomingCounts.toList.filter fun (_, count) => count = 0).map Prod.fst) := by
  obtain ⟨order, horder⟩ : ∃ order, order = flow.takeReady flow.nodes.size flow.incomingCounts
      ((flow.incomingCounts.toList.filter fun (_, count) => count = 0).map Prod.fst) := ⟨_, rfl⟩
  obtain ⟨⟨last, hlast⟩, hmore⟩ :=
    Taking.run hjoined taking_start (Nat.le_add_left flow.nodes.size 0)
  rw [← horder, List.nil_append] at hlast
  have htopological : flow.topological =
      if order.length = flow.nodes.size then some order else none := by
    rw [horder]
    rfl
  have hmem : order.length = flow.nodes.size → ∀ id, id ∈ order ↔ id ∈ flow.nodes := by
    intro hlength id
    have hnodup : order.Nodup := by simpa using hlast.nodup
    have hsub : order ⊆ flow.nodes.keys := fun id hid =>
      Std.ExtTreeMap.mem_keys.2 (hlast.nodes id (by simpa using hid))
    have hperm := (List.subperm_of_subset hnodup hsub).perm_of_length_le
      (by rw [Std.ExtTreeMap.length_keys, hlength])
    rw [hperm.mem_iff, Std.ExtTreeMap.mem_keys]
  have hnodup : order.Nodup := by simpa using hlast.nodup
  refine ⟨⟨?_, fun hcircle => ?_⟩, fun order' horder' => ?_, hmore⟩
  · rintro ⟨order', horder'⟩ id hcircle
    rw [htopological, Option.ite_none_right_eq_some] at horder'
    obtain ⟨hlength, -⟩ := horder'
    have hid : id ∈ order := by
      obtain ⟨-, -, wire, hwire, -, rfl⟩ := Relation.TransGen.tail'_iff.1 hcircle
      exact (hmem hlength _).2 (hjoined wire hwire).2
    exact lt_irrefl _ (not_transGen_of_forward hlast.forward hnodup hcircle hid).2
  · refine ⟨order, ?_⟩
    rw [htopological, if_pos]
    by_contra hlength
    have hle := hlast.length_le
    rw [List.append_nil] at hle
    obtain ⟨id, hid, hnot⟩ : ∃ id ∈ flow.nodes.keys, id ∉ order := by
      by_contra hall
      push Not at hall
      have hge := (List.subperm_of_subset Std.ExtTreeMap.nodup_keys hall).length_le
      rw [Std.ExtTreeMap.length_keys] at hge
      omega
    obtain ⟨other, hother⟩ := exists_circle hjoined (Std.ExtTreeMap.mem_keys.1 hid) hnot
      fun other hother hnotdone hzero => hnotdone (by
        simpa using (hlast.zero other hother).2 hzero)
    exact hcircle other hother
  · rw [htopological, Option.ite_none_right_eq_some, Option.some.injEq] at horder'
    obtain ⟨hlength, rfl⟩ := horder'
    refine ⟨hnodup, hmem hlength, fun wire hwire => ?_⟩
    exact (not_transGen_of_forward hlast.forward hnodup (.single ⟨wire, hwire, rfl, rfl⟩)
      ((hmem hlength _).2 (hjoined wire hwire).2)).2

def joinedTwice : Flow :=
  Sample.flow (.named .single) [(Sample.started, .stop none), (Sample.dark, .stop none)]
    [Sample.wire Sample.started .out Sample.dark, Sample.wire Sample.started .out Sample.dark]

lemma joinedTwice_joined : joinedTwice.Joined := by
  intro wire hwire
  obtain rfl : wire = Sample.wire Sample.started .out Sample.dark := by
    simpa [joinedTwice, Sample.flow] using hwire
  exact ⟨by decide +kernel, by decide +kernel⟩

theorem topological_joinedTwice :
    ¬ Relation.TransGen joinedTwice.Leads Sample.started Sample.started :=
  (topological_iff joinedTwice joinedTwice_joined).1.1
    ⟨[Sample.started, Sample.dark], by decide +kernel⟩ Sample.started

end Irori.Proofs
