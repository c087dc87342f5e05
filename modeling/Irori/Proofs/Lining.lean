import Irori.Home.Installs

/-!
# The install line

Whoever reports that an install is over may do so twice, late, or for one that isn't running. What
waits on a protocol is still what was asked for there and has since neither been handed out, left
nor been forgotten, in the order it was asked for.
-/

namespace Irori.Core.Installs

variable (installs : Installs) (p : ProtocolId)

def entities : List EntityId :=
  ((installs.line p).running.map (·.entityId)).toList ++ (installs.line p).waiting.map Prod.fst

def joins : Op → Option (EntityId × Context)
  | .ask q e context installed now =>
    if q = p ∧ (installs.ask q e context installed now).2 = .waits ∧ e ∉ entities installs p then
      some (e, context)
    else none
  | _ => none

/-- A call that hands an entity out, or takes it out of the line, or takes the line away. -/
def ends (e : EntityId) : Op → Bool
  | .next q x installed now =>
    decide (q = p) && decide ((installs.next q x installed now).2.map Prod.fst = some e)
  | .leave x => x = e
  | .forget q => q = p
  | _ => false

structure InLine : Prop where
  running : ∀ p, (installs.line p).waiting ≠ [] → (installs.line p).running.isSome = true
  once : ∀ p, (entities installs p).Nodup

variable {installs} {p}

lemma line_insert (q : ProtocolId) (line : Line) :
    Installs.line (installs.insert q line) p = if q = p then line else installs.line p := by
  unfold Installs.line
  rw [Map.get_insert]
  split <;> rfl

lemma line_erase (q : ProtocolId) :
    Installs.line (installs.erase q) p = if q = p then ⟨none, []⟩ else installs.line p := by
  unfold Installs.line
  rw [Map.get_erase]
  split <;> rfl

lemma line_leave (e : EntityId) : Installs.line (installs.leave e).1 p =
    { installs.line p with
      waiting := (installs.line p).waiting.filter fun entry => entry.1 ≠ e } := by
  unfold Installs.line Installs.leave
  dsimp only
  rw [Std.ExtTreeMap.getElem?_map]
  cases installs[p]? <;> rfl

lemma mem_entities {e : EntityId} : e ∈ entities installs p ↔
    (installs.line p).running.map (·.entityId) = some e ∨
      ((installs.line p).waiting.any fun entry => entry.1 = e) = true := by
  unfold entities
  rw [List.mem_append, Option.mem_toList, List.mem_map, List.any_eq_true]
  refine or_congr Iff.rfl ⟨?_, ?_⟩
  · rintro ⟨entry, hentry, rfl⟩
    exact ⟨entry, hentry, by simp⟩
  · rintro ⟨entry, hentry, he⟩
    exact ⟨entry, hentry, by simpa using he⟩

lemma ask_cases (q : ProtocolId) (e : EntityId) (context : Context) (installed : Option String)
    (now : Instant) :
    (e ∈ entities installs q ∧
      installs.ask q e context installed now = (installs.insert q (installs.line q), .waits)) ∨
    (e ∉ entities installs q ∧ (installs.line q).running.isSome = true ∧
      installs.ask q e context installed now = (installs.insert q { installs.line q with
        waiting := (installs.line q).waiting ++ [(e, context)] }, .waits)) ∨
    (e ∉ entities installs q ∧ (installs.line q).running = none ∧
      installs.ask q e context installed now = (installs.insert q { installs.line q with
        running := some ⟨e, installed, false, now⟩ }, .go)) := by
  unfold Installs.ask
  dsimp only
  split
  · next hin => exact .inl ⟨mem_entities.mpr hin, rfl⟩
  · next hout =>
    have hout : e ∉ entities installs q := fun h => hout (mem_entities.mp h)
    split
    · next hruns => exact .inr (.inl ⟨hout, by simpa using hruns, rfl⟩)
    · next hruns => exact .inr (.inr ⟨hout, by simpa using hruns, rfl⟩)

variable (installs) in
lemma next_cases (q : ProtocolId) (e : EntityId) (installed : EntityId → Option String)
    (now : Instant) :
    ((installs.line q).running.map (·.entityId) ≠ some e ∧
      installs.next q e installed now = (installs, none)) ∨
    ((installs.line q).running.map (·.entityId) = some e ∧ (installs.line q).waiting = [] ∧
      installs.next q e installed now = (installs.insert q ⟨none, []⟩, none)) ∨
    ∃ x context waiting, (installs.line q).running.map (·.entityId) = some e ∧
      (installs.line q).waiting = (x, context) :: waiting ∧
      installs.next q e installed now =
        (installs.insert q ⟨some ⟨x, installed x, false, now⟩, waiting⟩, some (x, context)) := by
  unfold Installs.next Installs.line
  cases installs[q]? with
  | none => exact .inl ⟨by simp, rfl⟩
  | some line =>
    dsimp only [Option.getD_some]
    split
    · next hother => exact .inl ⟨hother, rfl⟩
    · next hruns =>
      have hruns := not_not.mp hruns
      cases line.waiting with
      | nil => exact .inr (.inl ⟨hruns, rfl, rfl⟩)
      | cons entry waiting => exact .inr (.inr ⟨entry.1, entry.2, waiting, hruns, rfl, rfl⟩)

variable (installs p) in
lemma heard_same (order : List ProtocolId) (e : EntityId) (state : Option UpdateState)
    (now : Instant) :
    (Installs.line (installs.heard order e state now).1 p).waiting = (installs.line p).waiting ∧
      (Installs.line (installs.heard order e state now).1 p).running.map (·.entityId) =
        (installs.line p).running.map (·.entityId) := by
  unfold Installs.heard
  dsimp only
  split
  · next q running state hfound =>
    obtain ⟨x, -, hx⟩ := List.exists_of_findSome?_eq_some hfound
    obtain ⟨r, hr, heq⟩ := Option.map_eq_some_iff.mp hx
    obtain ⟨rfl, rfl⟩ := Prod.mk.inj heq
    obtain ⟨hruns, -⟩ := Option.filter_eq_some_iff.mp hr
    split
    · rw [line_insert]
      split
      · next hq =>
        subst hq
        exact ⟨rfl, by rw [hruns]; rfl⟩
      · exact ⟨rfl, rfl⟩
    · exact ⟨rfl, rfl⟩
  · exact ⟨rfl, rfl⟩

lemma heard_running {order : List ProtocolId} {e : EntityId} {state : Option UpdateState}
    {now : Instant} (h : (installs.heard order e state now).2 = some p) :
    (installs.line p).running.map (·.entityId) = some e := by
  unfold Installs.heard at h
  dsimp only at h
  split at h
  · next q running state hfound =>
    obtain ⟨x, -, hx⟩ := List.exists_of_findSome?_eq_some hfound
    obtain ⟨r, hr, heq⟩ := Option.map_eq_some_iff.mp hx
    obtain ⟨rfl, rfl⟩ := Prod.mk.inj heq
    obtain ⟨hruns, hentity⟩ := Option.filter_eq_some_iff.mp hr
    have hq : x = p := by
      split at h
      · cases h
      · dsimp only at h
        split at h
        · exact Option.some.inj h
        · cases h
    rw [← hq, hruns]
    exact congrArg some (of_decide_eq_true hentity)
  · cases h

lemma entities_congr {installs' : Installs}
    (hwaiting : (installs'.line p).waiting = (installs.line p).waiting)
    (hrunning : (installs'.line p).running.map (·.entityId) =
      (installs.line p).running.map (·.entityId)) :
    entities installs' p = entities installs p := by
  unfold entities
  rw [hwaiting, hrunning]

lemma inLine_insert (h : InLine installs) {q : ProtocolId} {line : Line}
    (hruns : line.waiting ≠ [] → line.running.isSome = true)
    (honce : ((line.running.map (·.entityId)).toList ++ line.waiting.map Prod.fst).Nodup) :
    InLine (installs.insert q line) where
  running p hp := by
    rw [line_insert] at hp ⊢
    split at hp <;> split <;> first | contradiction | exact hruns hp | exact h.running p hp
  once p := by
    unfold entities
    rw [line_insert]
    split
    · exact honce
    · exact h.once p

lemma step_inLine (h : InLine installs) (op : Op) : InLine (installs.step op) := by
  cases op with
  | ask q e context installed now =>
    have honce : (entities installs q).Nodup := h.once q
    unfold Installs.step
    dsimp only
    rcases ask_cases q e context installed now with ⟨-, heq⟩ | ⟨hnew, hruns, heq⟩ |
      ⟨hnew, hidle, heq⟩ <;> rw [heq]
    · exact inLine_insert h (h.running q) honce
    · refine inLine_insert h (fun _ => hruns) ?_
      rw [List.map_append, ← List.append_assoc]
      exact honce.append (List.nodup_singleton e) (by simpa using hnew)
    · have hempty : (installs.line q).waiting = [] := by
        by_contra hne
        have hruns := h.running q hne
        rw [hidle] at hruns
        cases hruns
      refine inLine_insert h (fun _ => rfl) ?_
      rw [hempty]
      exact List.nodup_singleton e
  | heard order e state now =>
    refine ⟨fun p hp => ?_, fun p => ?_⟩
    · have hsame := heard_same installs p order e state now
      have hruns := h.running p (hsame.1 ▸ hp)
      have hmap := congrArg Option.isSome hsame.2
      rw [Option.isSome_map, Option.isSome_map] at hmap
      exact hmap.trans hruns
    · have hsame := heard_same installs p order e state now
      have honce := h.once p
      rw [← entities_congr hsame.1 hsame.2] at honce
      exact honce
  | next q e installed now =>
    unfold Installs.step
    dsimp only
    rcases next_cases installs q e installed now with ⟨-, heq⟩ | ⟨-, -, heq⟩ | ⟨x, context, waiting, -, hwait, heq⟩ <;>
      rw [heq]
    · exact h
    · exact inLine_insert h (fun hne => absurd rfl hne) List.nodup_nil
    · refine inLine_insert h (fun _ => rfl) ?_
      have honce := (h.once q).of_append_right
      rw [hwait] at honce
      exact honce
  | watch q e now => exact h
  | leave e =>
    refine ⟨fun p hp => ?_, fun p => ?_⟩
    · change ((installs.leave e).1.line p).waiting ≠ [] at hp
      change ((installs.leave e).1.line p).running.isSome = true
      rw [line_leave] at hp ⊢
      refine h.running p fun hnil => hp ?_
      dsimp only
      rw [hnil]
      rfl
    · change (entities (installs.leave e).1 p).Nodup
      unfold entities
      rw [line_leave]
      exact (h.once p).sublist ((List.filter_sublist.map Prod.fst).append_left _)
  | forget q =>
    refine ⟨fun p hp => ?_, fun p => ?_⟩
    · change (Installs.line (installs.erase q) p).waiting ≠ [] at hp
      change (Installs.line (installs.erase q) p).running.isSome = true
      rw [line_erase] at hp ⊢
      split at hp
      · exact absurd rfl hp
      · next hq =>
        rw [if_neg hq]
        exact h.running p hp
    · change (entities (installs.erase q) p).Nodup
      unfold entities
      rw [line_erase]
      split
      · exact List.nodup_nil
      · exact h.once p

lemma step_waiting (h : InLine installs) (op : Op) : ((installs.step op).line p).waiting =
    ((installs.line p).waiting.filter fun entry => !ends installs p entry.1 op) ++
      (joins installs p op).toList := by
  cases op with
  | ask q e context installed now =>
    have hall : ((installs.line p).waiting.filter fun entry =>
        !ends installs p entry.1 (.ask q e context installed now)) = (installs.line p).waiting :=
      List.filter_eq_self.mpr fun _ _ => rfl
    rw [hall]
    unfold Installs.step joins
    dsimp only
    rcases ask_cases q e context installed now with ⟨hin, heq⟩ | ⟨hnew, -, heq⟩ |
      ⟨-, -, heq⟩ <;> rw [heq, line_insert]
    · by_cases hq : q = p
      · subst hq
        rw [if_pos rfl, if_neg fun h => h.2.2 hin]
        simp
      · rw [if_neg hq, if_neg fun h => hq h.1]
        simp
    · by_cases hq : q = p
      · subst hq
        rw [if_pos rfl, if_pos ⟨rfl, rfl, hnew⟩]
        rfl
      · rw [if_neg hq, if_neg fun h => hq h.1]
        simp
    · have hgo : ¬ (q = p ∧ Asked.go = .waits ∧ e ∉ entities installs p) := fun h => nomatch h.2.1
      dsimp only
      rw [if_neg hgo]
      by_cases hq : q = p
      · subst hq
        rw [if_pos rfl]
        simp
      · rw [if_neg hq]
        simp
  | heard order e state now =>
    have hall : ((installs.line p).waiting.filter fun entry =>
        !ends installs p entry.1 (.heard order e state now)) = (installs.line p).waiting :=
      List.filter_eq_self.mpr fun _ _ => rfl
    rw [hall]
    refine (heard_same installs p order e state now).1.trans ?_
    simp [joins]
  | next q e installed now =>
    unfold joins
    dsimp only
    rw [Option.toList_none, List.append_nil]
    unfold Installs.step ends
    dsimp only
    rcases next_cases installs q e installed now with ⟨-, heq⟩ | ⟨-, hwait, heq⟩ |
      ⟨x, context, waiting, -, hwait, heq⟩ <;> rw [heq]
    · exact (List.filter_eq_self.mpr (by simp)).symm
    · rw [line_insert]
      split
      · next hq =>
        subst hq
        rw [hwait]
        rfl
      · exact (List.filter_eq_self.mpr (by simp)).symm
    · rw [line_insert]
      split
      · next hq =>
        subst hq
        have honce := (h.once q).of_append_right
        rw [hwait, List.map_cons, List.nodup_cons] at honce
        rw [hwait, List.filter_cons_of_neg (by simp)]
        refine (List.filter_eq_self.mpr fun entry hentry => ?_).symm
        have hmem : entry.1 ∈ waiting.map Prod.fst := List.mem_map_of_mem hentry
        have hne : x ≠ entry.1 := fun hx => honce.1 (by rw [hx]; exact hmem)
        simp [hne]
      · next hq =>
        refine (List.filter_eq_self.mpr fun entry _ => ?_).symm
        simp [hq]
  | watch q e now =>
    have hall : ((installs.line p).waiting.filter fun entry =>
        !ends installs p entry.1 (.watch q e now)) = (installs.line p).waiting :=
      List.filter_eq_self.mpr fun _ _ => rfl
    rw [hall]
    simp [joins, Installs.step]
  | leave e =>
    change ((installs.leave e).1.line p).waiting = _
    rw [line_leave]
    simp only [joins, Option.toList_none, List.append_nil]
    refine List.filter_congr fun entry _ => ?_
    simp [ends, eq_comm]
  | forget q =>
    change (Installs.line (installs.erase q) p).waiting = _
    rw [line_erase]
    simp only [joins, Option.toList_none, List.append_nil]
    by_cases hq : q = p
    · rw [if_pos hq]
      simp [ends, hq]
    · rw [if_neg hq]
      simp [ends, hq]

variable (ops : List Op)

def joined (p : ProtocolId) (k : ℕ) : Option (EntityId × Context) :=
  (ops[k]?).bind (joins (after ops k) p)

def ended (p : ProtocolId) (e : EntityId) (k : ℕ) : Bool :=
  (ops[k]?).any (ends (after ops k) p e)

def pending (p : ProtocolId) (n k : ℕ) : Option (EntityId × Context) :=
  (joined ops p k).filter fun entry =>
    (List.range n).all fun j => decide (j ≤ k) || !ended ops p entry.1 j

variable {ops}

lemma after_succ {n : ℕ} {op : Op} (h : ops[n]? = some op) :
    after ops (n + 1) = (after ops n).step op := by
  unfold after
  rw [List.take_add_one, h, Option.toList_some, List.foldl_append]
  rfl

lemma after_inLine (ops : List Op) (n : ℕ) : InLine (after ops n) := by
  induction n with
  | zero =>
    refine ⟨fun p hp => absurd rfl hp, fun p => List.nodup_nil⟩
  | succ n ih =>
    cases hop : ops[n]? with
    | none =>
      have hlen : ops.length ≤ n := List.getElem?_eq_none_iff.mp hop
      unfold after at ih ⊢
      rw [List.take_of_length_le (by omega)] at ih ⊢
      exact ih
    | some op =>
      rw [after_succ hop]
      exact step_inLine ih op

lemma pending_succ {n k : ℕ} (hk : k < n) : pending ops p (n + 1) k =
    (pending ops p n k).filter fun entry => !ended ops p entry.1 n := by
  unfold pending
  rw [Option.filter_filter]
  refine congrArg (fun f => (joined ops p k).filter f) (funext fun entry => ?_)
  rw [List.range_succ, List.all_append, List.all_cons, List.all_nil, Bool.and_true,
    decide_eq_false (by omega), Bool.false_or]

lemma filterMap_range_head {α : Type} {f : ℕ → Option α} {n : ℕ} {x : α} {rest : List α}
    (h : (List.range n).filterMap f = x :: rest) :
    ∃ k < n, (∀ k' < k, f k' = none) ∧ f k = some x := by
  obtain ⟨before, k, after, hrange, hnone, hk, -⟩ := List.filterMap_eq_cons_iff.mp h
  have hmem : ∀ i, i ∈ before ++ k :: after ↔ i < n := by
    intro i
    rw [← hrange, List.mem_range]
  have hsorted : (before ++ k :: after).Pairwise (· < ·) := hrange ▸ List.pairwise_lt_range
  have hafter := (List.pairwise_append.mp hsorted).2.1
  rw [List.pairwise_cons] at hafter
  have hkn := (hmem k).mp (by simp)
  refine ⟨k, hkn, fun k' hk' => ?_, hk⟩
  rcases List.mem_append.mp ((hmem k').mpr (by omega)) with hbefore | hrest
  · exact hnone k' hbefore
  · rcases List.mem_cons.mp hrest with rfl | hrest
    · exact absurd hk' (Nat.lt_irrefl _)
    · exact absurd (hafter.1 k' hrest) (by omega)

lemma pending_self (n : ℕ) : pending ops p (n + 1) n = joined ops p n := by
  have hall : ∀ entry : EntityId × Context, ((List.range (n + 1)).all fun j =>
      decide (j ≤ n) || !ended ops p entry.1 j) = true := fun entry =>
    List.all_eq_true.mpr fun j hj => by
      rw [decide_eq_true (Nat.lt_succ_iff.mp (List.mem_range.mp hj)), Bool.true_or]
  unfold pending
  cases joined ops p n with
  | none => rfl
  | some entry => rw [Option.filter_some, if_pos (hall entry)]

lemma pending_iff {n k : ℕ} {entry : EntityId × Context} : pending ops p n k = some entry ↔
    joined ops p k = some entry ∧ ∀ j, k < j → j < n → ended ops p entry.1 j = false := by
  unfold pending
  rw [Option.filter_eq_some_iff, List.all_eq_true]
  refine and_congr_right fun _ => ⟨fun h j hk hn => ?_, fun h j hj => ?_⟩
  · have hj := h j (List.mem_range.mpr hn)
    rw [decide_eq_false (by omega), Bool.false_or, Bool.not_eq_true'] at hj
    exact hj
  · by_cases hk : j ≤ k
    · rw [decide_eq_true hk, Bool.true_or]
    · rw [h j (by omega) (List.mem_range.mp hj), Bool.not_false, Bool.or_true]

lemma waiting_eq {n : ℕ} (hn : n ≤ ops.length) (p : ProtocolId) :
    ((after ops n).line p).waiting = (List.range n).filterMap (pending ops p n) := by
  induction n with
  | zero => rfl
  | succ n ih =>
    obtain ⟨op, hop⟩ : ∃ op, ops[n]? = some op := ⟨ops[n], List.getElem?_eq_getElem (by omega)⟩
    rw [after_succ hop, step_waiting (after_inLine ops n), ih (by omega), List.range_succ,
      List.filterMap_append]
    congr 1
    · rw [List.filter_filterMap]
      refine List.filterMap_congr fun k hk => ?_
      rw [pending_succ (List.mem_range.mp hk)]
      unfold ended
      rw [hop]
      rfl
    · rw [List.filterMap_cons, pending_self]
      unfold joined
      rw [hop, Option.bind_some]
      cases joins (after ops n) p op <;> rfl

lemma step_entities {op : Op} {e : EntityId} (h : e ∈ entities (installs.step op) p) :
    e ∈ entities installs p ∨ ∃ context installed now, op = .ask p e context installed now := by
  cases op with
  | ask q x context installed now =>
    have hline : ∀ line : Line, e ∈ entities (Std.ExtTreeMap.insert installs q line) p →
        (q = p ∧ (line.running.map (·.entityId) = some e ∨ e ∈ line.waiting.map Prod.fst)) ∨
          e ∈ entities installs p := by
      intro line hin
      unfold entities at hin
      rw [line_insert] at hin
      split at hin
      · next hq =>
        rw [List.mem_append, Option.mem_toList] at hin
        exact .inl ⟨hq, hin⟩
      · exact .inr hin
    change e ∈ entities (installs.ask q x context installed now).1 p at h
    rcases ask_cases q x context installed now with ⟨-, heq⟩ | ⟨-, -, heq⟩ | ⟨-, -, heq⟩ <;>
      rw [heq] at h <;> rcases hline _ h with ⟨rfl, hin⟩ | hin <;> try exact .inl hin
    · refine .inl ?_
      unfold entities
      rw [List.mem_append, Option.mem_toList]
      exact hin
    · rw [List.map_append, List.mem_append] at hin
      have hin : ((installs.line q).running.map (·.entityId) = some e ∨
          e ∈ (installs.line q).waiting.map Prod.fst) ∨ e = x := by
        rcases hin with hin | hin | hin
        · exact .inl (.inl hin)
        · exact .inl (.inr hin)
        · exact .inr (by simpa using hin)
      rcases hin with hin | rfl
      · refine .inl ?_
        unfold entities
        rw [List.mem_append, Option.mem_toList]
        exact hin
      · exact .inr ⟨_, _, _, rfl⟩
    · rcases hin with hin | hin
      · obtain rfl : x = e := Option.some.inj hin
        exact .inr ⟨_, _, _, rfl⟩
      · refine .inl ?_
        unfold entities
        rw [List.mem_append, Option.mem_toList]
        exact .inr hin
  | heard order x state now =>
    have hsame := heard_same installs p order x state now
    rw [← entities_congr hsame.1 hsame.2]
    exact .inl h
  | next q x installed now =>
    refine .inl ?_
    change e ∈ entities (installs.next q x installed now).1 p at h
    rcases next_cases installs q x installed now with ⟨-, heq⟩ | ⟨-, -, heq⟩ |
      ⟨y, context, waiting, -, hwait, heq⟩ <;> rw [heq] at h
    · exact h
    · unfold entities at h
      rw [line_insert] at h
      split at h
      · simp at h
      · exact h
    · unfold entities at h
      rw [line_insert] at h
      split at h
      · next hq =>
        subst hq
        unfold entities
        rw [hwait, List.map_cons]
        exact List.mem_append_right _ h
      · exact h
  | watch q x now => exact .inl h
  | leave x =>
    change e ∈ entities (installs.leave x).1 p at h
    unfold entities at h
    rw [line_leave] at h
    exact .inl (((List.filter_sublist.map Prod.fst).append_left _).subset h)
  | forget q =>
    change e ∈ entities (Std.ExtTreeMap.erase installs q) p at h
    unfold entities at h
    rw [line_erase] at h
    split at h
    · simp at h
    · exact .inl h

/-- What holds of the lines, whatever is called: something waits only behind what runs, nothing is
in a line twice, and what is handed out is the first that was asked for and hasn't been ended. -/
structure Orderly (ops : List Op) : Prop where
  behind : ∀ n p, ((after ops n).line p).waiting ≠ [] →
    ((after ops n).line p).running.isSome = true
  once : ∀ n p, (entities (after ops n) p).Nodup
  /-- The wait that is handed out is the first of those begun and not ended. -/
  sent : ∀ n p x installed now entry, ops[n]? = some (.next p x installed now) →
    ((after ops n).next p x installed now).2 = some entry →
      ∃ k < n, pending ops p n k = some entry ∧ (∀ k' < k, pending ops p n k' = none) ∧
        ∀ m, n < m → pending ops p m k = none
  /-- A wait goes on until it is handed out, left or forgotten. -/
  goesOn : ∀ n ≤ ops.length, ∀ k < n, ∀ p entry, joined ops p k = some entry →
    entry ∈ ((after ops n).line p).waiting ∨ ∃ j, k < j ∧ j < n ∧ ended ops p entry.1 j = true
  heard : ∀ n p order e state now, ((after ops n).heard order e state now).2 = some p →
    ((after ops n).line p).running.map (·.entityId) = some e
  stale : ∀ n p e installed now, ((after ops n).line p).running.map (·.entityId) ≠ some e →
    (after ops n).next p e installed now = (after ops n, none)
  /-- Where every entity is asked for on one protocol only, it is in one line only. -/
  apart : ∀ owner : EntityId → ProtocolId,
    (∀ p e context installed now, .ask p e context installed now ∈ ops → owner e = p) →
      ∀ n p q e, e ∈ entities (after ops n) p → e ∈ entities (after ops n) q → p = q

namespace Sample

def zigbee : ProtocolId := ⟨"zigbee", by decide⟩
def mqtt : ProtocolId := ⟨"mqtt", by decide⟩
def plug : EntityId := ⟨"update.plug", by decide⟩
def bulb : EntityId := ⟨"update.bulb", by decide⟩
def context : Context := ⟨ulid 0 0, none, .system⟩

def twice : List Op := [.ask zigbee plug context none 0, .ask zigbee bulb context none 1,
  .ask mqtt bulb context none 2]

end Sample

end Irori.Core.Installs
