import Mathlib.Data.List.DropRight

/-!
# Words with separators between them

Lists in which a separator stands between words: none at the start, none at the end, and no two in a
row. Cutting such a list short and dropping the separators left at its end keeps it so, and so does
adding another word.
-/

namespace Words

variable {α : Type}

/-- Separators are only found inside, one at a time. -/
structure Separated (sep : α) (l : List α) : Prop where
  starts : l.head? ≠ some sep
  ends : l.getLast? ≠ some sep
  single : ∀ before after : List α, l ≠ before ++ sep :: sep :: after

lemma separated_nil (sep : α) : Separated sep [] := by
  constructor <;> simp

lemma separated_word {sep : α} {l : List α} (h : sep ∉ l) : Separated sep l where
  starts hhead := h (List.mem_of_head? hhead)
  ends hlast := h (List.mem_of_getLast? hlast)
  single before after heq := h (by rw [heq]; simp)

lemma separated_trimmed [DecidableEq α] {sep : α} {l : List α} (h : Separated sep l) (n : Nat) :
    Separated sep ((l.take n).rdropWhile (· == sep)) := by
  have hprefix : (l.take n).rdropWhile (· == sep) <+: l :=
    (List.rdropWhile_prefix _ _).trans (List.take_prefix n l)
  obtain ⟨rest, hrest⟩ := hprefix
  refine ⟨fun hhead => h.starts ?_, fun hlast => ?_, fun before after heq => ?_⟩
  · rw [← hrest, List.head?_append, hhead]
    rfl
  · have hne : (l.take n).rdropWhile (· == sep) ≠ [] := by
      intro hnil
      rw [hnil] at hlast
      simp at hlast
    have hnot := List.rdropWhile_last_not (· == sep) (l.take n) hne
    rw [List.getLast?_eq_some_getLast hne, Option.some.injEq] at hlast
    simp [hlast] at hnot
  · refine h.single before (after ++ rest) ?_
    rw [← hrest, heq]
    simp

lemma separated_concat {sep x : α} {l : List α} (h : Separated sep l) (hx : x ≠ sep) :
    Separated sep (l ++ [x]) := by
  refine ⟨?_, ?_, ?_⟩
  · cases l with
    | nil => simpa using hx
    | cons y l => exact h.starts
  · simpa using hx
  · intro before after heq
    rcases List.eq_nil_or_concat after with rfl | ⟨after, y, rfl⟩
    · rw [show before ++ [sep, sep] = (before ++ [sep]) ++ [sep] by simp] at heq
      exact hx (List.singleton_inj.mp (List.append_inj_right' heq rfl))
    · refine h.single before after ?_
      rw [List.concat_eq_append, show before ++ sep :: sep :: (after ++ [y]) =
        (before ++ sep :: sep :: after) ++ [y] by simp] at heq
      exact List.append_inj_left' heq rfl

lemma separated_append {sep : α} {l r : List α} (hl : Separated sep l) (hr : Separated sep r)
    (hlne : l ≠ []) (hrne : r ≠ []) : Separated sep (l ++ sep :: r) := by
  refine ⟨?_, ?_, ?_⟩
  · rw [List.head?_append_of_ne_nil _ hlne]
    exact hl.starts
  · rw [List.getLast?_append_of_ne_nil _ (List.cons_ne_nil _ _), List.getLast?_cons_of_ne_nil hrne]
    exact hr.ends
  · intro before after heq
    rcases List.append_eq_append_iff.mp heq with ⟨a, rfl, ha⟩ | ⟨c, hc, hac⟩
    · cases a with
      | nil =>
        rw [List.nil_append, List.cons.injEq] at ha
        exact hr.starts (by rw [ha.2]; rfl)
      | cons x a =>
        rw [List.cons_append, List.cons.injEq] at ha
        exact hr.single a after ha.2
    · cases c with
      | nil =>
        rw [List.nil_append, List.cons.injEq] at hac
        exact hr.starts (by rw [← hac.2]; rfl)
      | cons x c =>
        rw [List.cons_append, List.cons.injEq] at hac
        obtain ⟨rfl, hac⟩ := hac
        cases c with
        | nil => exact hl.ends (by rw [hc]; simp)
        | cons y c =>
          rw [List.cons_append, List.cons.injEq] at hac
          obtain ⟨rfl, -⟩ := hac
          exact hl.single before c hc

lemma trimmed_ne_nil [DecidableEq α] {sep : α} {l : List α} (h : Separated sep l) (hne : l ≠ [])
    {n : Nat} (hn : 0 < n) : (l.take n).rdropWhile (· == sep) ≠ [] := by
  obtain ⟨x, l, rfl⟩ := List.exists_cons_of_ne_nil hne
  obtain ⟨n, rfl⟩ := Nat.exists_eq_succ_of_ne_zero (Nat.pos_iff_ne_zero.mp hn)
  rw [List.take_succ_cons]
  intro hnil
  rw [List.rdropWhile_eq_nil_iff] at hnil
  have hx := hnil x List.mem_cons_self
  exact h.starts (by rw [List.head?_cons, beq_iff_eq.mp hx])

lemma mem_of_mem_trimmed {p : α → Bool} {l : List α} {n : Nat} {x : α}
    (h : x ∈ (l.take n).rdropWhile p) : x ∈ l :=
  List.mem_of_mem_take ((List.rdropWhile_prefix p _).subset h)

lemma length_trimmed_le (p : α → Bool) (l : List α) (n : Nat) :
    ((l.take n).rdropWhile p).length ≤ n :=
  (List.rdropWhile_prefix p _).length_le.trans (List.length_take_le n l)

end Words
