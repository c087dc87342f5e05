import Mathlib.Data.List.Basic

/-!
# Taking away from a list

What is taken away from a list from the far end back is what is named by place, and nothing is
renumbered on the way.
-/

namespace Irori.Erasing

variable {α : Type}

/-- The elements in some places, the first of the list at this one. -/
def keepFrom (p : Nat → Bool) : Nat → List α → List α
  | _, [] => []
  | n, a :: l => if p n then a :: keepFrom p (n + 1) l else keepFrom p (n + 1) l

def keep (p : Nat → Bool) (l : List α) : List α := keepFrom p 0 l

variable {p q : Nat → Bool} {n : Nat} {l m : List α}

lemma keepFrom_append : keepFrom p n (l ++ m) = keepFrom p n l ++ keepFrom p (n + l.length) m := by
  induction l generalizing n with
  | nil => simp [keepFrom]
  | cons a l ih =>
    have hplace : n + 1 + l.length = n + (a :: l).length := by simp; omega
    simp only [List.cons_append, keepFrom, ih, hplace]
    split <;> rfl

lemma keepFrom_congr (h : ∀ i, n ≤ i → i < n + l.length → p i = q i) :
    keepFrom p n l = keepFrom q n l := by
  induction l generalizing n with
  | nil => rfl
  | cons a l ih =>
    rw [keepFrom, keepFrom, h n (Nat.le_refl n) (by simp),
      ih fun i hle hlt => h i (by omega) (by simp; omega)]

lemma keepFrom_all (h : ∀ i, n ≤ i → p i = true) : keepFrom p n l = l := by
  induction l generalizing n with
  | nil => rfl
  | cons a l ih => rw [keepFrom, if_pos (h n (Nat.le_refl n)), ih fun i hle => h i (by omega)]

lemma keep_congr (h : ∀ i < l.length, p i = q i) : keep p l = keep q l :=
  keepFrom_congr fun i _ hlt => h i (by simpa using hlt)

lemma foldl_eraseIdx {gone : List Nat} (hgone : gone.Pairwise (· > ·))
    (hlt : ∀ i ∈ gone, i < l.length) :
    gone.foldl List.eraseIdx l = keep (fun i => i ∉ gone) l := by
  induction gone generalizing l with
  | nil => exact (keepFrom_all fun i _ => by simp).symm
  | cons i gone ih =>
    obtain ⟨hfar, hrest⟩ := List.pairwise_cons.1 hgone
    have hi := hlt i List.mem_cons_self
    obtain ⟨before, a, after, rfl, rfl⟩ : ∃ before a after,
        l = before ++ a :: after ∧ i = before.length :=
      ⟨l.take i, l[i], l.drop (i + 1), by simp, by simp; omega⟩
    have herase : (before ++ a :: after).eraseIdx before.length = before ++ after := by
      rw [List.eraseIdx_append_of_length_le (Nat.le_refl _)]
      simp
    have hshort : ∀ j ∈ gone, j < (before ++ after).length := by
      intro j hj
      have hlt := hfar j hj
      rw [List.length_append]
      omega
    rw [List.foldl_cons, herase, ih hrest hshort, keep, keep, keepFrom_append, keepFrom_append,
      Nat.zero_add, keepFrom, if_neg (by simp)]
    congr 1
    · refine keepFrom_congr fun j _ hj => ?_
      have hne : j ≠ before.length := by omega
      simp [hne]
    · rw [keepFrom_all fun j hj => ?_, keepFrom_all fun j hj => ?_]
      · have hnot : j ∉ gone := fun hmem => absurd (hfar j hmem) (by omega)
        have hne : j ≠ before.length := by omega
        simp [hnot, hne]
      · have hnot : j ∉ gone := fun hmem => absurd (hfar j hmem) (by omega)
        simp [hnot]

end Irori.Erasing
