import Mathlib.Data.List.Rotate

/-!
# Outlines

A list of corners is the outline of a shape, the last joined back to the first. What is counted of
its edges, odd or even, is the same from whichever corner it starts and whichever way round it goes,
and of two shapes joined along some corners it is what is counted of one and of the other.
-/

namespace Irori.Outline

variable {α : Type} (f : α → α → Bool)

/-- Whether an odd number of the edges along some corners count. -/
def along : List α → Bool
  | a :: b :: l => xor (f a b) (along (b :: l))
  | _ => false

/-- Whether an odd number of the edges of an outline do. -/
def around : List α → Bool
  | [] => false
  | a :: l => along f (a :: l ++ [a])

variable {f} {a b c : α} {l m : List α}

@[simp] lemma along_pair : along f [a, b] = f a b := by simp [along]

lemma along_append (l m : List α) (a : α) :
    along f (l ++ a :: m) = xor (along f (l ++ [a])) (along f (a :: m)) := by
  induction l with
  | nil => simp [along]
  | cons b l ih =>
    cases l with
    | nil => simp [along]
    | cons c l =>
      simp only [List.cons_append, along] at ih ⊢
      rw [ih, Bool.xor_assoc]

lemma along_reverse (hf : ∀ a b, f a b = f b a) (l : List α) :
    along f l.reverse = along f l := by
  induction l with
  | nil => rfl
  | cons a l ih =>
    cases l with
    | nil => rfl
    | cons b l =>
      have hlast : ((b :: l).reverse ++ [a]) = l.reverse ++ b :: [a] := by simp
      rw [List.reverse_cons, hlast, along_append, ← List.reverse_cons, ih, along_pair, along, hf b a,
        Bool.xor_comm]

lemma around_cut (l m : List α) (a b : α) :
    around f (a :: l ++ b :: m) = xor (along f (a :: l ++ [b])) (along f (b :: m ++ [a])) := by
  have hlist : a :: l ++ b :: m ++ [a] = a :: l ++ b :: (m ++ [a]) := by simp
  rw [List.cons_append, around, ← List.cons_append, hlist, along_append]
  rfl

lemma around_isRotated (h : l ~r m) : around f l = around f m := by
  have hone : ∀ l : List α, around f (l.rotate 1) = around f l := by
    intro l
    match l with
    | [] => rfl
    | [a] => rw [List.rotate_singleton]
    | a :: b :: l =>
      have hcut := around_cut (f := f) l [] b a
      have hfirst : around f (a :: b :: l) = xor (f a b) (along f (b :: l ++ [a])) := rfl
      rw [List.singleton_append, along_pair] at hcut
      rw [List.rotate_cons_succ, List.rotate_zero, hcut, hfirst, Bool.xor_comm]
  obtain ⟨n, rfl⟩ := h
  induction n with
  | zero => rw [List.rotate_zero]
  | succ n ih => rw [ih, ← List.rotate_rotate, hone]

lemma around_reverse (hf : ∀ a b, f a b = f b a) (l : List α) :
    around f l.reverse = around f l := by
  cases l with
  | nil => rfl
  | cons a l =>
    have hrotated : (l.reverse ++ [a]) ~r (a :: l.reverse) := by
      simpa using @List.isRotated_append _ l.reverse [a]
    have hreverse : a :: l.reverse ++ [a] = (a :: l ++ [a]).reverse := by simp
    rw [List.reverse_cons, around_isRotated hrotated, around, hreverse, along_reverse hf, around]

lemma around_insert (hedge : f a b = xor (f a c) (f c b)) (hnext : (l ++ [a]).head? = some b) :
    around f (a :: c :: l) = around f (a :: l) := by
  obtain ⟨m, hm⟩ : ∃ m, l ++ [a] = b :: m := by
    cases hl : l ++ [a] with
    | nil => simp [hl] at hnext
    | cons x m =>
      rw [hl] at hnext
      exact ⟨m, by rw [Option.some.inj hnext]⟩
  rw [around, around, List.cons_append, List.cons_append, List.cons_append, hm, along, along, along,
    hedge, Bool.xor_assoc]

lemma around_join (hf : ∀ a b, f a b = f b a) {run : List α} (l m : List α)
    (ha : run.head? = some a) (hb : run.getLast? = some b) :
    around f (b :: l ++ a :: m) = xor (around f (run ++ l)) (around f (run.reverse ++ m)) := by
  have hside : ∀ (run l : List α) (a b : α), run.head? = some a → run.getLast? = some b →
      around f (run ++ l) = xor (along f run) (along f (b :: l ++ [a])) := by
    intro run l a b ha hb
    obtain ⟨start, rfl⟩ := List.getLast?_eq_some_iff.1 hb
    cases start with
    | nil =>
      obtain rfl : b = a := by simpa using ha
      simp [around, along]
    | cons x start =>
      obtain rfl : x = a := by simpa using ha
      have hlist : x :: start ++ [b] ++ l = x :: start ++ b :: l := by simp
      rw [hlist, around_cut]
  have hreverse := hside run.reverse m b a (by rw [List.head?_reverse, hb])
    (by rw [List.getLast?_reverse, ha])
  rw [along_reverse hf] at hreverse
  rw [around_cut, hside run l a b ha hb, hreverse]
  cases along f run <;> simp

end Irori.Outline
