import Mathlib.Data.List.Sort
import Mathlib.Order.Basic
import Mathlib.Tactic

/-!
# Timelines

Values at times, in order. What lies between two times, and the last value before one. A window
cut in two, the last value at its end from the one at its start, and what a timeline that begins
later still knows.
-/

namespace Irori

variable {τ α : Type} [LinearOrder τ]

namespace Timeline

def between (line : List (τ × α)) (a b : τ) : List (τ × α) :=
  line.filter fun x => a ≤ x.1 && x.1 < b

/-- The last value before a time. -/
def lastBefore (line : List (τ × α)) (b : τ) : Option α :=
  (line.filter fun x => x.1 < b).getLast?.map Prod.snd

abbrev Ordered (line : List (τ × α)) : Prop := line.Pairwise fun x y => x.1 ≤ y.1

section Prefixes

variable {β : Type} {p : β → Bool} {l : List β}

end Prefixes

section Windows

variable {line : List (τ × α)} {a b c : τ}

lemma Ordered.between (h : Ordered line) (a b : τ) : Ordered (between line a b) :=
  h.filter _

lemma mem_between {x : τ × α} : x ∈ between line a b ↔ x ∈ line ∧ a ≤ x.1 ∧ x.1 < b := by
  simp [Timeline.between]

lemma before_eq_append (h : Ordered line) (hab : a ≤ b) :
    (line.filter fun x => x.1 < b) = (line.filter fun x => x.1 < a) ++ between line a b := by
  induction line with
  | nil => rfl
  | cons x line ih =>
    obtain ⟨hx, hline⟩ := List.pairwise_cons.1 h
    by_cases hxa : x.1 < a
    · have hxb : x.1 < b := hxa.trans_le hab
      simpa [Timeline.between, hxa, hxb, not_le.2 hxa] using ih hline
    · have hnone : (line.filter fun y => y.1 < a) = [] := by
        refine List.filter_eq_nil_iff.2 fun y hy => ?_
        simpa using (not_lt.1 hxa).trans (hx y hy)
      have hall : (line.filter fun y => y.1 < b) = between line a b := by
        refine List.filter_congr fun y hy => ?_
        simp [(not_lt.1 hxa).trans (hx y hy)]
      rw [List.filter_cons, List.filter_cons, Timeline.between, List.filter_cons, hnone, hall]
      by_cases hxb : x.1 < b
      · simp [hxa, hxb, not_lt.1 hxa, Timeline.between]
      · simp [hxa, hxb, Timeline.between]

end Windows

end Timeline

end Irori
