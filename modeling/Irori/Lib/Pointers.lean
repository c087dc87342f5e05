import Mathlib.Logic.Relation

/-!
# Pointers without loops

Things that each point to at most one other. Following the pointers never comes back as long as
what something new is pointed at doesn't already lead to it.
-/

namespace Pointers

open Relation

variable {α : Type}

def Follows (next : α → Option α) (a b : α) : Prop := next a = some b

/-- Following the pointers never comes back. -/
def NoLoop (next : α → Option α) : Prop := ∀ a : α, ¬ TransGen (Follows next) a a

variable {next next' : α → Option α}

lemma NoLoop.mono (h : NoLoop next) (hsub : ∀ a b : α, next' a = some b → next a = some b) :
    NoLoop next' := fun a hloop => h a (TransGen.mono hsub _ _ hloop)

lemma NoLoop.set (h : NoLoop next) {x : α} (hother : ∀ a : α, a ≠ x → next' a = next a)
    (hback : ∀ b : α, next' x = some b → ¬ ReflTransGen (Follows next) b x) : NoLoop next' := by
  have hstep : ∀ {a b : α}, Follows next' a b → Follows next a b ∨ a = x := by
    intro a b hab
    by_cases ha : a = x
    · exact .inr ha
    · exact .inl (by rwa [Follows, hother a ha] at hab)
  -- A path under the new pointers is an old one, or goes through the new pointer.
  have hpath : ∀ a b : α, TransGen (Follows next') a b →
      TransGen (Follows next) a b ∨ (ReflTransGen (Follows next) a x ∧
        ∃ c : α, next' x = some c ∧ ReflTransGen (Follows next) c b) := by
    intro a b hab
    induction hab with
    | single hab =>
      rcases hstep hab with hold | rfl
      · exact .inl (.single hold)
      · exact .inr ⟨.refl, _, hab, .refl⟩
    | @tail b c _ hbc ih =>
      rcases ih with hab | ⟨hax, d, hd, hdb⟩
      · rcases hstep hbc with hold | rfl
        · exact .inl (hab.tail hold)
        · exact .inr ⟨hab.to_reflTransGen, _, hbc, .refl⟩
      · rcases hstep hbc with hold | rfl
        · exact .inr ⟨hax, d, hd, hdb.tail hold⟩
        · exact absurd hdb (hback d hd)
  intro a hloop
  rcases hpath a a hloop with hold | ⟨hax, c, hc, hca⟩
  · exact h a hold
  · exact hback c hc (hca.trans hax)

lemma eq_of_reaches {x a : α} (hnone : ∀ b : α, next b ≠ some x)
    (h : ReflTransGen (Follows next) a x) : a = x := by
  rcases ReflTransGen.cases_tail h with heq | ⟨b, -, hb⟩
  · exact heq.symm
  · exact absurd hb (hnone b)

end Pointers
