import Irori.Sample

/-!
# What a condition's answer is worth

A leaf whose own evaluation is an error (an unavailable entity, a missing one, no time zone) says
nothing. Whether the answer for a whole condition holds whatever those leaves might have said
depends on how `all`, `any` and `not` are nested around them: an error inside an `any` counts as a
child that doesn't hold, and a `not` above it turns that around.
-/

namespace Irori.Proofs

open Irori

/-- Induction over conditions, with every child of an `all` or `any` at hand. -/
theorem Condition.induct {P : Condition → Prop}
    (state : ∀ entity field is availability, P (.state entity field is availability))
    (expr : ∀ source, P (.expr source))
    (time : ∀ after before weekday, P (.time after before weekday))
    (sun : ∀ after before offset afterOffset beforeOffset,
      P (.sun after before offset afterOffset beforeOffset))
    (all : ∀ cs : List Condition, (∀ c ∈ cs, P c) → P (.all cs))
    (any : ∀ cs : List Condition, (∀ c ∈ cs, P c) → P (.any cs))
    (not : ∀ c : Condition, P c → P (.not c)) (c : Condition) : P c := by
  refine @Condition.rec P (fun cs => ∀ c ∈ cs, P c) state expr time sun all any not
    (by simp) ?_ c
  intro c cs hc hcs d hd
  rcases List.mem_cons.mp hd with rfl | hd
  · exact hc
  · exact hcs d hd

section

variable (env : Env) (place : Option Place) (snapshot : Snapshot)

section

variable (assign : List Nat → Bool)

mutual

/-- The Boolean value of a condition where a leaf that can't be evaluated is worth what `assign`
says for its place in the condition. -/
def truth : Condition → List Nat → Bool
  | .all conditions, path => (truths conditions path 0).all id
  | .any conditions, path => (truths conditions path 0).any id
  | .not condition, path => !truth condition (0 :: path)
  | leaf, path =>
    match (evalCondition env place leaf snapshot).result with
    | .ok holds => holds
    | .error _ => assign path

def truths : List Condition → List Nat → Nat → List Bool
  | [], _, _ => []
  | condition :: rest, path, i => truth condition (i :: path) :: truths rest path (i + 1)

end

lemma mem_truths {conditions : List Condition} {path : List Nat} {i : Nat} {b : Bool}
    (h : b ∈ truths env place snapshot assign conditions path i) :
    ∃ c ∈ conditions, ∃ p : List Nat, truth env place snapshot assign c p = b := by
  induction conditions generalizing i with
  | nil => simp [truths] at h
  | cons c cs ih =>
    rw [truths, List.mem_cons] at h
    rcases h with rfl | h
    · exact ⟨c, by simp, _, rfl⟩
    · obtain ⟨d, hd, p, hp⟩ := ih h
      exact ⟨d, by simp [hd], p, hp⟩

lemma truth_mem_truths {conditions : List Condition} (path : List Nat) (i : Nat) {c : Condition}
    (h : c ∈ conditions) :
    ∃ p : List Nat, truth env place snapshot assign c p ∈
      truths env place snapshot assign conditions path i := by
  induction conditions generalizing i with
  | nil => simp at h
  | cons d ds ih =>
    rw [truths]
    rcases List.mem_cons.mp h with rfl | h
    · exact ⟨_, List.mem_cons_self⟩
    · obtain ⟨p, hp⟩ := ih (i + 1) h
      exact ⟨p, List.mem_cons_of_mem _ hp⟩

end

def unanswered (children : List (Outcome Bool)) : Bool :=
  !children.any Outcome.holds && children.any fun child => child.error?.isSome

mutual

/-- Whether an unanswered `any` stands under an odd number of `not`s, or under an even one. -/
def swallows : Condition → Bool → Bool
  | .all conditions, odd => swallowsIn conditions odd
  | .any conditions, odd =>
    (!odd && unanswered (evalConditions env place conditions snapshot)) ||
      swallowsIn conditions odd
  | .not condition, odd => swallows condition (!odd)
  | _, _ => false

def swallowsIn : List Condition → Bool → Bool
  | [], _ => false
  | condition :: rest, odd => swallows condition odd || swallowsIn rest odd

end

lemma swallowsIn_eq_false {conditions : List Condition} {odd : Bool}
    (h : swallowsIn env place snapshot conditions odd = false) :
    ∀ c ∈ conditions, swallows env place snapshot c odd = false := by
  induction conditions with
  | nil => simp
  | cons c cs ih =>
    rw [swallowsIn, Bool.or_eq_false_iff] at h
    intro d hd
    rcases List.mem_cons.mp hd with rfl | hd
    · exact h.1
    · exact ih h.2 d hd

lemma combine_decided (all : Bool) {children : List (Outcome Bool)}
    (h : (combine all children).result = .ok (!all)) :
    ∃ child ∈ children, child.result = .ok (!all) := by
  unfold combine at h
  dsimp only at h
  split at h
  · next hdecided =>
    obtain ⟨child, hmem, hchild⟩ := List.any_eq_true.mp hdecided
    refine ⟨child, hmem, ?_⟩
    cases hresult : child.result with
    | error e => simp [hresult] at hchild
    | ok holds =>
      rw [hresult] at hchild
      cases holds <;> cases all <;> simp at hchild ⊢
  · split at h <;> simp at h
  · simp at h

lemma combine_undecided {all : Bool} {children : List (Outcome Bool)}
    (h : (combine all children).result = .ok all) :
    (∀ child ∈ children, child.result ≠ .ok (!all)) ∧
      (all = true → ∀ child ∈ children, child.error? = none) := by
  unfold combine at h
  dsimp only at h
  have hnone (holds : Bool) (hd : (children.any fun child =>
      match child.result with
      | .ok holds => holds != all
      | .error _ => false) = false) (child : Outcome Bool) (hmem : child ∈ children) :
      child.result ≠ .ok (!all) := by
    intro hresult
    have := List.any_eq_false.mp hd child hmem
    rw [hresult] at this
    simp at this
  split at h
  · simp at h
  · next error hdecided herror =>
    refine ⟨hnone all hdecided, fun hall => ?_⟩
    simp [hall] at h
  · next hdecided herror =>
    refine ⟨hnone all hdecided, fun _ child hmem => ?_⟩
    exact List.findSome?_eq_none_iff.mp herror child hmem

lemma result_of_not_error {child : Outcome Bool} {b : Bool} (herror : child.error? = none)
    (h : child.result ≠ .ok (!b)) : child.result = .ok b := by
  cases hresult : child.result with
  | error e => simp [Outcome.error?, hresult] at herror
  | ok holds => cases holds <;> cases b <;> simp_all

/-- An answer holds whatever the leaves that can't be evaluated might have said, so long as no
unanswered `any` stands where it could have changed it: under an odd number of `not`s for a yes,
under an even number for a no. So without a `not` above such an `any`, an unavailable sensor is
never what makes a condition hold. -/
theorem evalCondition_sound (c : Condition) (b : Bool)
    (hanswer : (evalCondition env place c snapshot).result = .ok b)
    (hswallows : swallows env place snapshot c b = false)
    (assign : List Nat → Bool) (path : List Nat) :
    truth env place snapshot assign c path = b := by
  induction c using Condition.induct generalizing b path with
  | state entity field is availability => rw [truth, hanswer] <;> simp
  | expr source => rw [truth, hanswer] <;> simp
  | time after before weekday => rw [truth, hanswer] <;> simp
  | sun after before offset afterOffset beforeOffset => rw [truth, hanswer] <;> simp
  | all cs ih =>
    rw [evalCondition, evalConditions_eq_map] at hanswer
    rw [swallows] at hswallows
    have hchildren := swallowsIn_eq_false env place snapshot hswallows
    rw [truth]
    cases b with
    | true =>
      obtain ⟨hno, herror⟩ := combine_undecided hanswer
      rw [List.all_eq_true]
      intro value hvalue
      obtain ⟨c, hc, p, rfl⟩ := mem_truths env place snapshot assign hvalue
      have hmem := List.mem_map_of_mem (f := (evalCondition env place · snapshot)) hc
      exact ih c hc true (result_of_not_error (herror rfl _ hmem) (hno _ hmem)) (hchildren c hc) p
    | false =>
      obtain ⟨child, hmem, hchild⟩ := combine_decided true hanswer
      obtain ⟨c, hc, rfl⟩ := List.mem_map.mp hmem
      obtain ⟨p, hp⟩ := truth_mem_truths env place snapshot assign path 0 hc
      rw [ih c hc false hchild (hchildren c hc) p] at hp
      exact List.all_eq_false.mpr ⟨false, hp, by simp⟩
  | any cs ih =>
    rw [evalCondition, evalConditions_eq_map] at hanswer
    rw [swallows, Bool.or_eq_false_iff] at hswallows
    have hchildren := swallowsIn_eq_false env place snapshot hswallows.2
    rw [truth]
    cases b with
    | true =>
      obtain ⟨child, hmem, hchild⟩ := combine_decided false hanswer
      obtain ⟨c, hc, rfl⟩ := List.mem_map.mp hmem
      obtain ⟨p, hp⟩ := truth_mem_truths env place snapshot assign path 0 hc
      rw [ih c hc true hchild (hchildren c hc) p] at hp
      exact List.any_eq_true.mpr ⟨true, hp, rfl⟩
    | false =>
      obtain ⟨hno, -⟩ := combine_undecided hanswer
      rw [List.any_eq_false]
      intro value hvalue
      obtain ⟨c, hc, p, rfl⟩ := mem_truths env place snapshot assign hvalue
      have hmem := List.mem_map_of_mem (f := (evalCondition env place · snapshot)) hc
      -- No child holds, and the `any` is not unanswered, so none of them is an error.
      have herror : (evalCondition env place c snapshot).error? = none := by
        have hany := hswallows.1
        rw [evalConditions_eq_map, Bool.not_false, Bool.true_and, unanswered,
          Bool.and_eq_false_iff] at hany
        rcases hany with hholds | herrors
        · rw [Bool.not_eq_false', List.any_eq_true] at hholds
          obtain ⟨child, hchild, hholds⟩ := hholds
          have := hno child hchild
          cases hresult : child.result with
          | error e => simp [Outcome.holds, hresult] at hholds
          | ok holds => simp_all [Outcome.holds]
        · simpa using List.any_eq_false.mp herrors _ hmem
      have := ih c hc false (result_of_not_error herror (hno _ hmem)) (hchildren c hc) p
      simp [this]
  | not c ih =>
    rw [evalCondition] at hanswer
    rw [swallows] at hswallows
    rw [truth]
    cases hresult : (evalCondition env place c snapshot).result with
    | error e => simp [hresult, Except.map] at hanswer
    | ok holds =>
      have hb : b = !holds := by simpa [hresult, Except.map] using hanswer.symm
      rw [ih holds hresult (by rwa [hb, Bool.not_not] at hswallows), hb]

end

/-- `any` of an unavailable light meter reading 8 and of someone moving about: the meter can't
make it not hold. -/
theorem evalCondition_sound_any :
    truth (Sample.env []) none Sample.evening (fun _ => false)
      (.any [.state Sample.lux none (some (.number 8)) none,
        .state Sample.motion none (some (.bool true)) none]) [] = true :=
  evalCondition_sound (Sample.env []) none Sample.evening _ true (by decide)
    (by decide) _ _

/-- An answer need not hold whatever the unreadable leaves might have said: `not` over `any` of an
unavailable light meter reading 8 is answered yes, and it is no where the meter reads 8. -/
theorem not_any_unsound :
    ¬ ∀ (env : Env) (place : Option Place) (snapshot : Snapshot) (c : Condition) (b : Bool),
      (evalCondition env place c snapshot).result = .ok b →
        ∀ (assign : List Nat → Bool) (path : List Nat),
          truth env place snapshot assign c path = b := by
  intro h
  have hyes := h (Sample.env []) none Sample.evening
    (.not (.any [.state Sample.lux none (some (.number 8)) none])) true (by decide)
    (fun _ => true) []
  exact absurd hyes (by decide)

end Irori.Proofs
