import Irori.Rules.Document
import Mathlib.Data.List.TakeWhile

/-!
# Durations

What a person may write as a duration, and what it comes to: the texts that parse are the ones of
this form, and sticking to 64 bits on the way changes none of them.
-/

namespace Irori

inductive DurationUnit
  | days
  | hours
  | minutes
  | seconds
  | milliseconds

def DurationUnit.chars : DurationUnit → List Char
  | .days => ['d']
  | .hours => ['h']
  | .minutes => ['m']
  | .seconds => ['s']
  | .milliseconds => ['m', 's']

def DurationUnit.millis : DurationUnit → ℤ
  | .days => 24 * 60 * 60 * 1000
  | .hours => 60 * 60 * 1000
  | .minutes => 60 * 1000
  | .seconds => 1000
  | .milliseconds => 1

def DurationUnit.rank : DurationUnit → ℤ
  | .days => 0
  | .hours => 1
  | .minutes => 2
  | .seconds => 3
  | .milliseconds => 4

structure DurationPart where
  digits : List Char
  unit : DurationUnit
  nonempty : digits ≠ []
  decimal : ∀ c ∈ digits, c.isDigit

namespace DurationPart

def chars (part : DurationPart) : List Char := part.digits ++ part.unit.chars

def count (part : DurationPart) : ℕ :=
  Nat.ofDigits 10 (part.digits.map fun c => c.toNat - '0'.toNat).reverse

def millis (part : DurationPart) : ℤ := part.count * part.unit.millis

end DurationPart

structure WrittenDuration where
  sign : Option Bool
  parts : List DurationPart
  nonempty : parts ≠ []
  ordered : parts.Pairwise fun a b => a.unit.rank < b.unit.rank

namespace WrittenDuration

/-- A sign as it is written, if it is. -/
def signChars : Option Bool → List Char
  | none => []
  | some true => ['+']
  | some false => ['-']

def chars (written : WrittenDuration) : List Char :=
  signChars written.sign ++ written.parts.flatMap DurationPart.chars

def total (written : WrittenDuration) : ℤ := (written.parts.map DurationPart.millis).sum

def signed (written : WrittenDuration) : ℤ :=
  if written.sign = some false then -written.total else written.total

end WrittenDuration

namespace Proofs
open Irori

variable {text : String} {part : DurationPart} {parts : List DurationPart} {rest : List Char}
  {last total answer : ℤ}

lemma digitsValue_eq (digits : List Char) : digitsValue digits =
    (Nat.ofDigits 10 (digits.map fun c => c.toNat - '0'.toNat).reverse : ℕ) := by
  induction digits using List.reverseRecOn with
  | nil => rfl
  | append_singleton digits c ih =>
    unfold digitsValue at ih ⊢
    rw [List.foldl_append, ih]
    simp only [List.foldl_cons, List.foldl_nil, List.map_append, List.map_cons, List.map_nil,
      List.reverse_append, List.reverse_cons, List.reverse_nil, List.nil_append,
      List.singleton_append, Nat.ofDigits_cons]
    push_cast
    ring

lemma digitsValue_digits (part : DurationPart) : digitsValue part.digits = part.count :=
  digitsValue_eq part.digits

lemma millis_pos (unit : DurationUnit) : 1 ≤ unit.millis := by
  cases unit <;> decide

lemma partMillis_nonneg (part : DurationPart) : 0 ≤ part.millis :=
  mul_nonneg (by positivity) (by have := millis_pos part.unit; omega)

lemma count_le_millis (part : DurationPart) : (part.count : ℤ) ≤ part.millis :=
  le_mul_of_one_le_right (by positivity) (millis_pos part.unit)

lemma sum_nonneg (parts : List DurationPart) : 0 ≤ (parts.map DurationPart.millis).sum :=
  List.sum_nonneg (by simpa using fun part _ => partMillis_nonneg part)

lemma durationUnit_chars (unit : DurationUnit) (hrest : rest.head? ≠ some 's') :
    durationUnit (unit.chars ++ rest) = some (unit.millis, unit.rank, rest) := by
  cases unit with
  | minutes =>
    cases rest with
    | nil => rfl
    | cons c rest =>
      have hc : c ≠ 's' := by simpa using hrest
      simp only [DurationUnit.chars, List.singleton_append]
      unfold durationUnit
      split <;> simp_all [DurationUnit.millis, DurationUnit.rank]
  | days => rfl
  | hours => rfl
  | seconds => rfl
  | milliseconds => rfl

lemma durationUnit_eq {chars : List Char} {unitMs index : ℤ}
    (h : durationUnit chars = some (unitMs, index, rest)) :
    ∃ unit : DurationUnit, chars = unit.chars ++ rest ∧ unitMs = unit.millis ∧
      index = unit.rank := by
  unfold durationUnit at h
  split at h
  · cases h
    exact ⟨.milliseconds, rfl, rfl, rfl⟩
  · cases h
    exact ⟨.days, rfl, rfl, rfl⟩
  · cases h
    exact ⟨.hours, rfl, rfl, rfl⟩
  · cases h
    exact ⟨.minutes, rfl, rfl, rfl⟩
  · cases h
    exact ⟨.seconds, rfl, rfl, rfl⟩
  · cases h

lemma head_chars (unit : DurationUnit) : ∃ c chars, unit.chars = c :: chars ∧ ¬ c.isDigit := by
  cases unit <;> exact ⟨_, _, rfl, by decide⟩

lemma head_parts (parts : List DurationPart) :
    (parts.flatMap DurationPart.chars).head? ≠ some 's' := by
  cases parts with
  | nil => simp
  | cons part parts =>
    obtain ⟨c, digits, hdigits⟩ := List.exists_cons_of_ne_nil part.nonempty
    have hdigit : c.isDigit := part.decimal c (by simp [hdigits])
    rw [List.flatMap_cons, DurationPart.chars, hdigits]
    rintro h
    obtain rfl : c = 's' := by simpa using h
    exact absurd hdigit (by decide)

lemma takeWhile_chars (part : DurationPart) (rest : List Char) :
    (part.chars ++ rest).takeWhile Char.isDigit = part.digits := by
  obtain ⟨c, chars, hchars, hc⟩ := head_chars part.unit
  rw [DurationPart.chars, hchars, List.append_assoc,
    List.takeWhile_append_of_pos part.decimal, List.cons_append,
    List.takeWhile_cons_of_neg hc, List.append_nil]

lemma parts_nil (h : [] = parts.flatMap DurationPart.chars) : parts = [] := by
  cases parts with
  | nil => rfl
  | cons part parts =>
    obtain ⟨c, digits, hdigits⟩ := List.exists_cons_of_ne_nil part.nonempty
    simp [DurationPart.chars, hdigits] at h

lemma min_min_add {a b c : ℤ} (ha : 0 ≤ a) (hc : 0 ≤ c) :
    min i64Max (min i64Max (a + min i64Max b) + c) = min i64Max (a + (b + c)) := by
  unfold i64Max
  omega

lemma parseUnits_nil {fuel : ℕ} (hmax : total ≤ i64Max) :
    parseUnits text fuel [] last total = .ok answer ↔
      ∃ parts : List DurationPart, [] = parts.flatMap DurationPart.chars ∧
        (∀ part ∈ parts, last < part.unit.rank) ∧
        parts.Pairwise (fun a b => a.unit.rank < b.unit.rank) ∧
        (∀ part ∈ parts, (part.count : ℤ) ≤ i64Max) ∧
        answer = min i64Max (total + (parts.map DurationPart.millis).sum) := by
  have hnil : parseUnits text fuel [] last total = .ok total := by cases fuel <;> rfl
  rw [hnil, Except.ok.injEq]
  constructor
  · rintro rfl
    exact ⟨[], rfl, by simp, .nil, by simp, by simp [hmax]⟩
  · rintro ⟨parts, hparts, -, -, -, rfl⟩
    obtain rfl := parts_nil hparts
    simp [hmax]

lemma parseUnits_iff (text : String) (fuel : ℕ) : ∀ (remaining : List Char) (last total : ℤ),
    remaining.length ≤ fuel → 0 ≤ total → total ≤ i64Max →
    (parseUnits text fuel remaining last total = .ok answer ↔
      ∃ parts : List DurationPart, remaining = parts.flatMap DurationPart.chars ∧
        (∀ part ∈ parts, last < part.unit.rank) ∧
        parts.Pairwise (fun a b => a.unit.rank < b.unit.rank) ∧
        (∀ part ∈ parts, (part.count : ℤ) ≤ i64Max) ∧
        answer = min i64Max (total + (parts.map DurationPart.millis).sum)) := by
  induction fuel with
  | zero =>
    intro remaining last total hlength hnonneg hmax
    obtain rfl := List.length_eq_zero_iff.1 (Nat.le_zero.1 hlength)
    exact parseUnits_nil hmax
  | succ fuel ih =>
    intro remaining last total hlength hnonneg hmax
    cases remaining with
    | nil => exact parseUnits_nil hmax
    | cons c remaining =>
      constructor
      · intro h
        unfold parseUnits at h
        dsimp only at h
        split at h
        · cases h
        split at h
        · cases h
        split at h
        · cases h
        · next hempty hcount _ unitMs index rest hunit =>
          split at h
          · cases h
          · next hlast =>
            obtain ⟨unit, hchars, rfl, rfl⟩ := durationUnit_eq hunit
            let part : DurationPart := ⟨(c :: remaining).takeWhile Char.isDigit, unit,
              by simpa using hempty, fun d hd => List.mem_takeWhile_imp hd⟩
            have hremaining : c :: remaining = part.chars ++ rest := by
              rw [DurationPart.chars, List.append_assoc, ← hchars]
              exact (List.prefix_iff_eq_append.1 (List.takeWhile_prefix _)).symm
            have hle : (part.count : ℤ) ≤ i64Max := by
              rw [← digitsValue_digits]
              exact not_lt.1 hcount
            rw [show digitsValue ((c :: remaining).takeWhile Char.isDigit) * unit.millis =
              part.millis by rw [DurationPart.millis, ← digitsValue_digits]] at h
            rw [ih rest unit.rank _ ?_ ?_ (min_le_left _ _)] at h
            · obtain ⟨parts, rfl, hafter, hordered, hcounts, rfl⟩ := h
              refine ⟨part :: parts, hremaining, ?_, List.pairwise_cons.2 ⟨hafter, hordered⟩,
                by simpa using ⟨hle, hcounts⟩, ?_⟩
              · rintro other (_ | ⟨_, hother⟩)
                · exact not_le.1 hlast
                · exact (not_le.1 hlast).trans (hafter other hother)
              · rw [List.map_cons, List.sum_cons]
                exact min_min_add hnonneg (sum_nonneg parts)
            · have := congrArg List.length hremaining
              have := List.length_pos_iff.2 part.nonempty
              simp [DurationPart.chars] at *
              omega
            · have := partMillis_nonneg part
              unfold i64Max
              omega
      · rintro ⟨parts, hparts, hlast, hordered, hcounts, rfl⟩
        cases parts with
        | nil => simp at hparts
        | cons part parts =>
          rw [List.flatMap_cons] at hparts
          have hdigits : (c :: remaining).takeWhile Char.isDigit = part.digits := by
            rw [hparts, takeWhile_chars]
          have hdrop : (c :: remaining).drop part.digits.length =
              part.unit.chars ++ parts.flatMap DurationPart.chars := by
            rw [hparts, DurationPart.chars, List.append_assoc, List.drop_left]
          unfold parseUnits
          dsimp only
          rw [hdigits, hdrop, durationUnit_chars part.unit (head_parts parts),
            digitsValue_digits, if_neg (by simpa using part.nonempty),
            if_neg (not_lt.2 (hcounts part List.mem_cons_self))]
          dsimp only
          rw [if_neg (not_le.2 (hlast part List.mem_cons_self)), ih _ _ _ ?_ ?_ (min_le_left _ _)]
          · obtain ⟨hafter, hrest⟩ := List.pairwise_cons.1 hordered
            refine ⟨parts, rfl, hafter, hrest,
              fun other hother => hcounts other (List.mem_cons_of_mem _ hother), ?_⟩
            rw [List.map_cons, List.sum_cons]
            exact (min_min_add hnonneg (sum_nonneg parts)).symm
          · have := congrArg List.length hparts
            have := List.length_pos_iff.2 part.nonempty
            simp [DurationPart.chars] at *
            omega
          · have := partMillis_nonneg part
            rw [DurationPart.millis] at this
            unfold i64Max
            omega

def signOf : List Char → ℤ × List Char
  | '-' :: rest => (-1, rest)
  | '+' :: rest => (1, rest)
  | rest => (1, rest)

lemma signOf_eq (chars : List Char) : ∃ sign, chars = WrittenDuration.signChars sign ++
    (signOf chars).2 ∧ (signOf chars).1 = if sign = some false then -1 else 1 := by
  unfold signOf
  split
  · exact ⟨some false, rfl, rfl⟩
  · exact ⟨some true, rfl, rfl⟩
  · exact ⟨none, rfl, rfl⟩

lemma signOf_chars (written : WrittenDuration) : signOf written.chars =
    (if written.sign = some false then -1 else 1, written.parts.flatMap DurationPart.chars) := by
  obtain ⟨sign, parts, nonempty, ordered⟩ := written
  rcases sign with _ | _ | _
  · cases parts with
    | nil => exact absurd rfl nonempty
    | cons part parts =>
      obtain ⟨c, digits, hdigits⟩ := List.exists_cons_of_ne_nil part.nonempty
      have hdigit : c.isDigit := part.decimal c (by simp [hdigits])
      have hminus : c ≠ '-' := by
        rintro rfl
        exact absurd hdigit (by decide)
      have hplus : c ≠ '+' := by
        rintro rfl
        exact absurd hdigit (by decide)
      simp only [WrittenDuration.chars, WrittenDuration.signChars, List.nil_append,
        List.flatMap_cons, DurationPart.chars, hdigits, List.cons_append]
      unfold signOf
      split <;> simp_all
  · rfl
  · rfl

lemma parseMillis_eq (text : String) : parseMillis text = .ok answer ↔
    (signOf text.toList).2 ≠ [] ∧ ∃ total,
      parseUnits text (signOf text.toList).2.length (signOf text.toList).2 (-1) 0 = .ok total ∧
      minDurationMs ≤ |(signOf text.toList).1 * total| ∧
      |(signOf text.toList).1 * total| ≤ maxDurationMs ∧
      answer = (signOf text.toList).1 * total := by
  unfold parseMillis
  split
  next sign rest heq =>
    have hsign : signOf text.toList = (sign, rest) := heq
    rw [hsign]
    by_cases hempty : rest = []
    · simp [hempty]
    · rw [if_neg (by simpa using hempty)]
      dsimp only [bind, Except.bind]
      cases htotal : parseUnits text rest.length rest (-1) 0 with
      | error reason => simp
      | ok total =>
        dsimp only
        by_cases hrange : minDurationMs ≤ |sign * total| ∧ |sign * total| ≤ maxDurationMs
        · rw [if_pos hrange, Except.ok.injEq]
          constructor
          · rintro rfl
            exact ⟨hempty, total, rfl, hrange.1, hrange.2, rfl⟩
          · rintro ⟨-, other, hother, -, -, rfl⟩
            cases hother
            rfl
        · rw [if_neg hrange]
          constructor
          · intro h
            cases h
          · rintro ⟨-, other, hother, hmin, hmax, -⟩
            cases hother
            exact absurd ⟨hmin, hmax⟩ hrange

lemma inRange_iff {sum : ℤ} (sign : Option Bool) (hsum : 0 ≤ sum) :
    (minDurationMs ≤ |(if sign = some false then -1 else 1) * min i64Max (0 + sum)| ∧
      |(if sign = some false then -1 else 1) * min i64Max (0 + sum)| ≤ maxDurationMs) ↔
    minDurationMs ≤ sum ∧ sum ≤ maxDurationMs := by
  have hone : |(if sign = some false then (-1 : ℤ) else 1)| = 1 := by split <;> rfl
  have hmin : |min i64Max (0 + sum)| = min i64Max (0 + sum) :=
    abs_of_nonneg (le_min (by decide) (by omega))
  rw [abs_mul, hone, one_mul, hmin]
  unfold minDurationMs maxDurationMs i64Max
  omega

lemma min_eq_sum {sum : ℤ} (hmax : sum ≤ maxDurationMs) : min i64Max (0 + sum) = sum := by
  unfold maxDurationMs at hmax
  unfold i64Max
  omega

theorem parseMillis_iff (text : String) (answer : ℤ) : parseMillis text = .ok answer ↔
    ∃ written : WrittenDuration, text.toList = written.chars ∧ minDurationMs ≤ written.total ∧
      written.total ≤ maxDurationMs ∧ answer = written.signed := by
  rw [parseMillis_eq]
  constructor
  · rintro ⟨hne, total, htotal, hmin, hmax, rfl⟩
    rw [parseUnits_iff text _ _ _ _ le_rfl le_rfl (by decide)] at htotal
    obtain ⟨parts, hparts, -, hordered, -, rfl⟩ := htotal
    obtain ⟨sign, hchars, hsign⟩ := signOf_eq text.toList
    rw [hsign] at hmin hmax
    obtain ⟨hlow, hhigh⟩ := (inRange_iff sign (sum_nonneg parts)).1 ⟨hmin, hmax⟩
    refine ⟨⟨sign, parts, ?_, hordered⟩, by rw [WrittenDuration.chars, ← hparts, ← hchars], hlow,
      hhigh, ?_⟩
    · rintro rfl
      exact hne hparts
    · rw [hsign, min_eq_sum hhigh, WrittenDuration.signed, WrittenDuration.total]
      split <;> simp
  · rintro ⟨written, htext, hlow, hhigh, rfl⟩
    rw [htext, signOf_chars]
    refine ⟨fun hnil => written.nonempty (parts_nil hnil.symm), _,
      (parseUnits_iff text _ _ _ _ le_rfl le_rfl (by decide)).2
        ⟨written.parts, rfl, ?_, written.ordered, fun part hpart => ?_, rfl⟩, ?_⟩
    · intro part _
      cases part.unit <;> decide
    · have hle : part.millis ≤ written.total :=
        List.single_le_sum (by simpa using fun part _ => partMillis_nonneg part) _
          (List.mem_map_of_mem hpart)
      exact (count_le_millis part).trans (hle.trans (hhigh.trans (by decide)))
    · obtain ⟨hmin, hmax⟩ := (inRange_iff written.sign (sum_nonneg written.parts)).2 ⟨hlow, hhigh⟩
      refine ⟨hmin, hmax, ?_⟩
      dsimp only
      rw [WrittenDuration.total] at hhigh
      rw [min_eq_sum hhigh, WrittenDuration.signed, WrittenDuration.total]
      split <;> simp

end Proofs

end Irori
