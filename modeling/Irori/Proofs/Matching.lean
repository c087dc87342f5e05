import Irori.Manifest.Strings
import Mathlib.Data.List.TakeWhile
import Mathlib.Tactic

/-!
# Checks and schemas

Each check of a manifest's strings takes what its schema takes. A pattern is read from outside in: a
text is cut where the check cuts it, and the pieces are told by their letters.
-/

namespace Irori.Manifest.Proofs

open Irori.Manifest Patterns RegularExpression

set_option maxRecDepth 3000

local instance (priority := high) decidableAllIn (p : Char → Prop) [DecidablePred p]
    (l : List Char) : Decidable (∀ a ∈ l, p a) := List.decidableBAll p l

lemma mem_digits {c : Char} : c ∈ digits ↔ c.isDigit = true := by
  rw [digits, mem_between (by decide)]
  simp [Char.isDigit, Char.le_def]

lemma mem_lowercase {c : Char} : c ∈ lowercase ↔ c.isLower = true := by
  rw [lowercase, mem_between (by decide)]
  simp [isLower_eq, Char.le_def]

lemma mem_alphanumerics {c : Char} : c ∈ alphanumerics ↔ c.isAlphanum = true := by
  rw [alphanumerics, List.mem_append, List.mem_append, mem_lowercase, mem_digits,
    mem_between (by decide)]
  simp [Char.isAlphanum, isAlpha_eq, isUpper_eq, Char.le_def]

lemma mem_nonzero {c : Char} : c ∈ between '1' '9' ↔ c.isDigit = true ∧ c ≠ '0' := by
  rw [mem_between (by decide)]
  simp only [Char.isDigit, Char.le_def, Bool.and_eq_true, decide_eq_true_eq, ne_eq, Char.ext_iff,
    ← UInt32.toNat_inj, UInt32.le_iff_toNat_le, ge_iff_le]
  constructor
  · rintro ⟨h1, h9⟩
    exact ⟨⟨le_trans (by decide) h1, h9⟩, fun h => absurd (h ▸ h1) (by decide)⟩
  · rintro ⟨⟨h0, h9⟩, hne⟩
    exact ⟨lt_of_le_of_ne h0 (Ne.symm hne), h9⟩

lemma byteLen_ascii {text : List Char} (h : ∀ c ∈ text, c.toNat < 128) :
    byteLen text = text.length := by
  induction text with
  | nil => rfl
  | cons c text ih =>
    rw [List.forall_mem_cons] at h
    have hc : c.utf8Size = 1 := Char.utf8Size_eq_one_iff.2 (UInt32.le_iff_toNat_le.2 (by
      have := h.1
      change c.toNat ≤ 127
      omega))
    have htext := ih h.2
    simp only [byteLen, List.map_cons, List.sum_cons, hc, List.length_cons] at htext ⊢
    omega

lemma isDigit_ascii {c : Char} (h : c.isDigit = true) : c.toNat < 128 :=
  (by decide : ∀ c ∈ digits, c.toNat < 128) c (mem_digits.2 h)

lemma mem_letters_dash {c : Char} : c ∈ alphanumerics.filter (!·.isDigit) ++ ['-'] ↔
    (c.isAlphanum = true ∧ c.isDigit = false) ∨ c = '-' := by
  simp [mem_alphanumerics]

lemma mem_idents {c : Char} :
    c ∈ alphanumerics ++ ['-'] ↔ (c.isAlphanum || c == '-') = true := by
  simp [mem_alphanumerics]

lemma isNumber_iff {part : List Char} : isNumber part = true ↔ part ≠ [] ∧ part.length ≤ 9 ∧
    (∀ c ∈ part, c.isDigit = true) ∧ (part.head? = some '0' → part.length ≤ 1) := by
  unfold isNumber
  by_cases hall : ∀ c ∈ part, c.isDigit = true
  · rw [byteLen_ascii fun c hc => isDigit_ascii (hall c hc)]
    simp only [Bool.and_eq_true, Bool.not_eq_true', List.isEmpty_eq_false_iff, decide_eq_true_eq,
      List.all_eq_true, Bool.and_eq_false_iff, decide_eq_false_iff_not, not_lt]
    tauto
  · have hnot : part.all Char.isDigit = false := by simpa using hall
    simp [hnot, hall]

lemma mem_number {part : List Char} : part ∈ number.matches' ↔ isNumber part = true := by
  rw [isNumber_iff, number, mem_plain_add, mem_char, mem_mul]
  constructor
  · rintro (rfl | ⟨_, hfirst, rest, hrest, rfl⟩)
    · decide
    · obtain ⟨c, hc, rfl⟩ := mem_oneOf.1 hfirst
      obtain ⟨hlength, hrest⟩ := mem_upTo_oneOf.1 hrest
      obtain ⟨hdigit, hzero⟩ := mem_nonzero.1 hc
      refine ⟨by simp, Nat.succ_le_succ hlength, ?_, by simp [hzero]⟩
      exact List.forall_mem_cons.2 ⟨hdigit, fun d hd => mem_digits.1 (hrest d hd)⟩
  · rintro ⟨hne, hlength, hdigits, hzero⟩
    obtain ⟨c, rest, rfl⟩ := List.exists_cons_of_ne_nil hne
    rw [List.forall_mem_cons] at hdigits
    by_cases hc : c = '0'
    · have hrest : rest = [] := by simpa [hc] using hzero
      exact Or.inl (by rw [hc, hrest])
    · exact Or.inr ⟨[c], mem_oneOf.2 ⟨c, mem_nonzero.2 ⟨hdigits.1, hc⟩, rfl⟩, rest,
        mem_upTo_oneOf.2 ⟨Nat.le_of_succ_le_succ hlength,
          fun d hd => mem_digits.2 (hdigits.2 d hd)⟩, rfl⟩

lemma isIdent_iff {id : List Char} : isIdent id = true ↔ id ≠ [] ∧
    (∀ c ∈ id, (c.isAlphanum || c == '-') = true) ∧
      (id.head? = some '0' → (∀ c ∈ id, c.isDigit = true) → id.length ≤ 1) := by
  unfold isIdent
  by_cases hall : ∀ c ∈ id, (c.isAlphanum || c == '-') = true
  · rw [byteLen_ascii fun c hc =>
      (by decide : ∀ c ∈ alphanumerics ++ ['-'], c.toNat < 128) c (mem_idents.2 (hall c hc))]
    simp only [Bool.and_eq_true, Bool.not_eq_true', List.isEmpty_eq_false_iff, List.all_eq_true,
      Bool.and_eq_false_iff, decide_eq_false_iff_not, not_lt, List.all_eq_false]
    constructor
    · rintro ⟨⟨hne, -⟩, hrest⟩
      refine ⟨hne, hall, fun hhead hdigits => ?_⟩
      rcases hrest with (hlength | hnot) | ⟨c, hc, hnot⟩
      · exact hlength
      · exact absurd hhead hnot
      · exact absurd (hdigits c hc) hnot
    · rintro ⟨hne, -, hrest⟩
      refine ⟨⟨hne, hall⟩, ?_⟩
      by_cases hhead : id.head? = some '0'
      · by_cases hdigits : ∀ c ∈ id, c.isDigit = true
        · exact Or.inl (Or.inl (hrest hhead hdigits))
        · exact Or.inr (by simpa using hdigits)
      · exact Or.inl (Or.inr hhead)
  · have hnot : id.all (fun c => c.isAlphanum || c == '-') = false := by simpa using hall
    exact iff_of_false (by simp [hnot]) fun h => hall h.2.1

lemma mem_prereleaseIdent {id : List Char} :
    id ∈ prereleaseIdent.matches' ↔ isIdent id = true := by
  rw [isIdent_iff, prereleaseIdent, mem_plain_add, mem_plain_add, mem_char, mem_mul, mem_mul]
  have hdigit {c : Char} (h : c.isDigit = true) : (c.isAlphanum || c == '-') = true := by
    simp [Char.isAlphanum, h]
  constructor
  · rintro ((rfl | ⟨_, hfirst, rest, hrest, rfl⟩) | ⟨front, hfront, _, hend, rfl⟩)
    · decide
    · obtain ⟨c, hc, rfl⟩ := mem_oneOf.1 hfirst
      obtain ⟨hc, hzero⟩ := mem_nonzero.1 hc
      refine ⟨by simp, List.forall_mem_cons.2 ⟨hdigit hc, fun d hd => ?_⟩, by simp [hzero]⟩
      exact hdigit (mem_digits.1 (mem_star_oneOf.1 hrest d hd))
    · obtain ⟨_, hfirst, rest, hrest, rfl⟩ := mem_mul.1 hend
      obtain ⟨c, hc, rfl⟩ := mem_oneOf.1 hfirst
      have hletter := mem_letters_dash.1 hc
      refine ⟨by simp, fun d hd => ?_, fun _ hdigits => ?_⟩
      · rcases List.mem_append.1 hd with hd | hd
        · exact hdigit (mem_digits.1 (mem_star_oneOf.1 hfront d hd))
        · rcases List.mem_cons.1 hd with rfl | hd
          · rcases hletter with h | h
            · rw [h.1, Bool.true_or]
            · rw [h]
              decide
          · exact mem_idents.1 (mem_star_oneOf.1 hrest d hd)
      · have hd : c.isDigit = true := hdigits c (by simp)
        rcases hletter with h | h
        · exact absurd hd (by simp [h.2])
        · exact absurd (h ▸ hd) (by decide)
  · rintro ⟨hne, hall, hzero⟩
    by_cases hdigits : ∀ c ∈ id, c.isDigit = true
    · obtain ⟨c, rest, rfl⟩ := List.exists_cons_of_ne_nil hne
      by_cases hc : c = '0'
      · have hrest : rest = [] := by simpa [hc] using hzero (by rw [hc]; rfl) hdigits
        exact Or.inl (Or.inl (by rw [hc, hrest]))
      · rw [List.forall_mem_cons] at hdigits
        exact Or.inl (Or.inr ⟨[c], mem_oneOf.2 ⟨c, mem_nonzero.2 ⟨hdigits.1, hc⟩, rfl⟩, rest,
          mem_star_oneOf.2 fun d hd => mem_digits.2 (hdigits.2 d hd), rfl⟩)
    · -- The first letter that is no digit.
      have hsplit := List.takeWhile_append_dropWhile (p := Char.isDigit) (l := id)
      obtain ⟨c, rest, hrest⟩ := List.exists_cons_of_ne_nil (l := id.dropWhile Char.isDigit)
        fun h => hdigits (List.dropWhile_eq_nil_iff.1 h)
      have hc : c.isDigit = false := by
        have h := List.head_dropWhile_not Char.isDigit (l := id) (by simp [hrest])
        simpa [hrest] using h
      have hmem : ∀ d ∈ c :: rest, (d.isAlphanum || d == '-') = true := fun d hd =>
        hall d ((List.dropWhile_suffix Char.isDigit).subset (hrest ▸ hd))
      rw [List.forall_mem_cons] at hmem
      refine Or.inr ⟨id.takeWhile Char.isDigit, mem_star_oneOf.2 fun d hd => ?_, c :: rest,
        mem_mul.2 ⟨[c], mem_oneOf.2 ⟨c, mem_letters_dash.2 ?_, rfl⟩, rest, mem_star_oneOf.2 ?_,
          rfl⟩, by rw [← hrest, hsplit]⟩
      · exact mem_digits.2 (List.mem_takeWhile_imp hd)
      · simpa [hc] using hmem.1
      · exact fun d hd => mem_idents.2 (hmem.2 d hd)

lemma dot_number : ∀ word ∈ number.matches', '.' ∉ word :=
  notMem_of_letters (by decide)

lemma mem_release {w : List Char} : w ∈ releasePattern.matches' ↔ releaseOk w = true := by
  unfold releaseOk
  rw [releasePattern, mem_mul]
  constructor
  · rintro ⟨major, hmajor, _, ⟨_, rfl, _, ⟨minor, hminor, _, ⟨_, rfl, patch, hpatch, rfl⟩, rfl⟩,
      rfl⟩, rfl⟩
    have hsplit : (major ++ '.' :: (minor ++ '.' :: patch)).splitOn '.' =
        [major, minor, patch] := by
      rw [List.splitOn_append_cons_self_of_not_mem (dot_number _ hmajor),
        List.splitOn_append_cons_self_of_not_mem (dot_number _ hminor),
        List.splitOn_eq_singleton (dot_number _ hpatch)]
    simp only [List.cons_append, List.nil_append]
    rw [hsplit]
    simp only [Bool.and_eq_true]
    exact ⟨⟨mem_number.1 hmajor, mem_number.1 hminor⟩, mem_number.1 hpatch⟩
  · intro h
    split at h
    · next major minor patch hsplit =>
      simp only [Bool.and_eq_true] at h
      refine ⟨major, mem_number.2 h.1.1, _, ⟨['.'], rfl, _, ⟨minor, mem_number.2 h.1.2, _,
        ⟨['.'], rfl, patch, mem_number.2 h.2, rfl⟩, rfl⟩, rfl⟩, ?_⟩
      rw [← (List.intercalate_splitOn '.' : ['.'].intercalate (w.splitOn '.') = w), hsplit]
      simp [List.intercalate_cons_cons]
    · exact absurd h (by simp)

lemma foldl_digits {part : List Char} (h : ∀ c ∈ part, c.isDigit = true) (n : ℕ) :
    part.foldl (fun n c => 10 * n + (c.toNat - '0'.toNat)) n < (n + 1) * 10 ^ part.length := by
  induction part generalizing n with
  | nil => simp
  | cons c part ih =>
    rw [List.forall_mem_cons] at h
    have hc : c.toNat - '0'.toNat ≤ 9 :=
      (by decide : ∀ c ∈ digits, c.toNat - '0'.toNat ≤ 9) c (mem_digits.2 h.1)
    refine (ih h.2 _).trans_le ?_
    have hnext : 10 * n + (c.toNat - '0'.toNat) + 1 ≤ (n + 1) * 10 := by omega
    rw [List.length_cons, pow_succ', ← mul_assoc]
    exact Nat.mul_le_mul_right _ hnext

lemma parseNumber_isSome (part : List Char) : (parseNumber part).isSome = isNumber part := by
  unfold parseNumber parseU32
  cases h : isNumber part with
  | false => rfl
  | true =>
    obtain ⟨-, hlength, hdigits, -⟩ := isNumber_iff.1 h
    have hlt := (foldl_digits hdigits 0).trans_le (Nat.mul_le_mul_left _
      (Nat.pow_le_pow_right (by decide : 0 < 10) hlength))
    rw [if_pos rfl, if_pos (hlt.trans (by decide))]
    rfl

lemma parseRelease_isSome (value : List Char) :
    (parseRelease value).isSome = releaseOk value := by
  unfold parseRelease releaseOk
  split
  · next major minor patch _ =>
    rw [← parseNumber_isSome, ← parseNumber_isSome, ← parseNumber_isSome]
    cases parseNumber major <;> cases parseNumber minor <;> cases parseNumber patch <;> rfl
  · rfl

lemma isReleaseVersion_iff {value : String} : isReleaseVersion value = true ↔
    byteLen value.toList ≤ 64 ∧ '+' ∉ value.toList ∧
      releaseOk (splitOnce ['-'] value.toList).1 = true ∧
        ((splitOnce ['-'] value.toList).2.all fun pre => (pre.splitOn '.').all isIdent) = true := by
  unfold isReleaseVersion
  dsimp only
  rw [← Bool.and_eq_true]
  split_ifs with h
  · simp only [Bool.or_eq_true, decide_eq_true_eq, List.contains_iff_mem] at h
    refine iff_of_false (by simp) fun h' => ?_
    rcases h with h | h
    · exact absurd h'.1 (not_le.2 h)
    · exact h'.2.1 h
  · simp only [Bool.or_eq_true, decide_eq_true_eq, List.contains_iff_mem, not_or, not_lt] at h
    exact ⟨fun h' => ⟨h.1, h.2, h'⟩, fun h' => h'.2.2⟩

lemma parseVersion_isOk (value : String) :
    (parseVersion value).isOk = isReleaseVersion value := by
  have hrelease := parseRelease_isSome (splitOnce ['-'] value.toList).1
  unfold parseVersion
  by_cases h : isReleaseVersion value = true
  · obtain ⟨-, -, hok, hpre⟩ := isReleaseVersion_iff.1 h
    rw [hok, Option.isSome_iff_exists] at hrelease
    obtain ⟨release, hrelease⟩ := hrelease
    simp only [h, Bool.not_true, Bool.false_and, Bool.false_eq_true, if_false, hrelease, hpre,
      if_true]
    rfl
  · rw [Bool.not_eq_true] at h
    have hnot := mt isReleaseVersion_iff.2 (by rw [h]; exact Bool.false_ne_true)
    simp only [h, Bool.not_false, Bool.true_and, decide_eq_true_eq, List.contains_iff_mem]
    split_ifs with hlength hplus hpre
    · rfl
    · rfl
    · cases hparse : parseRelease (splitOnce ['-'] value.toList).1 with
      | none => rfl
      | some release =>
        rw [hparse] at hrelease
        exact absurd ⟨not_lt.1 hlength, hplus, hrelease.symm, hpre⟩ hnot
    · cases parseRelease (splitOnce ['-'] value.toList).1 <;> rfl

lemma whole_accepts {r : RegularExpression Char} {max : ℕ} {value : String}
    (hascii : ∀ c ∈ letters r, c.toNat < 128) :
    (StringSchema.mk [(.whole r, some max)] none).accepts value = true ↔
      value.toList ∈ r.matches' ∧ byteLen value.toList ≤ max := by
  have hbytes (h : value.toList ∈ r.matches') : byteLen value.toList = value.length := by
    rw [byteLen_ascii fun c hc => hascii c (mem_letters h c hc), String.length_toList]
  simp only [StringSchema.accepts, Pattern.test, List.any_cons, List.any_nil, Bool.or_false,
    Option.all_some, Option.any_none, Bool.not_false, Bool.and_true, Bool.and_eq_true,
    decide_eq_true_eq, rmatch_iff_matches']
  exact and_congr_right fun h => by rw [hbytes h]

lemma mem_splitOnce {x : Char} {sep : List Char} {r t : RegularExpression Char}
    (hr : x ∉ letters r) {w : List Char} :
    w ∈ (r * atMostOnce (literal (x :: sep) * t)).matches' ↔
      (splitOnce (x :: sep) w).1 ∈ r.matches' ∧
        ∀ after, (splitOnce (x :: sep) w).2 = some after → after ∈ t.matches' := by
  rw [mem_cut (notMem_of_letters hr), splitOnce]
  cases w.dropInfix? (x :: sep) with
  | none => simp
  | some parts => simp

lemma mem_idents_list {w : List Char} :
    w ∈ (prereleaseIdent * (char '.' * prereleaseIdent).star).matches' ↔
      (w.splitOn '.').all isIdent = true := by
  rw [mem_sepBy (notMem_of_letters (by decide)), List.all_eq_true]
  exact forall₂_congr fun part _ => mem_prereleaseIdent

lemma version_accepts (value : String) :
    versionSchema.accepts value = isReleaseVersion value := by
  rw [Bool.eq_iff_iff, isReleaseVersion_iff, versionSchema, whole_accepts (by decide)]
  constructor
  · rintro ⟨hmatch, hlength⟩
    have hplus : '+' ∉ value.toList := notMem_of_letters (by decide) _ hmatch
    obtain ⟨hrelease, hpre⟩ := (mem_splitOnce (by decide)).1 hmatch
    refine ⟨hlength, hplus, mem_release.1 hrelease, ?_⟩
    cases hafter : (splitOnce ['-'] value.toList).2 with
    | none => rfl
    | some pre => exact mem_idents_list.1 (hpre pre hafter)
  · rintro ⟨hlength, -, hrelease, hpre⟩
    refine ⟨(mem_splitOnce (by decide)).2 ⟨mem_release.2 hrelease, fun pre hafter => ?_⟩,
      hlength⟩
    rw [hafter] at hpre
    exact mem_idents_list.2 hpre

lemma mem_requirement {rest : List Char} :
    rest ∈ (releasePattern * atMostOnce (literal ", <".toList * releasePattern)).matches' ↔
      (parseRelease (splitOnce ", <".toList rest).1).isSome = true ∧
        ∀ upper, (splitOnce ", <".toList rest).2 = some upper →
          (parseRelease upper).isSome = true := by
  change rest ∈ (releasePattern * atMostOnce (literal (',' :: [' ', '<']) * _)).matches' ↔ _
  rw [mem_splitOnce (by decide), parseRelease_isSome, mem_release]
  exact and_congr_right fun _ => forall₂_congr fun upper _ => by
    rw [parseRelease_isSome, mem_release]

lemma coreRequirement_accepts (value : String) : coreRequirementSchema.accepts value = true ↔
    (parseRequirement value).isOk = true ∨
      parseRequirement value = .error (matchesNothing value) := by
  have haccepts : coreRequirementSchema.accepts value = true ↔
      ∃ rest, value.toList.dropPrefix? ">=".toList = some rest ∧
        rest ∈ (releasePattern * atMostOnce (literal ", <".toList * releasePattern)).matches' := by
    rw [← mem_after]
    simp [StringSchema.accepts, coreRequirementSchema, Pattern.test, rmatch_iff_matches']
  have hinvalid (reason : String) (h : reason ≠ (matchesNothing value).reason) :
      ¬((Except.error ⟨"Irori version requirement", value, reason⟩ :
          Except IdError (Release × Option Release)).isOk = true ∨
        (Except.error ⟨"Irori version requirement", value, reason⟩ :
          Except IdError (Release × Option Release)) = .error (matchesNothing value)) := by
    rintro (hok | herror)
    · exact Bool.false_ne_true hok
    · exact h (congrArg IdError.reason (Except.error.inj herror))
  rw [haccepts]
  unfold parseRequirement
  cases hprefix : value.toList.dropPrefix? ">=".toList with
  | none => exact iff_of_false (by simp) (hinvalid _ (by simp [matchesNothing]))
  | some rest =>
    simp only [Option.some.injEq, exists_eq_left', mem_requirement]
    cases hlower : parseRelease (splitOnce ", <".toList rest).1 with
    | none => exact iff_of_false (by simp) (hinvalid _ (by simp [matchesNothing]))
    | some lower =>
      cases hupper : (splitOnce ", <".toList rest).2 with
      | none => exact iff_of_true (by simp) (Or.inl rfl)
      | some upper =>
        dsimp only
        cases hparse : parseRelease upper with
        | none => exact iff_of_false (by simp [hparse]) (hinvalid _ (by simp [matchesNothing]))
        | some bound =>
          refine iff_of_true (by simp [hparse]) ?_
          dsimp only
          split_ifs
          · exact Or.inl rfl
          · exact Or.inr rfl

lemma mem_segment {part : List Char} : part ∈ segment.matches' ↔ isSegment part = true := by
  rw [segment, mem_mul, isSegment]
  simp only [Bool.and_eq_true, List.all_eq_true]
  have hfirst {c : Char} : c ∈ alphanumerics ++ ['_'] ↔ (c.isAlphanum || c == '_') = true := by
    simp [mem_alphanumerics]
  have hlater {c : Char} : c ∈ alphanumerics ++ ['.', '_', '-'] ↔
      (c.isAlphanum || ['.', '_', '-'].contains c) = true := by
    simp [mem_alphanumerics]
  have hboth {c : Char} (h : c ∈ alphanumerics ++ ['_']) :
      c ∈ alphanumerics ++ ['.', '_', '-'] := by
    rcases List.mem_append.1 h with h | h
    · exact List.mem_append_left _ h
    · rw [List.mem_singleton.1 h]
      decide
  constructor
  · rintro ⟨_, hone, rest, hrest, rfl⟩
    obtain ⟨c, hc, rfl⟩ := mem_oneOf.1 hone
    refine ⟨hfirst.1 hc, List.forall_mem_cons.2 ⟨hlater.1 (hboth hc), fun d hd => ?_⟩⟩
    exact hlater.1 (mem_star_oneOf.1 hrest d hd)
  · rintro ⟨hhead, hall⟩
    cases part with
    | nil => exact absurd hhead (by simp)
    | cons c rest =>
      rw [List.forall_mem_cons] at hall
      exact ⟨[c], mem_oneOf.2 ⟨c, hfirst.2 hhead, rfl⟩, rest,
        mem_star_oneOf.2 fun d hd => hlater.2 (hall.2 d hd), rfl⟩

lemma slash_segment : ∀ word ∈ segment.matches', '/' ∉ word :=
  notMem_of_letters (by decide)

lemma all_segments {w : List Char} : (∀ part ∈ w.splitOn '/', part ∈ segment.matches') ↔
    (w.splitOn '/').all isSegment = true := by
  rw [List.all_eq_true]
  exact forall₂_congr fun part _ => mem_segment

lemma path_accepts {what shape : String} {valid : List Char → Bool} {r : RegularExpression Char}
    (hascii : ∀ c ∈ letters r, c.toNat < 128) (value : String)
    (h : value.toList ∈ r.matches' ↔ valid value.toList = true) :
    (StringSchema.mk [(.whole r, some 255)] none).accepts value =
      (checkPath what shape valid value).isOk := by
  rw [Bool.eq_iff_iff, whole_accepts hascii, h]
  unfold checkPath
  split_ifs with hlong hvalid
  · exact iff_of_false (fun h' => absurd h'.2 (not_le.2 hlong)) Bool.false_ne_true
  · exact iff_of_true ⟨hvalid, not_lt.1 hlong⟩ rfl
  · exact iff_of_false (fun h' => hvalid h'.1) Bool.false_ne_true

lemma checkPath_valid {what shape : String} {valid : List Char → Bool} {value : String}
    (h : (checkPath what shape valid value).isOk = true) : valid value.toList = true := by
  unfold checkPath at h
  split_ifs at h with _ hvalid
  · exact absurd h Bool.false_ne_true
  · exact hvalid
  · exact absurd h Bool.false_ne_true

lemma packagePath_accepts (value : String) :
    packagePathSchema.accepts value = (checkPackagePath value).isOk :=
  path_accepts (by decide) value ((mem_sepBy slash_segment).trans all_segments)

lemma serialPath_accepts (value : String) :
    serialPathSchema.accepts value = (checkSerialPath value).isOk := by
  refine path_accepts (by decide) value ?_
  rw [mem_after, Option.any_eq_true]
  constructor
  · rintro ⟨_, hvalue, hrest⟩
    obtain ⟨rest, rfl, hparts⟩ := (mem_onceOrMore_sep slash_segment).1 hrest
    rw [dropPrefix_iff] at hvalue
    exact ⟨rest, dropPrefix_iff.2 hvalue, all_segments.1 hparts⟩
  · rintro ⟨rest, hvalue, hparts⟩
    rw [dropPrefix_iff] at hvalue
    exact ⟨'/' :: rest, dropPrefix_iff.2 hvalue,
      (mem_onceOrMore_sep slash_segment).2 ⟨rest, rfl, all_segments.2 hparts⟩⟩

lemma mem_segments {rest : List Char} :
    rest ∈ (char '/' * segment).star.matches' ↔ segmentsOk rest = true := by
  rw [mem_star_sep slash_segment, segmentsOk, Bool.or_eq_true, List.isEmpty_iff, Option.any_eq_true]
  refine or_congr_right (exists_congr fun after => ?_)
  rw [all_segments, dropPrefix_iff]
  rfl

lemma mem_folder {w : List Char} :
    w ∈ ((literal config + literal data) * (char '/' * segment).star).matches' ↔
      (∃ rest, w.dropPrefix? config = some rest ∧ segmentsOk rest = true) ∨
        ∃ rest, w.dropPrefix? data = some rest ∧ segmentsOk rest = true := by
  simp only [← mem_segments, ← mem_after, mem_mul, mem_plain_add]
  constructor
  · rintro ⟨folder, h | h, rest⟩
    · exact Or.inl ⟨folder, h, rest⟩
    · exact Or.inr ⟨folder, h, rest⟩
  · rintro (⟨folder, h, rest⟩ | ⟨folder, h, rest⟩)
    · exact ⟨folder, Or.inl h, rest⟩
    · exact ⟨folder, Or.inr h, rest⟩

lemma mem_absolute {w : List Char} : w ∈ (onceOrMore (char '/' * segment)).matches' ↔
    (!w.isEmpty && segmentsOk w) = true := by
  rw [Bool.and_eq_true, Bool.not_eq_true', List.isEmpty_eq_false_iff, ← mem_segments,
    mem_star_sep slash_segment, mem_onceOrMore_sep slash_segment]
  constructor
  · rintro ⟨rest, rfl, hrest⟩
    exact ⟨by simp, Or.inr ⟨rest, rfl, hrest⟩⟩
  · rintro ⟨hne, hnil | h⟩
    · exact absurd hnil hne
    · exact h

lemma not_absolute {folder : List Char} (h : folder = config ∨ folder = data) (rest : List Char) :
    folder ++ rest ≠ ['/'] ∧
      ¬(!(folder ++ rest).isEmpty && segmentsOk (folder ++ rest)) = true := by
  rw [← mem_absolute, mem_onceOrMore_sep slash_segment]
  rcases h with rfl | rfl <;> exact ⟨by simp [config, data], fun ⟨_, h, _⟩ => by
    simp [config, data] at h⟩

lemma config_data {w rest : List Char} (h : w.dropPrefix? config = some rest) :
    w.dropPrefix? data = none := by
  cases hdata : w.dropPrefix? data with
  | none => rfl
  | some other =>
    rw [dropPrefix_iff] at h hdata
    simp [h, config, data] at hdata

lemma hostPath_accepts (value : String) :
    hostPathSchema.accepts value = (checkHostPath value).isOk := by
  refine path_accepts (by decide) value ?_
  rw [mem_plain_add, mem_plain_add, mem_char, mem_folder, mem_absolute]
  cases hconfig : value.toList.dropPrefix? config with
  | some rest =>
    have hnot := not_absolute (Or.inl rfl) rest
    rw [← dropPrefix_iff.1 hconfig] at hnot
    simp [config_data hconfig, hnot.1, hnot.2]
  | none =>
    cases hdata : value.toList.dropPrefix? data with
    | some rest =>
      have hnot := not_absolute (Or.inr rfl) rest
      rw [← dropPrefix_iff.1 hdata] at hnot
      simp [hnot.1, hnot.2]
    | none => simp

def walk : List (List Char) → List (List Char) → List (List Char)
  | here, [] => here
  | here, name :: rest =>
    if name = ['.', '.'] then walk here.dropLast rest
    else if name = [] ∨ name = ['.'] then walk here rest
    else walk (here ++ [name]) rest

/-- The path is one of Irori's folders, or leads on from it without leaving it. -/
def Inside (path : HostPath) : Prop :=
  ∃ folder names, (folder = config ∨ folder = data) ∧
    path.text.toList.splitOn '/' = folder :: names ∧
      ∀ base steps, steps <+: names → base <+: walk base steps

lemma walk_segments {steps : List (List Char)} (h : ∀ name ∈ steps, isSegment name = true)
    (base : List (List Char)) : walk base steps = base ++ steps := by
  induction steps generalizing base with
  | nil => rw [walk, List.append_nil]
  | cons name steps ih =>
    rw [List.forall_mem_cons] at h
    have hup : name ≠ ['.', '.'] := fun heq => absurd h.1 (by rw [heq]; decide)
    have hhere : ¬(name = [] ∨ name = ['.']) := by
      rintro (heq | heq) <;> exact absurd h.1 (by rw [heq]; decide)
    rw [walk, if_neg hup, if_neg hhere, ih h.2, List.append_assoc, List.singleton_append]

lemma isIroriFolder_inside {path : HostPath} (h : path.isIroriFolder = true) : Inside path := by
  have hfolder : ∃ folder rest, (folder = config ∨ folder = data) ∧
      path.text.toList = folder ++ rest ∧ segmentsOk rest = true := by
    have hvalid := checkPath_valid path.valid
    cases hconfig : path.text.toList.dropPrefix? config with
    | some rest =>
      rw [hconfig] at hvalid
      exact ⟨config, rest, Or.inl rfl, dropPrefix_iff.1 hconfig, hvalid⟩
    | none =>
      rw [hconfig, Option.none_or] at hvalid
      cases hdata : path.text.toList.dropPrefix? data with
      | some rest =>
        rw [hdata] at hvalid
        exact ⟨data, rest, Or.inr rfl, dropPrefix_iff.1 hdata, hvalid⟩
      | none =>
        unfold HostPath.isIroriFolder at h
        rw [Bool.or_eq_true, List.isPrefixOf_iff_prefix, List.isPrefixOf_iff_prefix] at h
        rcases h with ⟨rest, hrest⟩ | ⟨rest, hrest⟩
        · exact absurd (dropPrefix_iff.2 hrest.symm) (by simp [hconfig])
        · exact absurd (dropPrefix_iff.2 hrest.symm) (by simp [hdata])
  obtain ⟨folder, rest, hfolder, htext, hrest⟩ := hfolder
  have hslash : '/' ∉ folder := by rcases hfolder with rfl | rfl <;> decide
  rcases (mem_star_sep slash_segment).1 (mem_segments.2 hrest) with rfl | ⟨names, rfl, hnames⟩
  · refine ⟨folder, [], hfolder, ?_, fun base steps hsteps => ?_⟩
    · rw [htext, List.append_nil, List.splitOn_eq_singleton hslash]
    · rw [List.prefix_nil.1 hsteps, walk]
  · refine ⟨folder, names.splitOn '/', hfolder, ?_, fun base steps hsteps => ?_⟩
    · rw [htext, List.splitOn_append_cons_self_of_not_mem hslash]
    · rw [walk_segments fun name hname => mem_segment.1 (hnames name (hsteps.subset hname))]
      exact List.prefix_append _ _

lemma mem_hostLetters {c : Char} : c ∈ lowercase ++ digits ++ ['-'] ↔
    (c.isLower || c.isDigit || c == '-') = true := by
  simp [mem_lowercase, mem_digits, or_assoc]

lemma isLabel_iff {w : List Char} : isLabel w = true ↔ w ≠ [] ∧ w.length ≤ 63 ∧
    (∀ c ∈ w, c ∈ lowercase ++ digits ++ ['-']) ∧ w.head? ≠ some '-' ∧ w.getLast? ≠ some '-' := by
  unfold isLabel
  simp only [Bool.and_eq_true, decide_eq_true_eq, List.all_eq_true, bne_iff_ne,
    ← mem_hostLetters]
  have hbytes (h : ∀ c ∈ w, c ∈ lowercase ++ digits ++ ['-']) : byteLen w = w.length :=
    byteLen_ascii fun c hc =>
      (by decide : ∀ c ∈ lowercase ++ digits ++ ['-'], c.toNat < 128) c (h c hc)
  constructor
  · rintro ⟨⟨⟨⟨hpos, hlength⟩, hall⟩, hhead⟩, hlast⟩
    rw [hbytes hall] at hpos hlength
    exact ⟨List.length_pos_iff.1 hpos, hlength, hall, hhead, hlast⟩
  · rintro ⟨hne, hlength, hall, hhead, hlast⟩
    rw [hbytes hall]
    exact ⟨⟨⟨⟨List.length_pos_iff.2 hne, hlength⟩, hall⟩, hhead⟩, hlast⟩

lemma mem_labelOf {first : List Char} (hfirst : first ⊆ lowercase ++ digits) {w : List Char} :
    w ∈ (oneOf first * atMostOnce (upTo 61 (oneOf (lowercase ++ digits ++ ['-'])) *
      oneOf (lowercase ++ digits))).matches' ↔
        isLabel w = true ∧ ∃ c ∈ first, w.head? = some c := by
  have hdash : '-' ∉ lowercase ++ digits := by decide
  rw [isLabel_iff, mem_mul]
  constructor
  · rintro ⟨_, hone, rest, hrest, rfl⟩
    obtain ⟨c, hc, rfl⟩ := mem_oneOf.1 hone
    have hcdash : c ≠ '-' := fun h => hdash (hfirst (h ▸ hc))
    have hc' := List.mem_append_left ['-'] (hfirst hc)
    rcases mem_atMostOnce.1 hrest with rfl | hrest
    · exact ⟨⟨by simp, by simp, by simpa using hc', by simpa using hcdash, by simpa using hcdash⟩,
        c, hc, rfl⟩
    · obtain ⟨middle, hmiddle, _, hend, rfl⟩ := mem_mul.1 hrest
      obtain ⟨d, hd, rfl⟩ := mem_oneOf.1 hend
      obtain ⟨hlength, hmiddle⟩ := mem_upTo_oneOf.1 hmiddle
      have hddash : d ≠ '-' := fun h => hdash (h ▸ hd)
      rw [← List.append_assoc]
      refine ⟨⟨by simp, ?_, ?_, by simpa using hcdash, ?_⟩, c, hc, rfl⟩
      · simp only [List.length_append, List.length_singleton]
        omega
      · refine List.forall_mem_append.2 ⟨List.forall_mem_cons.2 ⟨hc', hmiddle⟩, ?_⟩
        exact List.forall_mem_singleton.2 (List.mem_append_left _ hd)
      · rw [List.getLast?_concat]
        simpa using hddash
  · rintro ⟨⟨-, hlength, hall, -, hlast⟩, c, hc, hhead⟩
    obtain ⟨rest, rfl⟩ : ∃ rest, w = c :: rest := by
      cases w with
      | nil => exact absurd hhead (by simp)
      | cons d rest => exact ⟨rest, by rw [Option.some.inj hhead]⟩
    refine ⟨[c], mem_oneOf.2 ⟨c, hc, rfl⟩, rest, ?_, rfl⟩
    rcases List.eq_nil_or_concat rest with rfl | ⟨middle, d, rfl⟩
    · exact Or.inl rfl
    · rw [List.concat_eq_append] at hlength hall hlast ⊢
      have hd : d ∈ lowercase ++ digits := by
        have hmem := hall d (by simp)
        have hne : d ≠ '-' := by
          change ((c :: middle) ++ [d]).getLast? ≠ some '-' at hlast
          rw [List.getLast?_concat] at hlast
          simpa using hlast
        simpa [hne] using hmem
      have hmiddle : middle.length ≤ 61 := by
        simp only [List.length_cons, List.length_append, List.length_nil] at hlength
        omega
      refine Or.inr (mem_mul.2 ⟨middle, mem_upTo_oneOf.2 ⟨hmiddle, fun a ha => ?_⟩,
        [d], mem_oneOf.2 ⟨d, hd, rfl⟩, rfl⟩)
      exact hall a (by simp [ha])

lemma mem_label {w : List Char} : w ∈ label.matches' ↔ isLabel w = true := by
  rw [label, mem_labelOf (List.Subset.refl _)]
  refine and_iff_left_of_imp fun h => ?_
  obtain ⟨hne, -, hall, hhead, -⟩ := isLabel_iff.1 h
  obtain ⟨c, rest, rfl⟩ := List.exists_cons_of_ne_nil hne
  have hc := hall c List.mem_cons_self
  have hcdash : c ≠ '-' := by simpa using hhead
  exact ⟨c, by simpa [hcdash] using hc, rfl⟩

lemma mem_topLabel {w : List Char} :
    w ∈ topLabel.matches' ↔ isLabel w = true ∧ w.head?.any Char.isLower = true := by
  rw [topLabel, mem_labelOf (List.subset_append_left _ _), Option.any_eq_true]
  refine and_congr_right fun _ => exists_congr fun c => ?_
  rw [mem_lowercase, and_comm]

/-- The names the check lets through, apart from those of a local network. -/
def isHost (host : List Char) : Prop :=
  (host.splitOn '.').all isLabel = true ∧ '.' ∈ host ∧
    ((host.splitOn '.').getLastD host).head?.any Char.isLower = true

lemma mem_host {host : List Char} :
    host ∈ (onceOrMore (label * char '.') * topLabel).matches' ↔ isHost host := by
  rw [mem_ending (notMem_of_letters (by decide)) (notMem_of_letters (by decide)),
    isHost]
  constructor
  · rintro ⟨words, last, hne, hsplit, hwords, hlast⟩
    rw [hsplit]
    obtain ⟨hlabel, htop⟩ := mem_topLabel.1 hlast
    refine ⟨List.all_eq_true.2 fun word hword => ?_, ?_, by simpa using htop⟩
    · rcases List.mem_append.1 hword with hword | hword
      · exact mem_label.1 (hwords word hword)
      · rwa [List.mem_singleton.1 hword]
    · by_contra hdot
      rw [List.splitOn_eq_singleton hdot, List.singleton_eq_append_iff] at hsplit
      simp [hne] at hsplit
  · rintro ⟨hall, hdot, htop⟩
    rcases List.eq_nil_or_concat (host.splitOn '.') with hnil | ⟨words, last, hsplit⟩
    · exact absurd hnil (List.splitOn_ne_nil _ _)
    · rw [List.concat_eq_append] at hsplit
      rw [hsplit, List.all_eq_true] at hall
      rw [hsplit] at htop
      refine ⟨words, last, ?_, hsplit, fun word hword => mem_label.2 (hall word (by simp [hword])),
        mem_topLabel.2 ⟨hall last (by simp), by simpa using htop⟩⟩
      rintro rfl
      obtain ⟨before, after, rfl, -⟩ := List.eq_append_cons_of_mem hdot
      rw [List.splitOn_append_cons_self] at hsplit
      have hlength := congrArg List.length hsplit
      have hbefore := List.length_pos_iff.2 (List.splitOn_ne_nil '.' before)
      have hafter := List.length_pos_iff.2 (List.splitOn_ne_nil '.' after)
      simp only [List.length_append, List.nil_append, List.length_singleton] at hlength
      omega

lemma mem_words {words : List (List Char)} {w : List Char} :
    w ∈ (words.foldr (fun d r => literal d + r) 0).matches' ↔ w ∈ words := by
  induction words with
  | nil => simp [matches'_zero, Language.notMem_zero]
  | cons word words ih =>
    rw [List.foldr_cons, mem_plain_add, mem_literal, ih, List.mem_cons]

/-- A name under a domain that only exists on a local network. -/
def isLocal (name : List Char) : Prop := ∃ d ∈ localDomains, name = d ∨ '.' :: d <:+ name

lemma local_test {name : List Char} :
    (Pattern.ending (char '.') (localDomains.foldr (fun d r => literal d + r) 0)).test name =
      true ↔ isLocal name := by
  simp only [Pattern.test, Bool.or_eq_true, rmatch_iff_matches', mem_words, List.any_eq_true,
    List.mem_tails, mem_mul, mem_char, exists_eq_left, isLocal]
  constructor
  · rintro (h | ⟨_, hsuffix, d, hd, rfl⟩)
    · exact ⟨name, h, Or.inl rfl⟩
    · exact ⟨d, hd, Or.inr hsuffix⟩
  · rintro ⟨d, hd, rfl | hsuffix⟩
    · exact Or.inl hd
    · exact Or.inr ⟨_, hsuffix, d, hd, rfl⟩

lemma isLocal_star {host : List Char} : isLocal ('*' :: '.' :: host) ↔ isLocal host := by
  refine exists_congr fun d => and_congr_right fun hd => ?_
  have hstar : d.head? ≠ some '*' := (by decide : ∀ d ∈ localDomains, d.head? ≠ some '*') d hd
  constructor
  · rintro (rfl | h)
    · exact absurd rfl hstar
    · rcases List.suffix_cons_iff.1 h with h | h
      · exact absurd (List.cons.inj h).1 (by decide)
      · rcases List.suffix_cons_iff.1 h with h | h
        · exact Or.inl (List.cons.inj h).2.symm
        · exact Or.inr h
  · rintro (rfl | h)
    · exact Or.inr (List.suffix_cons _ _)
    · exact Or.inr (h.trans ((List.suffix_cons _ _).trans (List.suffix_cons _ _)))

lemma checkNetworkHost_isOk (value : String) : (checkNetworkHost value).isOk = true ↔
    let host := (value.toList.dropPrefix? ['*', '.']).getD value.toList
    byteLen host ≤ 253 ∧ isHost host ∧ ¬isLocal host := by
  unfold checkNetworkHost isHost
  dsimp only
  generalize (value.toList.dropPrefix? ['*', '.']).getD value.toList = host
  have hlocal : (localDomains.any fun d => host == d || ('.' :: d).isSuffixOf host) = true ↔
      isLocal host := by
    simp [isLocal, List.any_eq_true]
  split_ifs with hshape hinternet hnear
  · refine iff_of_false Bool.false_ne_true fun h => ?_
    rw [Bool.or_eq_true, decide_eq_true_eq, Bool.not_eq_true', h.2.1.1] at hshape
    rcases hshape with hlong | hlabels
    · exact absurd h.1 (not_le.2 hlong)
    · exact absurd hlabels.symm Bool.false_ne_true
  · refine iff_of_false Bool.false_ne_true fun h => ?_
    rw [Bool.or_eq_true, Bool.not_eq_true', Bool.not_eq_true', h.2.1.2.2] at hinternet
    rcases hinternet with hdot | htop
    · exact absurd (hdot.symm.trans (List.contains_iff_mem.2 h.2.1.2.1)) Bool.false_ne_true
    · exact absurd htop.symm Bool.false_ne_true
  · exact iff_of_false Bool.false_ne_true fun h => h.2.2 (hlocal.1 hnear)
  · simp only [Bool.or_eq_true, decide_eq_true_eq, Bool.not_eq_true', not_or, not_lt,
      Bool.not_eq_false, List.contains_iff_mem] at hshape hinternet
    exact iff_of_true rfl ⟨hshape.1, ⟨hshape.2, hinternet⟩, fun h => hnear (hlocal.2 h)⟩

lemma isHost_letters {host : List Char} (h : isHost host) :
    ∀ c ∈ host, c ∈ '.' :: (lowercase ++ digits ++ ['-']) := by
  intro c hc
  rcases (mem_splitOn hc : c = '.' ∨ _) with rfl | ⟨part, hpart, hc⟩
  · exact List.mem_cons_self
  · have hlabel := isLabel_iff.1 (List.all_eq_true.1 h.1 part hpart)
    exact List.mem_cons_of_mem _ (hlabel.2.2.1 c hc)

lemma networkHostSchema_iff {value : String} : networkHostSchema.accepts value = true ↔
    ((isHost value.toList ∧ value.toList.length ≤ 253) ∨
      (∃ host, value.toList = ['*', '.'] ++ host ∧ isHost host) ∧ value.toList.length ≤ 255) ∧
        ¬isLocal value.toList := by
  unfold networkHostSchema StringSchema.accepts
  rw [Bool.and_eq_true, Bool.not_eq_true', ← Bool.not_eq_true, Option.any_some, local_test]
  refine and_congr_left fun _ => ?_
  simp only [List.any_cons, List.any_nil, Bool.or_false, Bool.or_eq_true, Bool.and_eq_true,
    Option.all_some, decide_eq_true_eq, Pattern.test, rmatch_iff_matches', mem_after, mem_host,
    dropPrefix_iff, String.length_toList]

lemma networkHost_accepts (value : String) :
    networkHostSchema.accepts value = (checkNetworkHost value).isOk := by
  have hbytes {w : List Char} (h : isHost w) : byteLen w = w.length :=
    byteLen_ascii fun c hc => (by decide :
      ∀ c ∈ '.' :: (lowercase ++ digits ++ ['-']), c.toNat < 128) c (isHost_letters h c hc)
  rw [Bool.eq_iff_iff, checkNetworkHost_isOk, networkHostSchema_iff]
  cases hstar : value.toList.dropPrefix? ['*', '.'] with
  | none =>
    have hnot : ¬∃ host, value.toList = ['*', '.'] ++ host ∧ isHost host := by
      rintro ⟨host, hvalue, -⟩
      exact absurd (dropPrefix_iff.2 hvalue) (by simp [hstar])
    dsimp only [Option.getD_none]
    constructor
    · rintro ⟨⟨hhost, hlength⟩ | h, hlocal⟩
      · exact ⟨by rwa [hbytes hhost], hhost, hlocal⟩
      · exact absurd h.1 hnot
    · rintro ⟨hlength, hhost, hlocal⟩
      exact ⟨Or.inl ⟨hhost, by rwa [← hbytes hhost]⟩, hlocal⟩
  | some host =>
    have hvalue := dropPrefix_iff.1 hstar
    dsimp only [Option.getD_some]
    rw [hvalue]
    change ((isHost ('*' :: '.' :: host) ∧ _) ∨ _) ∧ ¬isLocal ('*' :: '.' :: host) ↔ _
    rw [isLocal_star]
    constructor
    · rintro ⟨⟨hhost, -⟩ | ⟨⟨host', hsame, hhost⟩, hlength⟩, hlocal⟩
      · exact absurd (isHost_letters hhost '*' List.mem_cons_self) (by decide)
      · rw [← List.append_cancel_left hsame] at hhost
        simp only [List.length_append, List.length_cons, List.length_nil] at hlength
        exact ⟨by rw [hbytes hhost]; omega, hhost, hlocal⟩
    · rintro ⟨hlength, hhost, hlocal⟩
      rw [hbytes hhost] at hlength
      refine ⟨Or.inr ⟨⟨host, rfl, hhost⟩, ?_⟩, hlocal⟩
      simp only [List.length_append, List.length_cons, List.length_nil]
      omega

/-- A schema takes just the texts its check takes, but for the order of a requirement's bounds,
which only the check looks at; the build takes just the versions there are; and without full access
every path asked for is in a folder of Irori's. -/
theorem schemas_agree (value : String) (asked : Permissions) :
    versionSchema.accepts value = (parseVersion value).isOk ∧
    isReleaseVersion value = (parseVersion value).isOk ∧
    (coreRequirementSchema.accepts value = true ↔ (parseRequirement value).isOk = true ∨
      parseRequirement value = .error (matchesNothing value)) ∧
    packagePathSchema.accepts value = (checkPackagePath value).isOk ∧
    serialPathSchema.accepts value = (checkSerialPath value).isOk ∧
    hostPathSchema.accepts value = (checkHostPath value).isOk ∧
    networkHostSchema.accepts value = (checkNetworkHost value).isOk ∧
    (∀ path : HostPath, path.isIroriFolder = true → Inside path) ∧
    (asked.fullAccess = false → ∀ path ∈ asked.hostFs, Inside path) := by
  refine ⟨by rw [version_accepts, parseVersion_isOk], (parseVersion_isOk value).symm,
    coreRequirement_accepts value, packagePath_accepts value, serialPath_accepts value,
    hostPath_accepts value, networkHost_accepts value, fun _ => isIroriFolder_inside,
    fun h path hpath => isIroriFolder_inside ?_⟩
  rw [Permissions.fullAccess, Bool.or_eq_false_iff, List.any_eq_false] at h
  simpa using h.2 path hpath

end Irori.Manifest.Proofs
