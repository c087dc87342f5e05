import Irori.Protocol.Settings
import Mathlib.Tactic.Common

/-!
# What a refusal tells of the settings

Texts, whole numbers and booleans are taken out of a refusal whatever they are. A floating-point
number, a character and the name of an unknown variant stand in it as they were.
-/

namespace Irori.Protocol

local instance (priority := high) decidableAllIn (p : Char → Prop) [DecidablePred p]
    (l : List Char) : Decidable (∀ a ∈ l, p a) := List.decidableBAll p l

def Unexpected.Like : Unexpected → Unexpected → Prop
  | bool _, bool _ | integer _, integer _ | float _, float _ | char _, char _ | str _, str _ => True
  | shape a, shape b => a = b
  | _, _ => False

/-- Two tables of the same keys and shapes failed the same way at the same place. -/
def SerdeError.SameWay : SerdeError → SerdeError → Prop
  | invalidType found expected, invalidType found' expected'
  | invalidValue found expected, invalidValue found' expected' =>
    found.Like found' ∧ expected = expected'
  | unknownVariant _ expected, unknownVariant _ expected' => expected = expected'
  | e, e' => e = e'

def Unexpected.quotes : Unexpected → Bool
  | float _ | char _ => true
  | _ => false

/-- Whether an error names a floating-point number, a character or an unknown variant. -/
def SerdeError.quotes : SerdeError → Bool
  | invalidType found _ | invalidValue found _ => found.quotes
  | unknownVariant _ _ => true
  | _ => false

def Silent (printable : Char → Bool) (e : SerdeError) : Prop :=
  ∀ e' : SerdeError, e.SameWay e' → invalidSettings printable e' = invalidSettings printable e

variable {printable : Char → Bool} {l rest : List Char}

lemma redactStrings_append (h : '"' ∉ l) :
    redactStrings none (l ++ rest) = l ++ redactStrings none rest := by
  induction l with
  | nil => rfl
  | cons c l ih =>
    rw [List.mem_cons, not_or] at h
    rw [List.cons_append, redactStrings, if_neg (Ne.symm h.1), ih h.2, List.cons_append]

lemma redactStrings_inside (h : '"' ∉ l) (h' : '\\' ∉ l) :
    redactStrings (some false) (l ++ rest) = redactStrings (some false) rest := by
  induction l with
  | nil => rfl
  | cons c l ih =>
    rw [List.mem_cons, not_or] at h h'
    rw [List.cons_append, redactStrings, if_neg (Ne.symm h'.1), if_neg (Ne.symm h.1), ih h.2 h'.2]

lemma redactStrings_escape (c : Char) :
    redactStrings (some false) (escapeDebug printable c ++ rest) =
      redactStrings (some false) rest := by
  unfold escapeDebug
  split
  · rfl
  · next hc =>
    rw [not_or] at hc
    split
    · rfl
    split
    · rfl
    split
    · rfl
    split
    · rfl
    split
    · exact redactStrings_inside (by simpa using Ne.symm hc.1) (by simpa using Ne.symm hc.2)
    · have hdigit : ∀ d : Nat, (("0123456789abcdef".toList[d]?).getD '0') ∈
          "0123456789abcdef".toList := by
        intro d
        cases hd : "0123456789abcdef".toList[d]? with
        | none => decide
        | some c => exact List.mem_of_getElem? hd
      have hplain : ∀ x ∈ (Nat.digits 16 c.toNat).reverse.map
          (fun d => ("0123456789abcdef".toList[d]?).getD '0'), x ≠ '"' ∧ x ≠ '\\' := by
        intro x hx
        obtain ⟨d, -, rfl⟩ := List.mem_map.mp hx
        exact (by decide : ∀ x ∈ "0123456789abcdef".toList, x ≠ '"' ∧ x ≠ '\\') _ (hdigit d)
      dsimp only
      rw [List.append_assoc, List.append_assoc, List.cons_append, List.cons_append,
        List.cons_append, List.nil_append, redactStrings, if_pos rfl, redactStrings, redactStrings,
        if_neg (by decide), if_neg (by decide),
        redactStrings_inside (fun hmem => (hplain _ hmem).1 rfl) fun hmem => (hplain _ hmem).2 rfl]
      rfl

lemma redactStrings_showDebug (text : String) :
    redactStrings none (showDebug printable text ++ rest) =
      "\"…\"".toList ++ redactStrings none rest := by
  have hbody : ∀ chars : List Char,
      redactStrings (some false) (chars.flatMap (escapeDebug printable) ++ '"' :: rest) =
        redactStrings none rest := by
    intro chars
    induction chars with
    | nil => rfl
    | cons c chars ih => rw [List.flatMap_cons, List.append_assoc, redactStrings_escape, ih]
  rw [showDebug, List.append_assoc, List.cons_append, redactStrings, if_pos rfl]
  exact congrArg _ (hbody text.toList)

/-- No word before a literal begins in a text, whatever follows it. -/
def Plain (l : List Char) : Prop :=
  ∀ s ∈ l.tails, s = [] ∨ ∀ kind ∈ kinds, ¬ kind <+: s ∧ ¬ s <+: kind

instance (l : List Char) : Decidable (Plain l) := by unfold Plain; infer_instance

lemma redactLiterals_cons {c : Char} (h : kinds.find? (fun kind => kind.isPrefixOf (c :: rest)) = none) :
    redactLiterals (c :: rest) = c :: redactLiterals rest := by
  rw [redactLiterals, redactLiterals]
  cases hfirst : firstLiteral rest with
  | none =>
    have hnone : firstLiteral (c :: rest) = none := by rw [firstLiteral, h, hfirst]; rfl
    rw [hnone]
  | some x =>
    have hsome : firstLiteral (c :: rest) = some (c :: x.1, x.2) := by
      rw [firstLiteral, h, hfirst]
      rfl
    rw [hsome]
    rfl

lemma redactLiterals_plain (h : Plain l) :
    redactLiterals (l ++ rest) = l ++ redactLiterals rest := by
  induction l with
  | nil => rfl
  | cons c l ih =>
    have hhere := (h (c :: l) (by simp)).resolve_left (by simp)
    rw [List.cons_append, redactLiterals_cons, ih, List.cons_append]
    · intro s hs
      exact h s (by rw [List.tails]; exact List.mem_cons_of_mem _ hs)
    · rw [List.find?_eq_none]
      intro kind hkind hprefix
      have hwhole := List.isPrefixOf_iff_prefix.mp hprefix
      obtain ⟨hnot, hnot'⟩ := hhere kind hkind
      rcases Nat.le_total kind.length (c :: l).length with hle | hle
      · exact hnot (List.prefix_of_prefix_length_le hwhole (List.prefix_append (c :: l) rest) hle)
      · exact hnot' (List.prefix_of_prefix_length_le (List.prefix_append (c :: l) rest) hwhole hle)

lemma redactLiterals_kind {kind : List Char} (hkind : kind ∈ kinds) :
    redactLiterals (kind ++ rest) = kind ++ redactLiterals (skipLiteral kind rest) := by
  have hfirst : firstLiteral (kind ++ rest) = some ([], kind, rest) := by
    simp only [kinds, List.mem_cons, List.not_mem_nil, or_false] at hkind
    rcases hkind with rfl | rfl | rfl <;> rfl
  rw [redactLiterals, hfirst]
  rfl

lemma dropWhile_before {p : Char → Bool} {c : Char} (h : ∀ x ∈ l, p x = true) (hc : p c = false) :
    (l ++ c :: rest).dropWhile p = c :: rest := by
  rw [List.dropWhile_append_of_pos h, List.dropWhile_cons_of_neg (by simp [hc])]

lemma ticked_append : ticked l ++ rest = '`' :: (l ++ '`' :: rest) := by
  rw [ticked, List.append_assoc]
  rfl

def digitsOf (n : Int) : List Char := (if n < 0 then ['-'] else []) ++ Nat.toDigits 10 n.natAbs

lemma skip_integer (n : Int) : skipLiteral "integer ".toList (ticked (digitsOf n) ++ rest) = rest := by
  have hdigits : ∀ c ∈ Nat.toDigits 10 n.natAbs, c.isDigit = true :=
    fun c hc => Nat.isDigit_of_mem_toDigits (by decide) (by decide) hc
  have hsign : (digitsOf n ++ '`' :: rest).dropWhile (fun c => c = '+' || c = '-') =
      Nat.toDigits 10 n.natAbs ++ '`' :: rest := by
    obtain ⟨d, ds, hds⟩ := List.exists_cons_of_ne_nil (Nat.toDigits_ne_nil (n := n.natAbs) (b := 10))
    have hd : (decide (d = '+') || decide (d = '-')) = false := by
      have hdigit := hdigits d (by rw [hds]; exact List.mem_cons_self)
      rw [Bool.or_eq_false_iff, decide_eq_false_iff_not, decide_eq_false_iff_not]
      constructor <;> rintro rfl <;> simp at hdigit
    rw [digitsOf, hds, List.append_assoc, List.cons_append]
    refine dropWhile_before (fun x hx => ?_) hd
    split at hx
    · rw [List.mem_singleton.mp hx]
      rfl
    · simp at hx
  have hskip : skipSigned (digitsOf n ++ '`' :: rest) = '`' :: rest := by
    rw [skipSigned, hsign, dropWhile_before hdigits (by decide)]
  have hwhole : skipLiteral "integer ".toList (ticked (digitsOf n) ++ rest) = skipMark ['`'] (
      let s := skipSigned (digitsOf n ++ '`' :: rest)
      let s := ((stripPrefix ['.'] s).map (List.dropWhile Char.isDigit)).getD s
      (((stripPrefix ['e'] s).or (stripPrefix ['E'] s)).map skipSigned).getD s) := by
    rw [ticked_append]
    rfl
  rw [hwhole, hskip]
  rfl

lemma skip_bool (b : Bool) :
    skipLiteral "boolean ".toList (ticked (toString b).toList ++ rest) = rest := by
  cases b <;> rfl

lemma redact_plain (h : Plain l) (hquote : '"' ∉ l) :
    redactSerdeValue (l ++ rest) = l ++ redactLiterals (redactStrings none rest) := by
  rw [redactSerdeValue, redactStrings_append hquote, redactLiterals_plain h]

lemma redact_literal {kind literal : List Char} (h : Plain l) (hkind : kind ∈ kinds)
    (hquote : '"' ∉ l) (hliteral : '"' ∉ literal)
    (hskip : ∀ rest : List Char, skipLiteral kind (ticked literal ++ rest) = rest) :
    redactSerdeValue (l ++ (kind ++ ticked literal) ++ rest) =
      l ++ (kind ++ redactLiterals (redactStrings none rest)) := by
  have hkindQuote : '"' ∉ kind := (by decide : ∀ kind ∈ kinds, '"' ∉ kind) kind hkind
  have hticked : '"' ∉ ticked literal := by simpa [ticked] using hliteral
  rw [redactSerdeValue, List.append_assoc, List.append_assoc, redactStrings_append hquote,
    redactStrings_append hkindQuote, redactStrings_append hticked, redactLiterals_plain h,
    redactLiterals_kind hkind, hskip]

lemma digitsOf_plain (n : Int) : '"' ∉ digitsOf n := by
  intro hmem
  rcases List.mem_append.mp hmem with hmem | hmem
  · split at hmem <;> simp at hmem
  · exact absurd (Nat.isDigit_of_mem_toDigits (by decide) (by decide) hmem) (by decide)

lemma redact_found {found found' : Unexpected} (h : Plain l) (hquote : '"' ∉ l)
    (hquotes : found.quotes = false) (hlike : found.Like found') :
    redactSerdeValue (l ++ found'.text printable ++ rest) =
      redactSerdeValue (l ++ found.text printable ++ rest) := by
  match found, found', hlike with
  | .bool b, .bool b', _ =>
    have hbool : ∀ b : Bool, '"' ∉ (toString b).toList := by decide
    exact (redact_literal h (by decide) hquote (hbool b') fun _ => skip_bool b').trans
      (redact_literal h (by decide) hquote (hbool b) fun _ => skip_bool b).symm
  | .integer n, .integer n', _ =>
    exact (redact_literal h (by decide) hquote (digitsOf_plain n') fun _ => skip_integer n').trans
      (redact_literal h (by decide) hquote (digitsOf_plain n) fun _ => skip_integer n).symm
  | .float _, .float _, _ => simp [Unexpected.quotes] at hquotes
  | .char _, .char _, _ => simp [Unexpected.quotes] at hquotes
  | .str text, .str text', _ =>
    have hstring : ∀ text : String, redactStrings none
        (l ++ (Unexpected.str text).text printable ++ rest) =
          l ++ ("string ".toList ++ ("\"…\"".toList ++ redactStrings none rest)) := by
      intro text
      have hword : '"' ∉ "string ".toList := by decide
      have htext : (Unexpected.str text).text printable =
        "string ".toList ++ showDebug printable text := rfl
      rw [htext, List.append_assoc, redactStrings_append hquote, List.append_assoc,
        redactStrings_append hword, redactStrings_showDebug]
    rw [redactSerdeValue, redactSerdeValue, hstring, hstring]
  | .shape what, .shape what', hsame => rw [show what = what' from hsame]

lemma two_tell {a b : List Char} (ha : Plain a) (hb : Plain b) (hquote : '"' ∉ a) (hquote' : '"' ∉ b)
    (hlength : a.length = b.length) (hne : a ≠ b) :
    redactSerdeValue (a ++ rest) ≠ redactSerdeValue (b ++ rest) := by
  rw [redact_plain ha hquote, redact_plain hb hquote']
  exact fun hsame => hne (List.append_inj_left hsame hlength)

lemma not_silent {e e₁ e₂ : SerdeError} (h₁ : e.SameWay e₁) (h₂ : e.SameWay e₂)
    (hne : redactSerdeValue (e₁.message printable) ≠ redactSerdeValue (e₂.message printable)) :
    ¬ Silent printable e := by
  intro hsilent
  have hsame := (hsilent e₁ h₁).trans (hsilent e₂ h₂).symm
  exact hne (String.ofList_injective ((String.append_right_inj "invalid settings: ").mp hsame))

lemma found_tells {found : Unexpected} (hquotes : found.quotes = true) :
    ∃ a b : Unexpected, found.Like a ∧ found.Like b ∧
      ∀ head ∈ ["invalid type: ".toList, "invalid value: ".toList],
        redactSerdeValue (head ++ a.text printable ++ rest) ≠
          redactSerdeValue (head ++ b.text printable ++ rest) := by
  have htells : ∀ head ∈ ["invalid type: ".toList, "invalid value: ".toList],
      ∀ a ∈ ["floating point `0.5`".toList, "floating point `1.5`".toList, "character `a`".toList,
        "character `b`".toList], Plain (head ++ a) ∧ '"' ∉ head ++ a := by decide
  match found, hquotes with
  | .float _, _ =>
    refine ⟨.float ⟨false, 0, [5]⟩, .float ⟨false, 1, [5]⟩, trivial, trivial, fun head hhead => ?_⟩
    have ha := htells head hhead "floating point `0.5`".toList (by decide)
    have hb := htells head hhead "floating point `1.5`".toList (by decide)
    exact two_tell ha.1 hb.1 ha.2 hb.2 (by rw [List.length_append, List.length_append]; rfl)
      fun hsame => (by decide : "floating point `0.5`".toList ≠ "floating point `1.5`".toList)
        (List.append_cancel_left hsame)
  | .char _, _ =>
    refine ⟨.char 'a', .char 'b', trivial, trivial, fun head hhead => ?_⟩
    have ha := htells head hhead "character `a`".toList (by decide)
    have hb := htells head hhead "character `b`".toList (by decide)
    exact two_tell ha.1 hb.1 ha.2 hb.2 (by rw [List.length_append, List.length_append]; rfl)
      fun hsame => (by decide : "character `a`".toList ≠ "character `b`".toList)
        (List.append_cancel_left hsame)

lemma variant_tells (variant expected : String) :
    ¬ Silent printable (.unknownVariant variant expected) := by
  have hfirst : (SerdeError.unknownVariant variant expected).SameWay (.unknownVariant "a" expected) :=
    rfl
  have hsecond : (SerdeError.unknownVariant variant expected).SameWay (.unknownVariant "b" expected) :=
    rfl
  refine not_silent hfirst hsecond ?_
  have hmessage : ∀ variant : String,
      (SerdeError.unknownVariant variant expected).message printable =
        "unknown variant `".toList ++ variant.toList ++ "`, expected ".toList ++ expected.toList :=
    fun _ => rfl
  rw [hmessage, hmessage]
  exact two_tell (by decide) (by decide) (by decide) (by decide) rfl (by decide)

structure Finds (printable : Char → Bool) (error : Unexpected → String → SerdeError)
    (head : List Char) : Prop where
  known : head ∈ ["invalid type: ".toList, "invalid value: ".toList]
  message : ∀ found expected, (error found expected).message printable =
    head ++ found.text printable ++ ", expected ".toList ++ expected.toList
  same : ∀ found expected e', (error found expected).SameWay e' ↔
    ∃ found', found.Like found' ∧ e' = error found' expected

lemma Finds.silent {error : Unexpected → String → SerdeError} {head : List Char}
    (h : Finds printable error head) (found : Unexpected) (expected : String) :
    Silent printable (error found expected) ↔ found.quotes = false := by
  constructor
  · intro hsilent
    rw [Bool.eq_false_iff]
    intro hquotes
    obtain ⟨a, b, ha, hb, hne⟩ :=
      @found_tells printable (", expected ".toList ++ expected.toList) found hquotes
    refine not_silent ((h.same _ _ _).mpr ⟨a, ha, rfl⟩) ((h.same _ _ _).mpr ⟨b, hb, rfl⟩) ?_ hsilent
    rw [h.message, h.message, List.append_assoc, List.append_assoc (head ++ b.text printable)]
    exact hne head h.known
  · rintro hquotes e' hsame
    obtain ⟨found', hlike, rfl⟩ := (h.same _ _ _).mp hsame
    have hplain := (by decide : ∀ head ∈ ["invalid type: ".toList, "invalid value: ".toList],
      Plain head ∧ '"' ∉ head) head h.known
    unfold invalidSettings
    rw [h.message, h.message, List.append_assoc, List.append_assoc (head ++ found.text printable),
      redact_found hplain.1 hplain.2 hquotes hlike]

lemma finds_type : Finds printable .invalidType "invalid type: ".toList where
  known := by decide
  message _ _ := rfl
  same found expected e' := by
    constructor
    · intro hsame
      cases e' with
      | invalidType found' expected' => exact ⟨found', hsame.1, by rw [hsame.2]⟩
      | _ => cases hsame
    · rintro ⟨found', hlike, rfl⟩
      exact ⟨hlike, rfl⟩

lemma finds_value : Finds printable .invalidValue "invalid value: ".toList where
  known := by decide
  message _ _ := rfl
  same found expected e' := by
    constructor
    · intro hsame
      cases e' with
      | invalidValue found' expected' => exact ⟨found', hsame.1, by rw [hsame.2]⟩
      | _ => cases hsame
    · rintro ⟨found', hlike, rfl⟩
      exact ⟨hlike, rfl⟩

/-- A refusal says the same whatever the values were, exactly where it names no floating-point
number, no character and no unknown variant. -/
theorem silent_iff (printable : Char → Bool) (e : SerdeError) :
    Silent printable e ↔ e.quotes = false := by
  have hequal : ∀ e : SerdeError, (∀ e', e.SameWay e' → e = e') → Silent printable e :=
    fun e hsame e' h => by rw [hsame e' h]
  cases e with
  | invalidType found expected => exact finds_type.silent found expected
  | invalidValue found expected => exact finds_value.silent found expected
  | unknownVariant variant expected =>
    exact iff_of_false (variant_tells variant expected) (by simp [SerdeError.quotes])
  | _ => exact iff_of_true (hequal _ fun e' h => by cases e' <;> exact h) rfl

theorem silent_refuted : ¬ ∀ e : SerdeError, Silent (fun _ => true) e :=
  fun hall => absurd ((finds_type.silent (.float ⟨false, 1, [5]⟩) "a string").mp (hall _))
    (by decide)

end Irori.Protocol
