import Irori.Lib.Words
import Irori.Types

/-!
# Ids of the registry

What protocols and the core call the things of a home: a protocol's permanent handles, the names
people read, and the ids the core makes out of them.
-/

namespace Irori

abbrev ProtocolId := Slug "protocol id"
abbrev DeviceId := Slug "device id"
abbrev AreaId := Slug "area id"
abbrev FloorId := Slug "floor id"
abbrev ExtensionId := Slug "extension id"
abbrev TokenId := Slug "token id"

def isControl (c : Char) : Bool := c.toNat < 32 || (127 ≤ c.toNat && c.toNat < 160)

/-- Unicode `White_Space`. -/
def isWhitespace (c : Char) : Bool :=
  (9 ≤ c.toNat && c.toNat ≤ 13) || (8192 ≤ c.toNat && c.toNat ≤ 8202) ||
    [32, 133, 160, 5760, 8232, 8233, 8239, 8287, 12288].contains c.toNat

/-- Whitespace for name boundaries: `White_Space` plus U+FEFF. -/
def isNameSpace (c : Char) : Bool := isWhitespace c || c.toNat == 65279

def checkUniqueId (value : String) : Except IdError Unit :=
  let chars := value.toList
  if chars.isEmpty then .error ⟨"unique id", value, "must not be empty"⟩
  else if chars.length > 255 then .error ⟨"unique id", value, "must be at most 255 characters"⟩
  else if chars.any isControl then
    .error ⟨"unique id", value, "must not contain control characters"⟩
  else .ok ()

/-- Trimmed, no control characters, and at most `max` of any others. -/
def checkText (what value : String) (max : Nat) (tooLong : String) : Except IdError Unit :=
  let chars := value.toList
  if chars.isEmpty then .error ⟨what, value, "must not be empty"⟩
  else if chars.length > max then .error ⟨what, value, tooLong⟩
  else if chars.head?.any isNameSpace || chars.getLast?.any isNameSpace then
    .error ⟨what, value, "must not start or end with whitespace"⟩
  else if chars.any isControl then
    .error ⟨what, value, "must not contain control characters"⟩
  else .ok ()

def checkName (value : String) : Except IdError Unit :=
  checkText "name" value 100 "must be at most 100 characters"

def checkDescription (value : String) : Except IdError Unit :=
  match checkText "description" value 500 "must be at most 500 characters" with
  | .error e => .error e
  | .ok () =>
    if value.toList.any (fun c => c.toNat == 8232 || c.toNat == 8233) then
      .error ⟨"description", value, "must be a single line (no line or paragraph separators)"⟩
    else .ok ()

structure Checked (check : String → Except IdError Unit) where
  text : String
  wellFormed : check text = .ok ()

namespace Checked

variable {check : String → Except IdError Unit}

lemma text_injective : Function.Injective (text : Checked check → String) := by
  rintro ⟨a, _⟩ ⟨b, _⟩ h
  simpa using h

instance : LinearOrder (Checked check) := LinearOrder.lift' text text_injective

instance transCmp : Std.TransCmp (compare : Checked check → Checked check → Ordering) := inferInstance

end Checked

abbrev UniqueId := Checked checkUniqueId

abbrev Name := Checked checkName

abbrev Description := Checked checkDescription

structure Key where
  protocol : ProtocolId
  uniqueId : UniqueId

namespace Key

lemma pair_injective : Function.Injective fun k : Key => toLex (k.protocol, k.uniqueId) := by
  rintro ⟨p, u⟩ ⟨q, v⟩ h
  simpa using h

instance : LinearOrder Key := LinearOrder.lift' _ pair_injective

instance transCmp : Std.TransCmp (compare : Key → Key → Ordering) := inferInstance

instance lawfulEqCmp : Std.LawfulEqCmp (compare : Key → Key → Ordering) := inferInstance

end Key

/-- One character of a text joins its slug. Anything that isn't a letter or a digit only separates
the ones that are. -/
def slugStep (st : List Char × Bool) (c : Char) : List Char × Bool :=
  if c.isAlphanum then
    ((if st.2 && !st.1.isEmpty then st.1 ++ ['_'] else st.1) ++ [c.toLower], false)
  else (st.1, true)

def slugWords (text : String) : List Char := (text.toList.foldl slugStep ([], false)).1

def slugCut (keep : Nat) (slug : List Char) : List Char :=
  (slug.take keep).rdropWhile (· == '_')

def slugify (text : String) : String := String.ofList (slugCut slugMaxLen (slugWords text))

def SlugLike (slug : List Char) : Prop :=
  Words.Separated '_' slug ∧ ∀ c ∈ slug, isSlugChar c = true

lemma slugLike_nil : SlugLike [] := ⟨Words.separated_nil _, by simp⟩

lemma isSlugChar_toLower {c : Char} (h : c.isAlphanum = true) :
    isSlugChar c.toLower = true ∧ c.toLower ≠ '_' := by
  have hcases : (65 ≤ c.toNat ∧ c.toNat ≤ 90) ∨ (97 ≤ c.toNat ∧ c.toNat ≤ 122) ∨
      (48 ≤ c.toNat ∧ c.toNat ≤ 57) := by
    simp only [Char.isAlphanum, isAlpha_eq, isUpper_eq, isLower_eq, Char.isDigit,
      Bool.or_eq_true, Bool.and_eq_true, decide_eq_true_eq, ge_iff_le, UInt32.le_iff_toNat_le] at h
    rcases h with (h | h) | h
    · exact .inl h
    · exact .inr (.inl h)
    · exact .inr (.inr h)
  have hofNat : Char.ofNat c.toNat = c := Char.ofNat_toNat c
  rw [← hofNat]
  generalize c.toNat = n at hcases
  rcases hcases with ⟨hlo, hhi⟩ | ⟨hlo, hhi⟩ | ⟨hlo, hhi⟩ <;> interval_cases n <;> decide

lemma slugStep_slugLike {st : List Char × Bool} (h : SlugLike st.1) (c : Char) :
    SlugLike (slugStep st c).1 := by
  unfold slugStep
  split
  · next hc =>
    obtain ⟨hslug, hne⟩ := isSlugChar_toLower hc
    have hword : Words.Separated '_' [c.toLower] := Words.separated_word (by simpa using hne.symm)
    dsimp only
    split
    · next hsep =>
      have hst : st.1 ≠ [] := by
        intro hnil
        simp [hnil] at hsep
      refine ⟨?_, ?_⟩
      · simpa using Words.separated_append h.1 hword hst (List.cons_ne_nil _ _)
      · intro d hd
        simp only [List.append_assoc, List.mem_append, List.mem_cons, List.not_mem_nil,
          or_false] at hd
        rcases hd with hd | rfl | rfl
        · exact h.2 d hd
        · decide
        · exact hslug
    · refine ⟨Words.separated_concat h.1 hne, ?_⟩
      intro d hd
      rcases List.mem_append.mp hd with hd | hd
      · exact h.2 d hd
      · rw [List.mem_singleton.mp hd]
        exact hslug
  · exact h

lemma foldl_slugLike (chars : List Char) {st : List Char × Bool} (h : SlugLike st.1) :
    SlugLike (chars.foldl slugStep st).1 := by
  induction chars generalizing st with
  | nil => exact h
  | cons c chars ih => exact ih (slugStep_slugLike h c)

lemma slugWords_slugLike (text : String) : SlugLike (slugWords text) :=
  foldl_slugLike _ slugLike_nil

lemma slugStep_ne_nil {st : List Char × Bool} {c : Char} (h : st.1 ≠ [] ∨ c.isAlphanum = true) :
    (slugStep st c).1 ≠ [] := by
  unfold slugStep
  split
  · simp
  · next hc => exact h.resolve_right hc

lemma foldl_ne_nil {chars : List Char} {st : List Char × Bool}
    (h : st.1 ≠ [] ∨ ∃ c ∈ chars, c.isAlphanum = true) : (chars.foldl slugStep st).1 ≠ [] := by
  induction chars generalizing st with
  | nil => simpa using h
  | cons c chars ih =>
    refine ih ?_
    rcases h with h | ⟨d, hd, halnum⟩
    · exact .inl (slugStep_ne_nil (.inl h))
    · rcases List.mem_cons.mp hd with rfl | hd
      · exact .inl (slugStep_ne_nil (.inr halnum))
      · exact .inr ⟨d, hd, halnum⟩

lemma Slug.exists_alphanum {what : String} (s : Slug what) :
    ∃ c ∈ s.text.toList, c.isAlphanum = true := by
  have h := s.wellFormed
  unfold checkSlug at h
  simp only [List.isEmpty_iff] at h
  split at h
  · simp at h
  · next hne =>
    split at h
    · simp at h
    · split at h
      · simp at h
      · next hall =>
        split at h
        · simp at h
        · next hsep =>
          obtain ⟨c, rest, hchars⟩ := List.exists_cons_of_ne_nil hne
          refine ⟨c, by simp [hchars], ?_⟩
          have hslug : isSlugChar c = true := by
            simp only [Bool.not_eq_true, Bool.not_eq_false', List.all_eq_true] at hall
            exact hall c (by simp [hchars])
          have hfirst : c ≠ '_' := by
            rintro rfl
            simp [hchars] at hsep
          unfold isSlugChar at hslug
          simp only [Bool.or_eq_true, Bool.and_eq_true, decide_eq_true_eq, beq_iff_eq] at hslug
          simp only [Char.isAlphanum, isAlpha_eq, isLower_eq, Char.isDigit, Bool.or_eq_true,
            Bool.and_eq_true, decide_eq_true_eq]
          rcases hslug with (hslug | hslug) | hslug
          · exact .inl (.inr hslug)
          · exact .inr hslug
          · exact absurd hslug hfirst

def fnv1a (bytes : List UInt8) : UInt64 :=
  bytes.foldl (fun hash byte => (hash ^^^ byte.toUInt64) * 0x00000100000001b3) 0xcbf29ce484222325

def hexDigits : List Char := "0123456789abcdef".toList

def hex16 (n : UInt64) : List Char :=
  (List.range 16).reverse.map fun i => hexDigits.getD (n.toNat / 16 ^ i % 16) '0'

def canonical (protocol : ProtocolId) (uniqueId : UniqueId) : String :=
  protocol.text ++ " " ++ uniqueId.text

/-- A handle too long for an id, or with nothing a slug can keep, gains a hash of all of it. -/
def deviceSlug (protocol : ProtocolId) (uniqueId : UniqueId) : List Char :=
  let slug := slugWords (canonical protocol uniqueId)
  if slug.length > slugMaxLen ∨ ¬ slug.length > protocol.text.utf8ByteSize then
    let bytes := (canonical protocol uniqueId).toList.flatMap String.utf8EncodeChar
    let hash := hex16 (fnv1a bytes)
    slugCut (slugMaxLen - hash.length - 1) slug ++ '_' :: hash
  else slug

lemma length_hex16 (n : UInt64) : (hex16 n).length = 16 := by
  simp [hex16]

lemma mem_hex16 {n : UInt64} {c : Char} (h : c ∈ hex16 n) : isSlugChar c = true ∧ c ≠ '_' := by
  have hall : ∀ d ∈ hexDigits, isSlugChar d = true ∧ d ≠ '_' := by
    have hbool : hexDigits.all (fun d => isSlugChar d && d != '_') = true := by decide
    intro d hd
    simpa using List.all_eq_true.mp hbool d hd
  obtain ⟨i, -, rfl⟩ := List.mem_map.mp h
  refine hall _ ?_
  have hlen : hexDigits.length = 16 := by decide
  have hlt : n.toNat / 16 ^ i % 16 < hexDigits.length := by omega
  rw [List.getD_eq_getElem?_getD, List.getElem?_eq_getElem hlt]
  exact List.getElem_mem hlt

lemma canonical_ne_nil (protocol : ProtocolId) (uniqueId : UniqueId) :
    slugWords (canonical protocol uniqueId) ≠ [] := by
  obtain ⟨c, hc, halnum⟩ := protocol.exists_alphanum
  exact foldl_ne_nil (.inr ⟨c, by simp [canonical, hc], halnum⟩)

lemma slugCut_slugLike {slug : List Char} (h : SlugLike slug) (keep : Nat) :
    SlugLike (slugCut keep slug) :=
  ⟨Words.separated_trimmed h.1 keep, fun c hc => h.2 c (Words.mem_of_mem_trimmed hc)⟩

lemma deviceSlug_slugLike (protocol : ProtocolId) (uniqueId : UniqueId) :
    SlugLike (deviceSlug protocol uniqueId) := by
  have hslug := slugWords_slugLike (canonical protocol uniqueId)
  unfold deviceSlug
  dsimp only
  split
  · generalize hhash : hex16 _ = hash
    have hmem : ∀ c ∈ hash, isSlugChar c = true ∧ c ≠ '_' := by
      rw [← hhash]
      exact fun c hc => mem_hex16 hc
    have hlen : hash.length = 16 := by rw [← hhash, length_hex16]
    have hcut := slugCut_slugLike hslug (slugMaxLen - hash.length - 1)
    refine ⟨?_, ?_⟩
    · refine Words.separated_append hcut.1 (Words.separated_word fun h => (hmem _ h).2 rfl) ?_ ?_
      · refine Words.trimmed_ne_nil hslug.1 (canonical_ne_nil protocol uniqueId) ?_
        rw [hlen]
        decide
      · exact List.ne_nil_of_length_pos (by omega)
    · intro c hc
      rcases List.mem_append.mp hc with hc | hc
      · exact hcut.2 c hc
      · rcases List.mem_cons.mp hc with rfl | hc
        · decide
        · exact (hmem c hc).1
  · exact hslug

lemma deviceSlug_ne_nil (protocol : ProtocolId) (uniqueId : UniqueId) :
    deviceSlug protocol uniqueId ≠ [] := by
  unfold deviceSlug
  dsimp only
  split
  · simp
  · exact canonical_ne_nil protocol uniqueId

lemma length_deviceSlug (protocol : ProtocolId) (uniqueId : UniqueId) :
    (deviceSlug protocol uniqueId).length ≤ slugMaxLen := by
  unfold deviceSlug
  dsimp only
  split
  · next =>
    rw [List.length_append, List.length_cons, length_hex16]
    have hcut := Words.length_trimmed_le (· == '_') (slugWords (canonical protocol uniqueId))
      (slugMaxLen - 16 - 1)
    simp only [slugCut, slugMaxLen] at hcut ⊢
    omega
  · omega

lemma isSlugChar_ascii {c : Char} (h : isSlugChar c = true) : c.utf8Size = 1 := by
  have hlt : c.toNat < 128 := by
    simp only [isSlugChar, Bool.or_eq_true, Bool.and_eq_true, decide_eq_true_eq, beq_iff_eq] at h
    rcases h with (⟨-, h⟩ | ⟨-, h⟩) | rfl
    · exact Nat.lt_of_le_of_lt (Char.le_def.mp h) (by decide)
    · exact Nat.lt_of_le_of_lt (Char.le_def.mp h) (by decide)
    · decide
  rw [Char.utf8Size_eq_one_iff, UInt32.le_iff_toNat_le]
  exact Nat.lt_succ_iff.mp hlt

lemma doubled_false {l : List Char}
    (h : ∀ before after : List Char, l ≠ before ++ '_' :: '_' :: after) : doubled l = false := by
  induction l with
  | nil => rfl
  | cons a l ih =>
    cases l with
    | nil => rfl
    | cons b l =>
      have htail : doubled (b :: l) = false :=
        ih fun before after heq => h (a :: before) after (by rw [heq]; rfl)
      unfold doubled
      rw [htail, Bool.or_false, Bool.and_eq_false_iff]
      by_contra hboth
      simp only [beq_eq_false_iff_ne, not_or, not_not] at hboth
      exact h [] l (by rw [hboth.1, hboth.2]; rfl)

lemma checkSlug_ofList {what : String} {slug : List Char} (h : SlugLike slug) (hne : slug ≠ [])
    (hlen : slug.length ≤ slugMaxLen) : checkSlug what (String.ofList slug) = .ok () := by
  have hsize : (String.ofList slug).utf8ByteSize = slug.length :=
    utf8ByteSize_ofList slug fun c hc => isSlugChar_ascii (h.2 c hc)
  have hall : slug.all isSlugChar = true := List.all_eq_true.mpr h.2
  unfold checkSlug
  simp only [String.toList_ofList, List.isEmpty_iff]
  rw [if_neg hne, if_neg (by omega), hall]
  simp [h.1.starts, h.1.ends, doubled_false h.1.single]

def deviceIdFor (protocol : ProtocolId) (uniqueId : UniqueId) : DeviceId :=
  ⟨String.ofList (deviceSlug protocol uniqueId),
    checkSlug_ofList (deviceSlug_slugLike protocol uniqueId)
      (deviceSlug_ne_nil protocol uniqueId) (length_deviceSlug protocol uniqueId)⟩

def EntityId.new (kind : EntityKind) (objectId : String) : Except IdError EntityId :=
  EntityId.parse (kind.domain ++ "." ++ objectId)

def numbered (base : String) (n : Nat) : String :=
  let suffix := "_" ++ n.repr
  String.ofList (slugCut (slugMaxLen - suffix.length) base.toList) ++ suffix

def idNumbers : Nat := 2 ^ 31 - 3

/-- The first of `rounds` numbers from `n` on that gives an id nothing has yet. -/
def findFree (base : String) (taken : String → Bool) (n : Nat) : Nat → Option String
  | 0 => none
  | rounds + 1 =>
    if taken (numbered base n) then findFree base taken (n + 1) rounds
    else some (numbered base n)

/-- `base` (or `fallback` if empty), with `_2`, `_3`, … appended until `taken` says it's free.
Nothing if the numbers run out, where the code panics. -/
def uniqueIdFor (base fallback : String) (taken : String → Bool) : Option String :=
  let base := if base.isEmpty then fallback else base
  if taken base then findFree base taken 2 idNumbers else some base

end Irori
