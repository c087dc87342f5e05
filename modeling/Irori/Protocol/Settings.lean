import Mathlib.Data.Nat.Digits.Defs

/-!
# Why settings were refused

What serde says of a table that is none of a protocol's settings, and what is taken out of that
before anyone is told.
-/

namespace Irori.Protocol

/-- A character as a text's `Debug` form writes it; `printable` are those it writes as they are. -/
def escapeDebug (printable : Char → Bool) (c : Char) : List Char :=
  if c = '"' ∨ c = '\\' then ['\\', c]
  else if c = '\n' then ['\\', 'n']
  else if c = '\r' then ['\\', 'r']
  else if c = '\t' then ['\\', 't']
  else if c = '\x00' then ['\\', '0']
  else if printable c then [c]
  else
    let digits := (Nat.digits 16 c.toNat).reverse.map fun d =>
      ("0123456789abcdef".toList[d]?).getD '0'
    ['\\', 'u', '\x7b'] ++ digits ++ ['\x7d']

def showDebug (printable : Char → Bool) (text : String) : List Char :=
  '"' :: text.toList.flatMap (escapeDebug printable) ++ ['"']

/-- A floating-point number as it is printed: never with an exponent. -/
structure Decimal where
  negative : Bool
  whole : Nat
  fraction : List (Fin 10)

def Decimal.text (x : Decimal) : List Char :=
  (if x.negative then ['-'] else []) ++ Nat.toDigits 10 x.whole ++
    '.' :: x.fraction.map fun d => d.val.digitChar

inductive Unexpected
  | bool (b : Bool)
  | integer (n : Int)
  | float (x : Decimal)
  | char (c : Char)
  | str (text : String)
  /-- `null`, `sequence`, `map` and the like: no value of the table. -/
  | shape (what : String)

def ticked (l : List Char) : List Char := '`' :: l ++ ['`']

def Unexpected.text (printable : Char → Bool) : Unexpected → List Char
  | bool b => "boolean ".toList ++ ticked (toString b).toList
  | integer n =>
    "integer ".toList ++ ticked ((if n < 0 then ['-'] else []) ++ Nat.toDigits 10 n.natAbs)
  | float x => "floating point ".toList ++ ticked x.text
  | char c => "character ".toList ++ ticked [c]
  | str text => "string ".toList ++ showDebug printable text
  | shape what => what.toList

/-- Serde's own errors; `expected` is the config type's. -/
inductive SerdeError
  | invalidType (found : Unexpected) (expected : String)
  | invalidValue (found : Unexpected) (expected : String)
  | invalidLength (length : Nat) (expected : String)
  | unknownVariant (variant expected : String)
  | unknownField (field expected : String)
  | missingField (field : String)
  | duplicateField (field : String)

def SerdeError.message (printable : Char → Bool) : SerdeError → List Char
  | invalidType found expected =>
    "invalid type: ".toList ++ found.text printable ++ ", expected ".toList ++ expected.toList
  | invalidValue found expected =>
    "invalid value: ".toList ++ found.text printable ++ ", expected ".toList ++ expected.toList
  | invalidLength length expected => s!"invalid length {length}, expected {expected}".toList
  | unknownVariant variant expected =>
    "unknown variant `".toList ++ variant.toList ++ "`, expected ".toList ++ expected.toList
  | unknownField field expected => s!"unknown field `{field}`, expected {expected}".toList
  | missingField field => s!"missing field `{field}`".toList
  | duplicateField field => s!"duplicate field `{field}`".toList

/-- Quoted strings are dropped: `none` outside of quotes, else whether the character before was a
backslash that counts. -/
def redactStrings : Option Bool → List Char → List Char
  | _, [] => []
  | none, c :: rest =>
    if c = '"' then "\"…\"".toList ++ redactStrings (some false) rest
    else c :: redactStrings none rest
  | some true, _ :: rest => redactStrings (some false) rest
  | some false, c :: rest =>
    if c = '\\' then redactStrings (some true) rest
    else if c = '"' then redactStrings none rest
    else redactStrings (some false) rest

def stripPrefix (mark s : List Char) : Option (List Char) :=
  if mark.isPrefixOf s then some (s.drop mark.length) else none

def skipMark (mark s : List Char) : List Char := (stripPrefix mark s).getD s

/-- Between a pair of backticks, if there are any. -/
def skipTicked (skip : List Char → List Char) (s : List Char) : List Char :=
  match stripPrefix ['`'] s with
  | some inner => skipMark ['`'] (skip inner)
  | none => skip s

def skipBoolean : List Char → List Char := skipTicked fun s =>
  ((stripPrefix "true".toList s).or (stripPrefix "false".toList s)).getD s

def skipSigned (s : List Char) : List Char :=
  (s.dropWhile fun c => c = '+' || c = '-').dropWhile Char.isDigit

def skipNumber : List Char → List Char := skipTicked fun s =>
  let s := skipSigned s
  let s := ((stripPrefix ['.'] s).map (List.dropWhile Char.isDigit)).getD s
  (((stripPrefix ['e'] s).or (stripPrefix ['E'] s)).map skipSigned).getD s

def kinds : List (List Char) := ["integer ".toList, "float ".toList, "boolean ".toList]

/-- The first word before a literal: what stands before it, which it is, and what follows. -/
def firstLiteral : List Char → Option (List Char × List Char × List Char)
  | [] => none
  | c :: rest =>
    match kinds.find? fun kind => kind.isPrefixOf (c :: rest) with
    | some kind => some ([], kind, (c :: rest).drop kind.length)
    | none => (firstLiteral rest).map fun x => (c :: x.1, x.2)

def skipLiteral (kind rest : List Char) : List Char :=
  if kind = "boolean ".toList then skipBoolean rest else skipNumber rest

lemma stripPrefix_length {mark s rest : List Char} (h : stripPrefix mark s = some rest) :
    rest.length ≤ s.length := by
  unfold stripPrefix at h
  split at h
  · rw [← Option.some.inj h, List.length_drop]
    omega
  · simp at h

lemma getD_length {o : Option (List Char)} {s : List Char} (h : ∀ rest, o = some rest →
    rest.length ≤ s.length) : (o.getD s).length ≤ s.length := by
  cases o with
  | none => exact le_rfl
  | some rest => exact h rest rfl

lemma skipTicked_length {skip : List Char → List Char} (h : ∀ s, (skip s).length ≤ s.length)
    (s : List Char) : (skipTicked skip s).length ≤ s.length := by
  unfold skipTicked
  split
  · next inner hinner =>
    exact (getD_length fun _ => stripPrefix_length).trans ((h inner).trans (stripPrefix_length hinner))
  · exact h s

lemma skipSigned_length (s : List Char) : (skipSigned s).length ≤ s.length :=
  ((List.dropWhile_sublist _).trans (List.dropWhile_sublist _)).length_le

lemma skipLiteral_length (kind rest : List Char) :
    (skipLiteral kind rest).length ≤ rest.length := by
  have hor : ∀ {a b s t : List Char}, (stripPrefix a s).or (stripPrefix b s) = some t →
      t.length ≤ s.length := by
    intro a b s t h
    rcases Option.or_eq_some_iff.mp h with h | ⟨-, h⟩ <;> exact stripPrefix_length h
  unfold skipLiteral
  split
  · exact skipTicked_length (fun s => getD_length fun t ht => hor ht) rest
  · refine skipTicked_length (fun s => ?_) rest
    refine (getD_length fun t ht => ?_).trans ((getD_length fun t ht => ?_).trans
      (skipSigned_length s))
    · obtain ⟨u, hu, rfl⟩ := Option.map_eq_some_iff.mp ht
      exact (skipSigned_length u).trans (hor hu)
    · obtain ⟨u, hu, rfl⟩ := Option.map_eq_some_iff.mp ht
      exact (List.dropWhile_sublist _).length_le.trans (stripPrefix_length hu)

lemma firstLiteral_length {rest before kind after : List Char}
    (h : firstLiteral rest = some (before, kind, after)) : after.length < rest.length := by
  induction rest generalizing before with
  | nil => simp [firstLiteral] at h
  | cons c rest ih =>
    rw [firstLiteral] at h
    split at h
    · next found hfound =>
      have hkind : found ∈ kinds := List.mem_of_find?_eq_some hfound
      have hpos : 0 < found.length := (by decide : ∀ k ∈ kinds, 0 < k.length) found hkind
      simp only [Option.some.injEq, Prod.mk.injEq] at h
      rw [← h.2.2, List.length_drop, List.length_cons]
      omega
    · obtain ⟨x, hx, heq⟩ := Option.map_eq_some_iff.mp h
      simp only [Prod.mk.injEq] at heq
      have hless := @ih x.1 (by rw [hx, ← heq.2])
      rw [List.length_cons]
      omega

def redactLiterals (rest : List Char) : List Char :=
  match _h : firstLiteral rest with
  | none => rest
  | some (before, kind, after) => before ++ kind ++ redactLiterals (skipLiteral kind after)
termination_by rest.length
decreasing_by exact (skipLiteral_length kind after).trans_lt (firstLiteral_length _h)

def redactSerdeValue (message : List Char) : List Char :=
  redactLiterals (redactStrings none message)

def invalidSettings (printable : Char → Bool) (err : SerdeError) : String :=
  "invalid settings: " ++ String.ofList (redactSerdeValue (err.message printable))

end Irori.Protocol
