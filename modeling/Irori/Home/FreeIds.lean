import Irori.Home.Ids

/-!
# Ids from any text

The search for a free id as it goes for any text, cut by bytes: a cut inside a character panics,
which is `none` here. A slug has no such character, and the ids the core makes start from one.
-/

namespace Irori.Text

/-- The characters of the first `n` bytes. -/
def bytes : Nat → List Char → Option (List Char)
  | 0, _ => some []
  | _ + 1, [] => none
  | n + 1, c :: rest =>
    if c.utf8Size ≤ n + 1 then (bytes (n + 1 - c.utf8Size) rest).map (c :: ·) else none

/-- `base` with `_n` after it, cut so both fit. -/
def numbered (base : String) (n : Nat) : Option String :=
  let suffix := "_" ++ n.repr
  (bytes (min base.utf8ByteSize (slugMaxLen - suffix.length)) base.toList).map fun stem =>
    String.ofList (stem.rdropWhile (· == '_')) ++ suffix

/-- The first of `rounds` numbers from `n` on that gives an id nothing has yet. -/
def findFree (base : String) (taken : String → Bool) (n : Nat) : Nat → Option String
  | 0 => none
  | rounds + 1 =>
    match numbered base n with
    | none => none
    | some id => if taken id then findFree base taken (n + 1) rounds else some id

/-- `base` (or `fallback` if empty), with `_2`, `_3`, … appended until `taken` says it's free. -/
def uniqueIdFor (base fallback : String) (taken : String → Bool) : Option String :=
  let base := if base.isEmpty then fallback else base
  if taken base then findFree base taken 2 idNumbers else some base

end Irori.Text
