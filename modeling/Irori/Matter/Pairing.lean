import Irori.Home.Types

/-!
# Matter's pairing codes

A typed code as the Matter server takes it, and the check digit a manual code ends in.
-/

namespace Irori.Matter

/-- Verhoeff's table of ten digits combined. -/
def D : List (List Nat) :=
  [[0, 1, 2, 3, 4, 5, 6, 7, 8, 9],
   [1, 2, 3, 4, 0, 6, 7, 8, 9, 5],
   [2, 3, 4, 0, 1, 7, 8, 9, 5, 6],
   [3, 4, 0, 1, 2, 8, 9, 5, 6, 7],
   [4, 0, 1, 2, 3, 9, 5, 6, 7, 8],
   [5, 9, 8, 7, 6, 0, 4, 3, 2, 1],
   [6, 5, 9, 8, 7, 1, 0, 4, 3, 2],
   [7, 6, 5, 9, 8, 2, 1, 0, 4, 3],
   [8, 7, 6, 5, 9, 3, 2, 1, 0, 4],
   [9, 8, 7, 6, 5, 4, 3, 2, 1, 0]]

/-- Verhoeff's table of what a digit counts as where it stands. -/
def P : List (List Nat) :=
  [[0, 1, 2, 3, 4, 5, 6, 7, 8, 9],
   [1, 5, 7, 6, 2, 8, 3, 0, 9, 4],
   [5, 8, 0, 3, 7, 9, 6, 1, 4, 2],
   [8, 9, 1, 6, 0, 4, 3, 5, 2, 7],
   [9, 4, 5, 3, 1, 2, 6, 8, 7, 0],
   [4, 2, 8, 6, 5, 7, 3, 9, 0, 1],
   [2, 7, 9, 3, 8, 0, 6, 4, 1, 5],
   [7, 0, 4, 6, 9, 1, 3, 2, 5, 8]]

/-- Where the tables are read: every reader's digits are some. -/
def entry (table : List (List Nat)) (row column : Nat) : Nat :=
  ((table[row]?).getD [])[column]?.getD 0

def digitOf (c : Char) : Nat := c.toNat - '0'.toNat

/-- Whether a run of digits ends in its own Verhoeff check digit, as a Matter manual pairing code
does. -/
def verhoeffValid (digits : List Char) : Bool :=
  let check := digits.reverse.zipIdx.foldl
    (fun check (digit, at_) => entry D check (entry P (at_ % 8) (digitOf digit))) 0
  check = 0

def notACode : String :=
  "That isn't a Matter pairing code. It's the 11 digits under the device's QR code (dashes are " ++
    "fine), or the code the app you're sharing it from shows."

/-- Whether a text begins with `MT:`, however that is cased; and what follows. -/
def qrPayload : List Char → Option (List Char)
  | m :: t :: ':' :: payload =>
    if (m = 'M' ∨ m = 'm') ∧ (t = 'T' ∨ t = 't') then some payload else none
  | _ => none

/-- The code as the server takes it: a QR code's text as it is, a manual code's digits without the
dashes and spaces it's printed with. -/
def pairingCode (input : String) : Except String String :=
  let input := (Core.trim input).toList
  match qrPayload input with
  | some payload =>
    -- A QR code's text: base-38, upper case.
    let fine := !payload.isEmpty ∧
      payload.all fun c => c.isDigit || c.isUpper || c = '-' || c = '.'
    if fine then .ok ("MT:" ++ String.ofList payload) else .error notACode
  | none =>
    let digits := input.filter fun c => !(c = ' ' || c = '-' || c = '.')
    let fine := (digits.length = 11 ∨ digits.length = 21) ∧ digits.all Char.isDigit ∧
      verhoeffValid digits
    if fine then .ok (String.ofList digits) else .error notACode

end Irori.Matter
