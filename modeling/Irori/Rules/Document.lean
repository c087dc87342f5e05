import Irori.Types

/-!
# The building blocks of rules and flows

Durations, values, triggers, conditions and waits, as a person writes them. A duration is
kept as its text, and only a text that parses is one.
-/

namespace Irori

def i64Max : Int := 9223372036854775807
def minDurationMs : Int := 1
def maxDurationMs : Int := 7 * 24 * 60 * 60 * 1000

def digitsValue (digits : List Char) : Int :=
  digits.foldl (fun n c => n * 10 + (c.toNat - '0'.toNat : Nat)) 0

/-- The unit a text begins with: its milliseconds, its place in the order, what follows it. -/
def durationUnit : List Char → Option (Int × Int × List Char)
  | 'm' :: 's' :: rest => some (1, 4, rest)
  | 'd' :: rest => some (86400000, 0, rest)
  | 'h' :: rest => some (3600000, 1, rest)
  | 'm' :: rest => some (60000, 2, rest)
  | 's' :: rest => some (1000, 3, rest)
  | _ => none

/-- The units of `text` from `remaining` on. Every round takes a digit and a unit, so a text's
own length is enough fuel; a unit met before has a place no later than the last one. -/
def parseUnits (text : String) : Nat → List Char → Int → Int → Except String Int
  | _, [], _, total => .ok total
  | 0, _ :: _, _, total => .ok total
  | fuel + 1, remaining, lastIndex, total =>
    let digits := remaining.takeWhile Char.isDigit
    let malformed := s!"invalid duration {text.quote}: compact form, no spaces, " ++
      "units d/h/m/s/ms in that order"
    if digits.isEmpty then .error malformed
    else if digitsValue digits > i64Max then
      .error s!"invalid duration {text.quote}: number too large"
    else match durationUnit (remaining.drop digits.length) with
      | none => .error malformed
      | some (unitMs, index, rest) =>
        if index ≤ lastIndex then
          .error (s!"invalid duration {text.quote}: units must appear at most once, " ++
            "in order d, h, m, s, ms")
        else
          parseUnits text fuel rest index
            (min i64Max (total + min i64Max (digitsValue digits * unitMs)))

def parseMillis (text : String) : Except String Int := do
  let (sign, rest) := match text.toList with
    | '-' :: rest => (-1, rest)
    | '+' :: rest => (1, rest)
    | rest => ((1 : Int), rest)
  if rest.isEmpty then
    .error s!"invalid duration {text.quote}: needs at least one unit (e.g. 2m, 10m, 500ms)"
  else
    let total ← parseUnits text rest.length rest (-1) 0
    let signed := sign * total
    if minDurationMs ≤ |signed| ∧ |signed| ≤ maxDurationMs then .ok signed
    else .error s!"duration {text.quote} must be from 1ms to 7d (got {signed}ms)"

/-- Compact duration: `2m`, `1h30m`, `-30m`. Elapsed time, not civil. -/
structure CompactDuration where
  text : String
  wellFormed : (parseMillis text).isOk = true

def CompactDuration.millis (d : CompactDuration) : Int :=
  (parseMillis d.text).toOption.getD 0

example : (parseMillis "1h30m").toOption = some 5400000 := by decide

inductive AvailabilityWanted
  | available
  | unavailable
  deriving DecidableEq

/-- Bool, finite number, string, or JSON `null` (unknown). -/
inductive TypedValue
  | bool (value : Bool)
  | number (value : ℚ)
  | text (value : String)
  | null
  deriving DecidableEq

inductive Values
  | one (value : TypedValue)
  | any (values : List TypedValue)

def Values.iter : Values → List TypedValue
  | .one value => [value]
  | .any values => values

inductive Weekday
  | mon | tue | wed | thu | fri | sat | sun
  deriving DecidableEq

inductive SunEvent
  | sunrise | sunset | dawn | dusk | noon | midnight
  deriving DecidableEq

inductive NamedMode
  | single
  | restart
  deriving DecidableEq

inductive LimitedMode
  | queued (max : UInt8)
  | parallel (max : UInt8)
  deriving DecidableEq

inductive Mode
  | named (mode : NamedMode)
  | limited (mode : LimitedMode)
  deriving DecidableEq

def Mode.isSingle : Mode → Bool
  | .named .single => true
  | _ => false

structure ExprString where
  text : String
  deriving DecidableEq

inductive Trigger
  | state (entity : EntityId) (field : Option ObjectId) (from_ to_ : Option Values)
      (above below : Option ℚ) (hold : Option CompactDuration)
  | time (at_ cron : Option String) (weekday : Option (List Weekday))
  | sun (event : SunEvent) (offset : Option CompactDuration)
  | event (event : String) (data : Option (List (AttributeKey × Json)))
  | startup

inductive Condition
  | state (entity : EntityId) (field : Option ObjectId) (is : Option TypedValue)
      (availability : Option AvailabilityWanted)
  | expr (expr : ExprString)
  | time (after before : Option String) (weekday : Option (List Weekday))
  | sun (after before : Option SunEvent) (offset afterOffset beforeOffset : Option CompactDuration)
  | all (conditions : List Condition)
  | any (conditions : List Condition)
  | not (condition : Condition)

inductive WaitUntil
  | state (entity : EntityId) (field : Option ObjectId) (is : Option TypedValue)
      (availability : Option AvailabilityWanted) (hold : Option CompactDuration)
  | expr (expr : ExprString) (hold : Option CompactDuration)

def WaitUntil.hold : WaitUntil → Option CompactDuration
  | .state _ _ _ _ hold => hold
  | .expr _ hold => hold

/-- A service a rule may name, written `<kind>.<action>`; `toggle` is one the core resolves. -/
structure RuleService where
  kind : EntityKind
  action : String
  deriving DecidableEq

def RuleService.display (s : RuleService) : String := s!"{s.kind.domain}.{s.action}"

structure NumberField where
  min : Option ℚ
  max : Option ℚ
  integer : Bool

/-- A call's `data`: the service's own fields, by name. -/
abbrev CallData := Map String Json

end Irori
