import Irori.Flows.Validate

/-!
# A sample home

A home in UTC with no coordinates, for running the model on small inputs: its calendar is worked
out from the seconds since 1970, its run ids count, and it compiles no expression but those it is
given, and works out only literals and calls.
-/

namespace Irori.Sample

def day : Int := 86400 * 1000000000

def second : Int := 1000000000

def timeOfDay (text : String) : Int :=
  match text.splitOn ":" with
  | [hour, minute] => (digitsValue hour.toList * 3600 + digitsValue minute.toList * 60) * second
  | [hour, minute, seconds] =>
    (digitsValue hour.toList * 3600 + digitsValue minute.toList * 60 +
      digitsValue seconds.toList) * second
  | _ => 0

def weekdayAt (now : Timestamp) : Nat := ((now / day + 3) % 7).toNat

def weekdayOf (n : Nat) : Weekday :=
  match n with
  | 0 => .mon
  | 1 => .tue
  | 2 => .wed
  | 3 => .thu
  | 4 => .fri
  | 5 => .sat
  | _ => .sun

def nextTime (at_ : String) (weekdays : Option (List Weekday)) (after : Timestamp) :
    Option Timestamp :=
  let first := ((after - timeOfDay at_) / day + 1) * day + timeOfDay at_
  ((List.range 8).map fun i => first + i * day).find? fun moment =>
    weekdays.all (·.contains (weekdayOf (weekdayAt moment)))

def twoDigits (n : Int) : String := if n < 10 then s!"0{n}" else s!"{n}"

def hourAndMinute (now : Timestamp) : Int × Int :=
  let seconds := now % day / second
  (seconds / 3600, seconds / 60 % 60)

def clock : Clock where
  inTimeWindow _ after before weekdays now :=
    let time := now % day
    let inside := match after.map timeOfDay, before.map timeOfDay with
      | some after, some before =>
        if after < before then decide (after ≤ time ∧ time < before)
        else decide (after ≠ before ∧ (after ≤ time ∨ time < before))
      | some after, none => decide (after ≤ time)
      | none, some before => decide (time < before)
      | none, none => true
    inside && weekdays.all (·.contains (weekdayOf (weekdayAt now)))
  inSunWindow _ _ _ _ _ _ := .error "the sun needs to know where the home is"
  hourAndMinute _ now := hourAndMinute now
  nextTime _ at_ weekdays after := nextTime at_ weekdays after
  nextCron _ _ _ := none
  nextSun _ _ _ _ := none
  wall _ now :=
    let (hour, minute) := hourAndMinute now
    s!"{twoDigits hour}:{twoDigits minute}"
  weekday _ now := weekdayAt now
  cronProblem _ := none

/-- What a literal is worth. -/
def literalValue : LiteralValue → Value
  | .boolean b => .bool b
  | .bytes _ => .other "Bytes"
  | .double q => .float q
  | .int i => .int i
  | .null => .null
  | .string s => .string s
  | .uint u => .uint u

def operator (name : String) (args : List Value) : Option (Except String Value) :=
  match name, args with
  | "_==_", [.float a, .float b] => some (.ok (.bool (a = b)))
  | "_>_", [.float a, .float b] => some (.ok (.bool (b < a)))
  | "_<_", [.float a, .float b] => some (.ok (.bool (a < b)))
  | _, _ => none

mutual

/-- Works out an expression made of literals and calls: the arguments from left to right, then the
call. -/
def interpret (functions : Functions) :
    Expr → List Read → Except String Value × List Read
  | .literal value, reads => (.ok (literalValue value), reads)
  | .call funcName args, reads =>
    match interpretArgs functions args reads with
    | (.error e, reads) => (.error e, reads)
    | (.ok values, reads) =>
      match operator funcName values with
      | some result => (result, reads)
      | none => functions funcName values reads
  | _, reads => (.error "only literals and calls are worked out here", reads)

def interpretArgs (functions : Functions) :
    List Expr → List Read → Except String (List Value) × List Read
  | [], reads => (.ok [], reads)
  | arg :: args, reads =>
    match interpret functions arg reads with
    | (.error e, reads) => (.error e, reads)
    | (.ok value, reads) =>
      match interpretArgs functions args reads with
      | (.error e, reads) => (.error e, reads)
      | (.ok values, reads) => (.ok (value :: values), reads)

end

def unicode : Unicode := { isAlphanumeric := Char.isAlphanum, isWhitespace := Char.isWhitespace }

/-- A parser that knows the expressions it is given, by their text once compiled. -/
def cel (known : List (String × Expr)) : Cel where
  unicode := unicode
  parse source := match known.lookup source with
    | some expr => .ok expr
    | none => .error "ERROR: <input>: Syntax error"
  execute expr functions reads := interpret functions expr reads

def env (known : List (String × Expr)) : Env where
  cel := cel known
  clock := clock
  numberField _ _ := none
  showFloat q := if q.den = 1 then toString q.num else toString q
  showNumber n := match n with
    | .int n => toString n
    | .float q => toString q
  sha256 text := text
  runId n now := ulid (millis now) (n + 1)

def lux : EntityId := ⟨"sensor.lux", by decide⟩

def motion : EntityId := ⟨"binary_sensor.motion", by decide⟩

def reported (entity : EntityId) (value : Typed) (availability : Availability) : EntityState :=
  { entityId := entity, availability,
    state := some { kind := entity.kind, primary := value, fields := [], brightness := none },
    attributes := [], lastChanged := 0, contextId := ulid 0 0 }

def evening : Snapshot where
  states := Std.ExtTreeMap.ofList
    [(lux, reported lux (.number 8) .unavailable), (motion, reported motion (.bool true) .available)]
    compare
  vars := ∅
  now := 0

def flow (mode : Mode) (nodes : List (NodeId × Node)) (wires : List Wire) : Flow where
  id := ⟨"evening", by decide⟩
  name := "Evening"
  description := none
  owner := none
  enabled := true
  mode := mode
  nodes := Std.ExtTreeMap.ofList nodes compare
  wires := wires

def wire (source : NodeId) (port : Port) (target : NodeId) : Wire := ⟨⟨source, port⟩, target⟩

def started : NodeId := ⟨"started", by decide⟩

lemma minute_parses : (parseMillis "1m").isOk = true := by decide

lemma dark_slug : checkSlug "object id" "dark" = .ok () := by decide

def dark : NodeId := ⟨"dark", dark_slug⟩

def meter : Entity where
  id := lux
  kind := .sensor
  primaryShape := some .number
  fields := []
  textOptions := none
  brightness := false
  refuses _ _ := none

def registry (entities : List Entity) : RegistryView where
  entity id := entities.find? fun entity => entity.id = id
  hasTimezone := true
  hasLocation := false

end Irori.Sample
