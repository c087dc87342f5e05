import Irori.Rules.Document
import Irori.Helpers.Schedule
import Irori.Home.Ids
import Mathlib.Data.List.Destutter

/-!
# Cron, and when a time comes round

Five-field cron, read into the sets it stands for, and the next moment a time of day or a cron comes
round at home. A date is the days since 1970 began, and a wall time its nanoseconds.
-/

namespace Irori

open Helpers (dayNanos)

structure CronSpec where
  minutes : List Nat
  hours : List Nat
  days : List Nat
  months : List Nat
  /-- 0 is Sunday. -/
  weekdays : List Nat
  /-- Whether the day of the month was written as anything but `*`. -/
  daysGiven : Bool
  weekdaysGiven : Bool
  deriving DecidableEq

namespace Cron

def months : List String :=
  ["JAN", "FEB", "MAR", "APR", "MAY", "JUN", "JUL", "AUG", "SEP", "OCT", "NOV", "DEC"]

def days : List String := ["SUN", "MON", "TUE", "WED", "THU", "FRI", "SAT"]

/-- A text as an unsigned byte. A plus in front is allowed. -/
def parseU8 (text : String) : Option Nat :=
  let digits := match text.toList with
    | '+' :: rest => rest
    | chars => chars
  if digits.isEmpty ∨ !digits.all Char.isDigit then none
  else if digitsValue digits ≤ 255 then some (digitsValue digits).toNat
  else none

/-- A field of a cron: what it is, how far it goes, and the words that stand for its numbers, the
first of them meaning `firstName`. -/
structure Field where
  what : String
  low : Nat
  high : Nat
  names : List String
  firstName : Nat

def minute : Field := ⟨"minute", 0, 59, [], 0⟩
def hour : Field := ⟨"hour", 0, 23, [], 0⟩
def dayOfMonth : Field := ⟨"day of the month", 1, 31, [], 0⟩
def month : Field := ⟨"month", 1, 12, months, 1⟩
def dayOfWeek : Field := ⟨"day of the week", 0, 7, days, 0⟩

namespace Field

variable (field : Field)

def number (piece : String) : Except String Nat :=
  let same (name : String) : Bool := name.toList.map Char.toLower = piece.toList.map Char.toLower
  match field.names.findIdx? same with
  | some at_ => .ok (field.firstName + at_)
  | none =>
    match parseU8 piece with
    | none => .error s!"cron's {field.what} can't be {piece.quote}"
    | some value =>
      if value < field.low ∨ field.high < value then
        .error s!"cron's {field.what} goes from {field.low} to {field.high}, not {value}"
      else .ok value

def stepOf (step : String) : Except String Nat :=
  match (parseU8 step).filter (0 < ·) with
  | some step => .ok step
  | none => .error s!"cron's {field.what} has a step that isn't a number above 0"

def ends (range : String) (stepped : Bool) : Except String (Nat × Nat) :=
  if range = "*" then .ok (field.low, field.high)
  else match splitOnce '-' range with
    | some (from_, to_) => do
      let from_ ← field.number from_
      let to_ ← field.number to_
      return (from_, to_)
    | none => do
      let from_ ← field.number range
      -- `5/10` means from 5 on, every 10; a bare `5` is only 5.
      return (from_, if stepped then field.high else from_)

def stepped (text : String) : Except String (String × Nat) :=
  match splitOnce '/' text with
  | some (range, step) => (field.stepOf step).map fun step => (range, step)
  | none => .ok (text, 1)

def part (text : String) : Except String (List Nat) := do
  let (range, step) ← field.stepped text
  let (from_, to_) ← field.ends range (text.toList.contains '/')
  if to_ < from_ then .error s!"cron's {field.what} has a range that runs backwards: {range}"
  else return List.range' from_ ((to_ - from_) / step + 1) step

def inOrder (values : List Nat) : List Nat :=
  (values.insertionSort (· ≤ ·)).destutter (· ≠ ·)

def parse (text : String) : Except String (List Nat) := do
  let parts ← ((text.toList.splitOn ',').map String.ofList).mapM field.part
  let values := inOrder parts.flatten
  if values.isEmpty then .error s!"cron's {field.what} is empty"
  else return values

end Field

def words (text : String) : List String :=
  ((text.toList.splitOnP isWhitespace).filter fun word => !word.isEmpty).map String.ofList

end Cron

namespace CronSpec

def parse (text : String) : Except String CronSpec :=
  match Cron.words text with
  | [minute, hour, day, month, weekday] => do
    let weekdays ← Cron.dayOfWeek.parse weekday
    -- 7 is Sunday, the same as 0.
    let weekdays := Cron.Field.inOrder (weekdays.map fun day => if day = 7 then 0 else day)
    let minutes ← Cron.minute.parse minute
    let hours ← Cron.hour.parse hour
    let days ← Cron.dayOfMonth.parse day
    let months ← Cron.month.parse month
    return { minutes, hours, days, months, weekdays,
             daysGiven := day != "*", weekdaysGiven := weekday != "*" }
  | _ => .error "cron needs 5 fields: minute hour day-of-month month day-of-week"

/-- Whether a date is one of this cron's days. When both the day of the month and the day of the
week are given, either one is enough. -/
def onDay (cron : CronSpec) (month day weekdayFromSunday : Nat) : Bool :=
  if !cron.months.contains month then false
  else
    let byDate := cron.days.contains day
    let byWeekday := cron.weekdays.contains weekdayFromSunday
    if cron.daysGiven && cron.weekdaysGiven then byDate || byWeekday else byDate && byWeekday

end CronSpec

example : (CronSpec.parse "*/15 7-9,18 1 JAN,jul MON-FRI").toOption.map CronSpec.hours =
    some [7, 8, 9, 18] := by decide +kernel

namespace Date

def last : Int := Helpers.WallTime.date Helpers.WallTime.greatest

def tomorrow (date : Int) : Option Int := if date + 1 ≤ last then some (date + 1) else none

/-- The month and the day of it, in the years as the calendar has them since 1582. -/
def monthDay (date : Int) : Nat × Nat :=
  -- Years are counted from the first of March, and 400 of them are a round of the calendar.
  let day := (date + 719468) % 146097
  let year := (day - day / 1460 + day / 36524 - day / 146096) / 365
  let ofYear := day - (365 * year + year / 4 - year / 100)
  let month := (5 * ofYear + 2) / 153
  ((if month < 10 then month + 3 else month - 9).toNat,
    (ofYear - (153 * month + 2) / 5 + 1).toNat)

example : monthDay 11016 = (2, 29) := by decide

def weekdayFromSunday (date : Int) : Nat := ((date + 4) % 7).toNat

def weekdayOf (date : Int) : Weekday :=
  match weekdayFromSunday date with
  | 0 => .sun
  | 1 => .mon
  | 2 => .tue
  | 3 => .wed
  | 4 => .thu
  | 5 => .fri
  | _ => .sat

def at_ (date : Int) (hour minute second : Nat) : Int :=
  date * dayNanos + ((hour * 3600 + minute * 60 + second : Nat) : Int) * 1000000000

end Date

/-- `HH:MM` or `HH:MM:SS`, within a day. -/
def parseCivil (text : String) : Except String Unit :=
  let parts := text.toList.splitOn ':'
  let parse (piece : List Char) (max : Nat) (what : String) : Except String Unit :=
    if piece.length ≠ 2 ∨ !piece.all Char.isDigit then
      .error s!"invalid time {text.quote}: {what} must be two digits"
    else if digitsValue piece > max then .error s!"invalid time {text.quote}: {what} out of range"
    else .ok ()
  match parts with
  | [hour, minute] => do
    parse hour 23 "hour"
    parse minute 59 "minute"
  | [hour, minute, second] => do
    parse hour 23 "hour"
    parse minute 59 "minute"
    parse second 59 "second"
  | _ => .error s!"invalid time {text.quote}: use HH:MM or HH:MM:SS"

structure CivilTime where
  text : String
  wellFormed : (parseCivil text).isOk = true

def CivilTime.parts (time : CivilTime) : Nat × Nat × Nat :=
  let pieces := (time.text.toList.splitOn ':').map fun piece => (digitsValue piece).toNat
  (pieces[0]?.getD 0, pieces[1]?.getD 0, pieces[2]?.getD 0)

/-- Which offset from UTC a wall time has. -/
inductive AmbiguousOffset
  | unambiguous (offset : Int)
  /-- The clocks go forward over it. -/
  | gap (before after : Int)
  /-- The clocks go back over it: it comes twice. -/
  | fold (before after : Int)

/-- A time zone: what its clocks show at each instant, and the offset of each wall time, in
nanoseconds. They show nothing after the year 9999. -/
structure TimeZone where
  wall : Timestamp → Int
  offset : Int → AmbiguousOffset
  date_le : ∀ now, Helpers.WallTime.date (wall now) ≤ Date.last

namespace TimeZone

variable (zone : TimeZone)

/-- The moment a wall time stands for: none for one the clocks go forward over, and the first for
one that comes twice. -/
def moment (wall : Int) : Option Timestamp :=
  let at_ (offset : Int) : Option Timestamp :=
    if Helpers.Valid (wall - offset) then some (wall - offset) else none
  match zone.offset wall with
  | .unambiguous offset => at_ offset
  | .gap _ _ => none
  | .fold before _ => at_ before

/-- How far ahead a next occurrence is looked for: a cron for the 29th of February needs four
years, and one more for good measure. -/
def horizonDays : Nat := 366 * 5

/-- What the first of `n` days from `date` on that has something has. -/
def search (found : Int → Option Timestamp) : Nat → Int → Option Timestamp
  | 0, _ => none
  | n + 1, date =>
    match found date with
    | some moment => some moment
    | none =>
      match Date.tomorrow date with
      | none => none
      | some date => search found n date

/-- The first moment after `after` that the clock at home reads `at_`, on one of `weekdays` if any
are given. -/
def nextTime (at_ : CivilTime) (weekdays : Option (List Weekday)) (after : Timestamp) :
    Option Timestamp :=
  let (hour, minute, second) := at_.parts
  search (fun date =>
    if weekdays.all (·.contains (Date.weekdayOf date)) then
      (zone.moment (Date.at_ date hour minute second)).filter (after < ·)
    else none)
    horizonDays (Helpers.WallTime.date (zone.wall after))

def nextCron (cron : CronSpec) (after : Timestamp) : Option Timestamp :=
  search (fun date =>
    let (month, day) := Date.monthDay date
    if cron.onDay month day (Date.weekdayFromSunday date) then
      cron.hours.findSome? fun hour => cron.minutes.findSome? fun minute =>
        (zone.moment (Date.at_ date hour minute 0)).filter (after < ·)
    else none)
    horizonDays (Helpers.WallTime.date (zone.wall after))

end TimeZone

end Irori
