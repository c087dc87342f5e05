import Irori.Types
import Mathlib.Data.List.Sort
import Mathlib.Data.Prod.Lex

/-!
# Schedules

A schedule is on during the times a week sets out, and off between them. The times are wall
times in the home's zone. A wall time is the nanoseconds since 1970 began on the wall; a zone
says what the wall shows at each instant, and which instant a wall time is.
-/

namespace Irori.Helpers

/-- The digits of `text` in the shape `shape` gives, where `0` stands for a digit and anything
else for itself: one number for each run of them. -/
def digits : List Char → List Char → Nat → Option (List Nat)
  | [], [], part => some [part]
  | found :: text, '0' :: shape, part =>
    if found.isDigit then digits text shape (part * 10 + (found.toNat - '0'.toNat)) else none
  | found :: text, wanted :: shape, part =>
    if found = wanted then (digits text shape 0).map (part :: ·) else none
  | _, _, _ => none

structure ClockTime where
  hour : Nat
  minute : Nat
  second : Nat
  hour_lt : hour < 24
  minute_lt : minute < 60
  second_lt : second < 60

namespace ClockTime

/-- None for a time that doesn't exist. -/
def new (hour minute second : Nat) : Option ClockTime :=
  if h : hour < 24 ∧ minute < 60 ∧ second < 60 then
    some ⟨hour, minute, second, h.1, h.2.1, h.2.2⟩
  else none

/-- `06:45:00`, or `06:45` for the same thing. -/
def parse (text : String) : Except String ClockTime :=
  let parts := (digits text.toList "00:00:00".toList 0).or
    ((digits text.toList "00:00".toList 0).map (· ++ [0]))
  let time := match parts with
    | some [hour, minute, second] => new hour minute second
    | _ => none
  match time with
  | some time => .ok time
  | none => .error (text.quote ++
      " isn't a time of day: written like 06:45:00, from 00:00:00 to 23:59:59")

def seconds (time : ClockTime) : Nat := time.hour * 3600 + time.minute * 60 + time.second

lemma seconds_lt (time : ClockTime) : time.seconds < 86400 := by
  have h := time.hour_lt
  have h' := time.minute_lt
  have h'' := time.second_lt
  unfold seconds
  omega

end ClockTime

abbrev DaySeconds := { seconds : Nat // seconds ≤ 86400 }

/-- Seconds into the day of a time written `07:00`, or the day's end for `24:00`. -/
def secondsOf (text : String) : Except String DaySeconds :=
  if text = "24:00" ∨ text = "24:00:00" then .ok ⟨24 * 3600, by omega⟩
  else (ClockTime.parse text).map fun time => ⟨time.seconds, time.seconds_lt.le⟩

inductive Weekday
  | mon | tue | wed | thu | fri | sat | sun
  deriving DecidableEq

namespace Weekday

def all : List Weekday := [.mon, .tue, .wed, .thu, .fri, .sat, .sun]

def name : Weekday → String
  | .mon => "mon"
  | .tue => "tue"
  | .wed => "wed"
  | .thu => "thu"
  | .fri => "fri"
  | .sat => "sat"
  | .sun => "sun"

end Weekday

/-- `[schedules.<id>]`: for each day, its times as pairs of texts. -/
structure Schedule where
  name : String
  times : Weekday → List (String × String)

/-- A time of a day: the seconds into it from which and until which it's on. -/
structure Block where
  start : Nat
  stop : Nat
  ordered : start < stop
  inDay : stop ≤ 86400
  deriving DecidableEq

namespace Block

def leads (a b : Block) : Prop := a.start < b.start ∨ a.start = b.start ∧ a.stop ≤ b.stop

instance : DecidableRel leads := fun a b =>
  inferInstanceAs (Decidable (a.start < b.start ∨ a.start = b.start ∧ a.stop ≤ b.stop))

def contains (block : Block) (second : Int) : Bool := block.start ≤ second && second < block.stop

def of (day : Weekday) (times : String × String) : Except String Block :=
  match secondsOf times.1 with
  | .error why => .error why
  | .ok start =>
    match secondsOf times.2 with
    | .error why => .error why
    | .ok stop =>
      if h : start.1 < stop.1 then .ok ⟨start.1, stop.1, h, stop.2⟩
      else .error ("on " ++ day.name ++ ", " ++ times.1 ++ " to " ++ times.2 ++
        " ends before it starts; a time past midnight is two, one ending at 24:00 and one " ++
        "starting at 00:00")

end Block

def Apart (blocks : List Block) : Prop := blocks.IsChain fun a b => a.stop ≤ b.start

instance (blocks : List Block) : Decidable (Apart blocks) :=
  inferInstanceAs (Decidable (blocks.IsChain fun a b => a.stop ≤ b.start))

abbrev Day := { blocks : List Block // Apart blocks }

def dayOf (day : Weekday) (times : List (String × String)) : Except String Day :=
  match times.mapM (Block.of day) with
  | .error why => .error why
  | .ok blocks =>
    let sorted := blocks.insertionSort Block.leads
    if h : Apart sorted then .ok ⟨sorted, h⟩
    else .error ("on " ++ day.name ++ ", two of its times overlap")

structure Week where
  day : Weekday → Day

def dayNanos : Int := 86400 * 1000000000

namespace WallTime

def greatest : Int := 253402300799 * 1000000000 + 999999999

def date (wall : Int) : Int := wall / dayNanos

/-- The first of 1970 was a Thursday. -/
def weekdayOf (date : Int) : Weekday :=
  match (date + 3) % 7 with
  | 0 => .mon
  | 1 => .tue
  | 2 => .wed
  | 3 => .thu
  | 4 => .fri
  | 5 => .sat
  | _ => .sun

def intoDay (wall : Int) : Int := wall % dayNanos

def secondsInto (wall : Int) : Int := intoDay wall / 1000000000

end WallTime

/-- Each run of equal ones down to one, as `Vec::dedup` leaves it. -/
def dedup : List Int → List Int
  | [] => []
  | [a] => [a]
  | a :: b :: rest => if a = b then dedup (b :: rest) else a :: dedup (b :: rest)

namespace Week

def of (schedule : Schedule) : Except String Week :=
  match dayOf .mon (schedule.times .mon) with
  | .error why => .error why
  | .ok mon =>
  match dayOf .tue (schedule.times .tue) with
  | .error why => .error why
  | .ok tue =>
  match dayOf .wed (schedule.times .wed) with
  | .error why => .error why
  | .ok wed =>
  match dayOf .thu (schedule.times .thu) with
  | .error why => .error why
  | .ok thu =>
  match dayOf .fri (schedule.times .fri) with
  | .error why => .error why
  | .ok fri =>
  match dayOf .sat (schedule.times .sat) with
  | .error why => .error why
  | .ok sat =>
  match dayOf .sun (schedule.times .sun) with
  | .error why => .error why
  | .ok sun => .ok ⟨fun
      | .mon => mon
      | .tue => tue
      | .wed => wed
      | .thu => thu
      | .fri => fri
      | .sat => sat
      | .sun => sun⟩

variable (week : Week)

def blocks (date : Int) : List Block := (week.day (WallTime.weekdayOf date)).1

def on (wall : Int) : Bool :=
  (week.blocks (WallTime.date wall)).any (·.contains (WallTime.secondsInto wall))

def edgesOf (date : Int) : List Int :=
  ((week.blocks date).flatMap fun block => [(block.start : Int), block.stop]).filterMap fun edge =>
    let moved := date * dayNanos + edge * 1000000000
    if moved ≤ WallTime.greatest then some moved else none

/-- Every start and end over the week and a day from `wall` on that is after it, in order. -/
def edges (wall : Int) : List Int :=
  let days := (List.range 8).filterMap fun (ahead : Nat) =>
    let day := WallTime.date wall + (ahead : Int)
    if day ≤ WallTime.date WallTime.greatest then some day else none
  dedup (((days.flatMap week.edgesOf).filter (wall < ·)).insertionSort (· ≤ ·))

def at_ (wall : Int) : Bool × Option Int :=
  (week.on wall, (week.edges wall).find? fun edge => week.on edge != week.on wall)

end Week

def Valid (at_ : Int) : Prop := Timestamp.least ≤ at_ ∧ at_ ≤ Timestamp.greatest

instance : DecidablePred Valid := fun at_ =>
  inferInstanceAs (Decidable (Timestamp.least ≤ at_ ∧ at_ ≤ Timestamp.greatest))

lemma Valid.between {a b c : Int} (ha : Valid a) (hc : Valid c) (hab : a ≤ b) (hbc : b ≤ c) :
    Valid b := ⟨ha.1.trans hab, hbc.trans hc.2⟩

/-- What a zone's clocks show at each instant, and the instant a wall time is taken for. -/
structure Zone where
  wall : Int → Int
  toZoned : Int → Option Int

/-- A zone's `toZoned` takes a wall time for the first instant that shows it, one the clocks
skip for the instant later by the gap, and one they never come to for none. -/
structure Zone.Compatible (zone : Zone) : Prop where
  le_greatest : ∀ s, Valid s → zone.wall s ≤ WallTime.greatest
  first : ∀ x s, Valid s → zone.wall s = x → (∀ r, Valid r → r < s → zone.wall r ≠ x) →
    zone.toZoned x = some s
  skipped : ∀ x s, Valid (s - 1) → Valid s → (∀ r, Valid r → zone.wall r ≠ x) →
    (∀ r, Valid r → r < s → zone.wall r < x) → x < zone.wall s →
    Valid (s + (x - zone.wall (s - 1) - 1)) →
    zone.toZoned x = some (s + (x - zone.wall (s - 1) - 1))
  beyond : ∀ x, (∀ r, Valid r → zone.wall r < x) → zone.toZoned x = none

structure ScheduleState where
  on : Bool
  nextChange : Option Timestamp
  deriving DecidableEq

def scheduleState (week : Week) (zone : Zone) (now : Timestamp) : ScheduleState :=
  let (on, next) := week.at_ (zone.wall now)
  { on, nextChange := next.bind zone.toZoned }

end Irori.Helpers
