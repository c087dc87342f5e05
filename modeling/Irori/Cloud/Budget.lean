import Mathlib.Algebra.GroupWithZero.Nat
import Mathlib.Data.Nat.Notation

/-!
# The allowance of a vendor's cloud

How much of a period's calls is gone, from irori-cloud's budget. Moments are seconds since 1970, in
UTC. Numbers are exact: what the code adds up is in `Op.sum`.
-/

namespace Irori.Cloud

def yearMonth (days : ℕ) : ℕ × ℕ :=
  let z := days + 719468
  let era := z / 146097
  let doe := z - era * 146097
  let yoe := (doe - doe / 1460 + doe / 36524 - doe / 146096) / 365
  let doy := doe - (365 * yoe + yoe / 4 - yoe / 100)
  let mp := (5 * doy + 2) / 153
  let month := if mp < 10 then mp + 3 else mp - 9
  let year := yoe + era * 400 + if month ≤ 2 then 1 else 0
  (year, month)

/-- The day, counted from 1970-01-01, a month starts on. -/
def daysFromCivil (year month : ℕ) : ℕ :=
  let year := if month ≤ 2 then year - 1 else year
  let era := year / 400
  let yoe := year - era * 400
  let mp := if month > 2 then month - 3 else month + 9
  let doy := (153 * mp + 2) / 5
  let doe := yoe * 365 + yoe / 4 - yoe / 100 + doy
  era * 146097 + doe - 719468

inductive Period
  | day
  | month
  deriving DecidableEq

/-- Which one `now` falls in, as a number that only goes up. -/
def Period.index (period : Period) (now : ℕ) : ℕ :=
  let days := now / 86400
  match period with
  | day => days
  | month =>
    let date := yearMonth days
    date.1 * 12 + (date.2 - 1)

def Period.endsAt (period : Period) (index : ℕ) : ℕ :=
  match period with
  | day => (index + 1) * 86400
  | month =>
    let next := index + 1
    daysFromCivil (next / 12) (next % 12 + 1) * 86400

structure Budget where
  period : Period
  limit : ℕ
  spent : ℕ
  index : ℕ
  deriving DecidableEq

namespace Budget

def new (period : Period) (limit now : ℕ) : Budget where
  period := period
  limit := limit
  spent := 0
  index := period.index now

def roll (b : Budget) (now : ℕ) : Budget :=
  let index := b.period.index now
  if index ≠ b.index then { b with index, spent := 0 } else b

def restored (stored : Option Budget) (period : Period) (limit now : ℕ) : Budget :=
  let budget := match stored with
    | some stored => if stored.period = period then stored else new period limit now
    | none => new period limit now
  { budget with limit }.roll now

def trySpend (b : Budget) (cost now : ℕ) : Bool × Budget :=
  let b := b.roll now
  if b.spent + cost > b.limit then (false, b) else (true, { b with spent := b.spent + cost })

def spend (b : Budget) (cost now : ℕ) : Budget :=
  let b := b.roll now
  { b with spent := b.spent + cost }

def exhaust (b : Budget) (now : ℕ) : Budget :=
  let b := b.roll now
  { b with spent := max b.spent b.limit }

def resetsAt (b : Budget) : ℕ := b.period.endsAt b.index

end Budget

inductive Op
  | trySpend (cost now : ℕ)
  | spend (cost now : ℕ)
  | exhaust (now : ℕ)
  | roll (now : ℕ)
  | store
  /-- It starts again, with the same period and limit. -/
  | restore (now : ℕ)

inductive Event
  | granted (cost now : ℕ)
  | exhausted (now : ℕ)

def Event.reading : Event → ℕ
  | granted _ now => now
  | exhausted now => now

structure Run where
  budget : Budget
  stored : Option Budget
  last : ℕ
  /-- Oldest first. -/
  trace : List Event

namespace Run

def start (period : Period) (limit now : ℕ) : Run where
  budget := .new period limit now
  stored := none
  last := now
  trace := []

def step (s : Run) : Op → Run
  | .trySpend cost now =>
    let (taken, budget) := s.budget.trySpend cost now
    { s with budget, last := now, trace := s.trace ++ if taken then [.granted cost now] else [] }
  | .spend cost now => { s with budget := s.budget.spend cost now, last := now }
  | .exhaust now =>
    { s with budget := s.budget.exhaust now, last := now, trace := s.trace ++ [.exhausted now] }
  | .roll now => { s with budget := s.budget.roll now, last := now }
  | .store => { s with stored := some s.budget }
  | .restore now =>
    { s with budget := .restored s.stored s.budget.period s.budget.limit now, last := now }

def run (s : Run) (ops : List Op) : Run := ops.foldl step s

end Run

def grantedIn (period : Period) (index : ℕ) (trace : List Event) : ℕ :=
  (trace.map fun
    | .granted cost now => if period.index now = index then cost else 0
    | .exhausted _ => 0).sum

namespace Op

def cost : Op → ℕ
  | trySpend cost _ => cost
  | spend cost _ => cost
  | _ => 0

def reading : Op → Option ℕ
  | trySpend _ now => some now
  | spend _ now => some now
  | exhaust now => some now
  | roll now => some now
  | store => none
  | restore now => some now

def sum (s : Run) : Op → ℕ
  | trySpend cost now => (s.budget.roll now).spent + cost
  | spend cost now => (s.budget.roll now).spent + cost
  | _ => 0

end Op

end Irori.Cloud
