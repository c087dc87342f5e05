import Irori.Types

/-!
# Summaries

Five-minute and hourly summaries of a sensor's numbers. A measurement stores a time-weighted mean,
the least, the greatest and the last value. A total stores how much the number changed, and the last
value. Times are nanoseconds since 1970 began, and numbers are exact.
-/

namespace Irori.Recorder

inductive StateClass
  | measurement
  /-- A running total that can go up or down. -/
  | total
  /-- A counter that only increases, resetting occasionally. -/
  | totalIncreasing
  deriving DecidableEq

def fiveMin : Int := 300000000000

def hour : Int := fiveMin * 12

structure Stat where
  mean : Option ℚ
  min : Option ℚ
  max : Option ℚ
  sum : Option ℚ
  last : Option ℚ
  deriving DecidableEq

/-- The greatest multiple of `period` that is still at most `ns`. -/
def alignDown (ns period : Int) : Int := ns - ns % period

abbrev Sample := Int × ℚ

def lowered (low : Option ℚ) (value : ℚ) : Option ℚ := some (low.elim value (Min.min · value))

def raised (high : Option ℚ) (value : ℚ) : Option ℚ := some (high.elim value (Max.max · value))

structure Measuring where
  weighted : ℚ
  weight : ℚ
  current : Option ℚ
  cursor : Int
  low : Option ℚ
  high : Option ℚ
  last : Option ℚ

namespace Measuring

/-- The current value holds up to `time`. -/
def holdTo (m : Measuring) (time : Int) : Measuring :=
  match m.current with
  | none => m
  | some held =>
    let span : ℚ := ((time - m.cursor : Int) : ℚ)
    if 0 < span then
      { m with weighted := m.weighted + held * span, weight := m.weight + span }
    else m

def take (m : Measuring) (sample : Sample) : Measuring :=
  { m.holdTo sample.1 with
    current := some sample.2
    cursor := sample.1
    low := lowered m.low sample.2
    high := raised m.high sample.2
    last := some sample.2 }

end Measuring

/-- A measurement over a period: the mean is weighted by how long each value held, and a value
carried in holds until the first sample. Time before any known value is not part of the mean. -/
def measurement (start stop : Int) (carry : Option ℚ) (samples : List Sample) : Option Stat :=
  if stop ≤ start then none
  else
    let first : Measuring :=
      { weighted := 0, weight := 0, current := carry, cursor := start
        low := carry, high := carry, last := carry }
    let m := (samples.foldl (fun m sample =>
      if sample.1 < start ∨ stop ≤ sample.1 then m else m.take sample) first).holdTo stop
    if m.weight ≤ 0 then none
    else some
      { mean := some (m.weighted / m.weight), min := m.low, max := m.high, sum := none
        last := m.last }

structure Counting where
  sum : ℚ
  previous : Option ℚ
  last : Option ℚ
  moved : Bool

/-- A drop of what only increases is a meter reset: the new reading is added. -/
def Counting.take (kind : StateClass) (c : Counting) (sample : Sample) : Option Counting :=
  let value := sample.2
  match c.previous with
  | none => some { c with previous := some value, last := some value }
  | some before =>
    let delta := value - before
    let moved (by_ : ℚ) : Option Counting :=
      some { sum := c.sum + by_, previous := some value, last := some value, moved := true }
    match kind with
    | .total => moved delta
    | .totalIncreasing => if 0 ≤ delta then moved delta else moved value
    | .measurement => none

def change (kind : StateClass) (carry : Option ℚ) (samples : List Sample) : Option Stat :=
  if carry.isNone ∧ samples.isEmpty then none
  else
    (samples.foldlM (Counting.take kind)
      { sum := 0, previous := carry, last := carry, moved := false }).map fun c =>
      { mean := none, min := none, max := none
        sum := if c.moved || carry.isSome then some c.sum else none
        last := c.last }

/-- The summary of the five minutes from `start`. -/
def period (kind : StateClass) (start : Int) (carry : Option ℚ) (samples : List Sample) :
    Option Stat :=
  match kind with
  | .measurement => measurement start (start + fiveMin) carry samples
  | .total | .totalIncreasing => change kind carry samples

structure Rolling where
  meanSum : ℚ
  meanCount : ℚ
  low : Option ℚ
  high : Option ℚ
  sum : Option ℚ
  last : Option ℚ

def Rolling.take (r : Rolling) (part : Stat) : Rolling :=
  { meanSum := part.mean.elim r.meanSum (r.meanSum + ·)
    meanCount := if part.mean.isSome then r.meanCount + 1 else r.meanCount
    low := part.min.elim r.low (lowered r.low)
    high := part.max.elim r.high (raised r.high)
    sum := part.sum.elim r.sum fun value => some (r.sum.getD 0 + value)
    last := part.last.or r.last }

/-- An hour from its five-minute rows: mean of means, least of leasts, greatest of greatests, sum
of sums, and the last value. -/
def rollup (parts : List Stat) : Option Stat :=
  if parts.isEmpty then none
  else
    let r := parts.foldl Rolling.take
      { meanSum := 0, meanCount := 0, low := none, high := none, sum := none, last := none }
    if r.meanCount = 0 ∧ r.sum.isNone ∧ r.last.isNone then none
    else some
      { mean := if 0 < r.meanCount then some (r.meanSum / r.meanCount) else none
        min := r.low, max := r.high, sum := r.sum, last := r.last }

end Irori.Recorder
