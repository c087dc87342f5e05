import Irori.Recorder.History
import Irori.Rules.Eval

/-!
# The numbers a device says and is told

How a speed, a position, a tilt, a brightness, a colour temperature and a target temperature are read
off a device's own scale and put back on it, from the discovery crate's `kinds`. Numbers are exact
rationals; arithmetic on 64-bit integers has no result where it overflows.
-/

namespace Irori.Zigbee

open Recorder (TemperatureUnit)

def rounded (value : ℚ) : ℤ := ⌊roundAway value⌋

def clamp (low high value : ℤ) : ℤ := min (max value low) high

def percent (raw closed opened : ℚ) : Option ℕ :=
  let span := opened - closed
  if span = 0 then none
  else some (clamp 0 100 (rounded ((raw - closed) / span * 100))).toNat

/-- 0-100 on a device's own scale from `closed` to `opened`, as it's written. -/
def scale (percent : ℕ) (closed opened : ℚ) : ℤ :=
  rounded (closed + percent / 100 * (opened - closed))

def int64 (value : ℤ) : Option ℤ := if -2 ^ 63 ≤ value ∧ value < 2 ^ 63 then some value else none

def toU16 (value : ℤ) : ℕ := if 0 ≤ value ∧ value < 2 ^ 16 then value.toNat else 2 ^ 16 - 1

/-- A percentage as the speed it really is, of `count`, rounded up. -/
def percentageToSpeed (percentage count : ℕ) : ℕ :=
  let speed := (percentage * count + 99) / 100
  if speed < 2 ^ 16 then speed else count

/-- A speed of `count` as a percentage, the other way, rounded down. -/
def speedToPercentage (speed count : ℕ) : ℕ :=
  if count = 0 then 0
  else
    let percentage := min speed count * 100 / count
    if percentage < 2 ^ 8 then percentage else 100

structure Speeds where
  speedMin : ℤ
  speedMax : ℤ

inductive FanPublish
  | off
  | speed (level : ℤ)
  deriving DecidableEq

namespace Speeds

variable (fan : Speeds)

def count : Option ℤ := (int64 (fan.speedMax - fan.speedMin)).bind fun span => int64 (span + 1)

def decode (raw : ℚ) : Option ℕ := do
  let count ← fan.count
  let raw := clamp (-2 ^ 63) (2 ^ 63 - 1) (rounded raw)
  let level ← int64 (raw - fan.speedMin)
  let level ← int64 (level + 1)
  return if level ≤ 0 ∨ count ≤ 0 then 0 else speedToPercentage (toU16 level) (toU16 count)

def setPercentage (percentage : ℕ) : Option FanPublish :=
  if percentage = 0 then some .off
  else do
    let count ← fan.count
    let level ← int64 (percentageToSpeed percentage (toU16 count) + fan.speedMin)
    let level ← int64 (level - 1)
    return .speed level

end Speeds

def decodeBrightness (raw : ℚ) (brightnessScale : ℕ) : Option ℕ :=
  if raw ≤ 0 then none
  else some (clamp 1 255 (rounded (raw / brightnessScale * 255))).toNat

def encodeBrightness (brightness brightnessScale : ℕ) : ℤ :=
  max (rounded ((brightness : ℚ) / 255 * brightnessScale)) 1

def decodeJsonBrightness (raw : ℕ) : ℕ := (clamp 1 255 raw).toNat

def decodeColorTemp (mireds : ℕ) : Option ℕ :=
  if mireds = 0 then none else some (clamp 1000 20000 (1000000 / mireds : ℕ)).toNat

def encodeColorTemp (kelvin : ℕ) : ℕ := max (1000000 / kelvin) 1

def toCelsius (unit : TemperatureUnit) (value : ℚ) : ℚ :=
  match unit with
  | .celsius => value
  | .fahrenheit => (value - 32) * 5 / 9
  | .kelvin => value - 27315 / 100

def fromCelsius (unit : TemperatureUnit) (celsius : ℚ) : ℚ :=
  match unit with
  | .celsius => celsius
  | .fahrenheit => celsius * 9 / 5 + 32
  | .kelvin => celsius + 27315 / 100

def roundTo (value : ℚ) (places : ℕ) : ℚ := rounded (value * 10 ^ places) / 10 ^ places

def decodeTemperature (unit : TemperatureUnit) (value : ℚ) : ℚ := roundTo (toCelsius unit value) 2

def deviceTemperature (unit : TemperatureUnit) (celsius : ℚ) : ℚ :=
  roundTo (fromCelsius unit celsius) 1

end Irori.Zigbee
