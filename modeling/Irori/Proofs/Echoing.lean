import Irori.Zigbee.Scales
import Mathlib.Tactic

/-!
# Setting a thing to what it says

A value read off a device's scale and put back on it is read as the same value again.
-/

namespace Irori.Zigbee.Proofs

open Recorder (TemperatureUnit)

lemma roundAway_eq_neg {x : ℚ} (h : x < 0) : roundAway x = -(⌊-x + 1 / 2⌋ : ℤ) := if_pos h

lemma roundAway_eq {x : ℚ} (h : 0 ≤ x) : roundAway x = (⌊x + 1 / 2⌋ : ℤ) := if_neg (not_lt.2 h)

lemma rounded_cast (x : ℚ) : (rounded x : ℚ) = roundAway x := by
  unfold rounded roundAway
  split_ifs
  · rw [← Int.cast_neg, Int.floor_intCast]
  · rw [Int.floor_intCast]

lemma rounded_near (x : ℚ) : |(rounded x : ℚ) - x| ≤ 1 / 2 := by
  rw [rounded_cast, abs_le]
  rcases lt_or_ge x 0 with h | h
  · rw [roundAway_eq_neg h]
    have hle := Int.floor_le (-x + 1 / 2)
    have hlt := Int.lt_floor_add_one (-x + 1 / 2)
    constructor <;> linarith
  · rw [roundAway_eq h]
    have hle := Int.floor_le (x + 1 / 2)
    have hlt := Int.lt_floor_add_one (x + 1 / 2)
    constructor <;> linarith

lemma rounded_of_near {x : ℚ} {n : ℤ} (h : |x - n| < 1 / 2) : rounded x = n := by
  have hnear := rounded_near x
  rw [abs_lt] at h
  rw [abs_le] at hnear
  have hlow : (rounded x : ℚ) < n + 1 := by linarith
  have hhigh : (n : ℚ) < rounded x + 1 := by linarith
  have hlow : rounded x < n + 1 := by exact_mod_cast hlow
  have hhigh : n < rounded x + 1 := by exact_mod_cast hhigh
  omega

lemma rounded_intCast (n : ℤ) : rounded n = n := rounded_of_near (by simp)

lemma rounded_near' {x : ℚ} (h : ∀ n : ℤ, x ≠ n + 1 / 2) : |(rounded x : ℚ) - x| < 1 / 2 := by
  refine lt_of_le_of_ne (rounded_near x) fun heq => ?_
  rcases eq_or_eq_neg_of_abs_eq heq with hcase | hcase
  · refine h (rounded x - 1) ?_
    push_cast
    linarith
  · exact h (rounded x) (by linarith)

lemma rounded_ge {x : ℚ} {n : ℤ} (h : (n : ℚ) ≤ x) : n ≤ rounded x := by
  have hnear := rounded_near x
  rw [abs_le] at hnear
  have hlt : (n : ℚ) < rounded x + 1 := by linarith
  have hlt : n < rounded x + 1 := by exact_mod_cast hlt
  omega

lemma rounded_le {x : ℚ} {n : ℤ} (h : x ≤ n) : rounded x ≤ n := by
  have hnear := rounded_near x
  rw [abs_le] at hnear
  have hlt : (rounded x : ℚ) < n + 1 := by linarith
  have hlt : rounded x < n + 1 := by exact_mod_cast hlt
  omega

lemma clamp_self {low high value : ℤ} (hlow : low ≤ value) (hhigh : value ≤ high) :
    clamp low high value = value := by
  unfold clamp
  omega

lemma percent_scale {closed opened : ℚ} {value : ℕ} (hvalue : value ≤ 100)
    (hspan : 100 ≤ |opened - closed|)
    (hexact : |opened - closed| = 100 → ∀ n : ℤ, closed ≠ n + 1 / 2) :
    percent (scale value closed opened) closed opened = some value := by
  have hne : opened - closed ≠ 0 := fun h => by
    rw [h] at hspan
    norm_num at hspan
  have hpos : 0 < |opened - closed| := abs_pos.2 hne
  let target : ℚ := closed + value / 100 * (opened - closed)
  have herror : |(rounded target : ℚ) - target| * 100 < 1 / 2 * |opened - closed| := by
    rcases eq_or_lt_of_le hspan with heq | hlt
    · have htarget (n : ℤ) : target ≠ n + 1 / 2 := by
        intro htarget
        have hends : opened - closed = 100 ∨ opened - closed = -100 :=
          eq_or_eq_neg_of_abs_eq heq.symm
        rcases hends with hend | hend
        · refine hexact heq.symm (n - value) ?_
          simp only [target, hend] at htarget
          push_cast
          linarith
        · refine hexact heq.symm (n + value) ?_
          simp only [target, hend] at htarget
          push_cast
          linarith
      have := rounded_near' htarget
      rw [← heq]
      linarith
    · have := rounded_near target
      linarith
  have hshare : ((rounded target : ℚ) - closed) / (opened - closed) * 100 - value =
      ((rounded target : ℚ) - target) * 100 / (opened - closed) := by
    field_simp
    simp only [target]
    ring
  have hread : rounded (((rounded target : ℚ) - closed) / (opened - closed) * 100) = value := by
    refine rounded_of_near ?_
    push_cast
    rw [hshare, abs_div, abs_mul, div_lt_iff₀ hpos]
    simpa using herror
  unfold percent scale
  dsimp only
  rw [if_neg hne, hread, clamp_self (by omega) (by omega)]
  rfl

lemma percent_le {raw closed opened : ℚ} {value : ℕ} (h : percent raw closed opened = some value) :
    value ≤ 100 := by
  unfold percent at h
  dsimp only at h
  split_ifs at h
  cases h
  unfold clamp
  omega

lemma int64_some {value : ℤ} (hlow : -2 ^ 63 ≤ value) (hhigh : value < 2 ^ 63) :
    int64 value = some value := if_pos ⟨hlow, hhigh⟩

lemma toU16_small {value : ℤ} (hlow : 0 ≤ value) (hhigh : value < 2 ^ 16) :
    toU16 value = value.toNat := if_pos ⟨hlow, hhigh⟩

lemma toU16_lt (value : ℤ) : toU16 value < 2 ^ 16 := by
  unfold toU16
  split_ifs <;> omega

lemma percentageToSpeed_speedToPercentage {speed count : ℕ} (hpos : 0 < speed)
    (hle : speed ≤ count) (hcount : count ≤ 100) :
    0 < speedToPercentage speed count ∧
      percentageToSpeed (speedToPercentage speed count) count = speed := by
  have hshare : speedToPercentage speed count = speed * 100 / count := by
    unfold speedToPercentage
    dsimp only
    rw [if_neg (by omega), min_eq_left hle, if_pos]
    calc speed * 100 / count ≤ count * 100 / count :=
          Nat.div_le_div_right (Nat.mul_le_mul_right 100 hle)
      _ = 100 := Nat.mul_div_cancel_left 100 (by omega)
      _ < 2 ^ 8 := by norm_num
  have hcountPos : 0 < count := by omega
  have hlow : speed * 100 / count * count ≤ speed * 100 := Nat.div_mul_le_self _ _
  have hhigh : speed * 100 < (speed * 100 / count + 1) * count :=
    Nat.lt_mul_of_div_lt (Nat.lt_succ_self _) hcountPos
  rw [hshare]
  refine ⟨Nat.div_pos (by nlinarith) hcountPos, ?_⟩
  have hspeed : (speed * 100 / count * count + 99) / 100 = speed := by
    rw [Nat.add_mul, one_mul] at hhigh
    generalize speed * 100 / count * count = product at *
    omega
  unfold percentageToSpeed
  dsimp only
  rw [hspeed, if_pos (by omega)]

lemma percentageToSpeed_le {percentage count : ℕ} (hpercentage : percentage ≤ 100) :
    percentageToSpeed percentage count ≤ count := by
  have hproduct : percentage * count ≤ 100 * count := Nat.mul_le_mul_right count hpercentage
  unfold percentageToSpeed
  dsimp only
  split_ifs
  · omega
  · exact le_rfl

lemma percentageToSpeed_pos {percentage count : ℕ} (hpercentage : 0 < percentage)
    (hcount : 0 < count) : 0 < percentageToSpeed percentage count := by
  have hproduct : 0 < percentage * count := Nat.mul_pos hpercentage hcount
  unfold percentageToSpeed
  dsimp only
  split_ifs <;> omega

/-- A range of speeds whose numbers, and the next, are 64-bit integers. -/
structure Fits (fan : Speeds) : Prop where
  low : -2 ^ 63 ≤ fan.speedMin ∧ -2 ^ 63 ≤ fan.speedMax
  high : fan.speedMin < 2 ^ 63 ∧ fan.speedMax + 1 < 2 ^ 63
  span : -2 ^ 63 ≤ fan.speedMax - fan.speedMin ∧ fan.speedMax - fan.speedMin + 1 < 2 ^ 63
  /-- One the other way round is taken for the most there can be. -/
  reversed : fan.speedMax + 1 < fan.speedMin → fan.speedMin + 2 ^ 16 ≤ 2 ^ 63

variable {fan : Speeds}

lemma count_eq (h : Fits fan) : fan.count = some (fan.speedMax - fan.speedMin + 1) := by
  obtain ⟨hlow, hhigh⟩ := h.span
  unfold Speeds.count
  rw [int64_some hlow (by omega), Option.bind_some, int64_some (by omega) hhigh]

lemma decode_eq (h : Fits fan) {raw : ℚ} {level : ℤ} (hlevel : rounded raw = level)
    (hlow : min fan.speedMin fan.speedMax ≤ level)
    (hhigh : level ≤ max fan.speedMin fan.speedMax) :
    fan.decode raw = some (if level - fan.speedMin + 1 ≤ 0 ∨ fan.speedMax - fan.speedMin + 1 ≤ 0
      then 0 else speedToPercentage (toU16 (level - fan.speedMin + 1))
        (toU16 (fan.speedMax - fan.speedMin + 1))) := by
  obtain ⟨hmin, hmax⟩ := h.low
  obtain ⟨hmin', hmax'⟩ := h.high
  obtain ⟨hspan, hspan'⟩ := h.span
  unfold Speeds.decode
  rw [count_eq h, hlevel, clamp_self (by omega) (by omega)]
  simp only [Option.bind_eq_bind, Option.bind_some]
  rw [int64_some (by omega) (by omega), Option.bind_some, int64_some (by omega) (by omega)]
  rfl

lemma setPercentage_isSome (h : Fits fan) {percentage : ℕ} (hpercentage : percentage ≤ 100) :
    (fan.setPercentage percentage).isSome := by
  obtain ⟨hmin, hmax⟩ := h.low
  obtain ⟨hmin', hmax'⟩ := h.high
  unfold Speeds.setPercentage
  split_ifs with hzero
  · rfl
  · rw [count_eq h]
    simp only [Option.bind_eq_bind, Option.bind_some]
    have hspeed : percentageToSpeed percentage (toU16 (fan.speedMax - fan.speedMin + 1)) ≤
        toU16 (fan.speedMax - fan.speedMin + 1) := percentageToSpeed_le hpercentage
    have hbound : (toU16 (fan.speedMax - fan.speedMin + 1) : ℤ) + fan.speedMin < 2 ^ 63 := by
      have hlt := toU16_lt (fan.speedMax - fan.speedMin + 1)
      rcases lt_or_ge (fan.speedMax + 1) fan.speedMin with hreversed | hforward
      · have := h.reversed hreversed
        omega
      · unfold toU16
        split_ifs <;> omega
    have hfloor : -2 ^ 63 < (percentageToSpeed percentage
        (toU16 (fan.speedMax - fan.speedMin + 1)) : ℤ) + fan.speedMin := by
      rcases Nat.eq_zero_or_pos (toU16 (fan.speedMax - fan.speedMin + 1)) with hnone | hsome
      · unfold toU16 at hnone
        split_ifs at hnone
        omega
      · have := percentageToSpeed_pos (Nat.pos_of_ne_zero hzero) hsome
        omega
    rw [int64_some (by omega) (by omega), Option.bind_some, int64_some (by omega) (by omega)]
    rfl

lemma setPercentage_decode (h : Fits fan) (hcount : fan.speedMax - fan.speedMin < 100) {level : ℤ}
    (hlow : fan.speedMin ≤ level) (hhigh : level ≤ fan.speedMax) :
    ∃ value, (∀ raw, rounded raw = level → fan.decode raw = some value) ∧
      fan.setPercentage value = some (.speed level) := by
  obtain ⟨hmin, hmax⟩ := h.low
  obtain ⟨hmin', hmax'⟩ := h.high
  have hlevelPos : 0 ≤ level - fan.speedMin + 1 := by omega
  have hcountPos : 0 ≤ fan.speedMax - fan.speedMin + 1 := by omega
  obtain ⟨speed, hspeed⟩ := Int.eq_ofNat_of_zero_le hlevelPos
  obtain ⟨count, hcountEq⟩ := Int.eq_ofNat_of_zero_le hcountPos
  have hU16 (n : ℕ) (hn : n ≤ 100) : toU16 n = n := by
    rw [toU16_small (by omega) (by omega), Int.toNat_natCast]
  have hpos : 0 < speed := by omega
  have hle : speed ≤ count := by omega
  obtain ⟨hvalue, hback⟩ := percentageToSpeed_speedToPercentage hpos hle (by omega)
  refine ⟨speedToPercentage speed count, fun raw hraw => ?_, ?_⟩
  · rw [decode_eq h hraw (by omega) (by omega), if_neg (by omega), hspeed, hcountEq,
      hU16 speed (by omega), hU16 count (by omega)]
  · unfold Speeds.setPercentage
    rw [if_neg (by omega), count_eq h, hcountEq]
    simp only [Option.bind_eq_bind, Option.bind_some]
    rw [hU16 count (by omega), hback, int64_some (by omega) (by omega), Option.bind_some,
      int64_some (by omega) (by omega)]
    have hlevel : (speed : ℤ) + fan.speedMin - 1 = level := by omega
    simp [hlevel]

lemma decodeBrightness_bounds {raw : ℚ} {brightnessScale value : ℕ}
    (h : decodeBrightness raw brightnessScale = some value) : 1 ≤ value ∧ value ≤ 255 := by
  unfold decodeBrightness at h
  split_ifs at h
  cases h
  unfold clamp
  omega

lemma decodeBrightness_encode {brightnessScale value : ℕ} (hscale : 255 ≤ brightnessScale)
    (hlow : 1 ≤ value) (hhigh : value ≤ 255) :
    decodeBrightness (encodeBrightness value brightnessScale) brightnessScale = some value := by
  let target : ℚ := (value : ℚ) / 255 * brightnessScale
  have hscale' : (255 : ℚ) ≤ brightnessScale := by exact_mod_cast hscale
  have hvalue : (1 : ℚ) ≤ value := by exact_mod_cast hlow
  have htarget : 1 ≤ target := by
    simp only [target]
    rw [div_mul_eq_mul_div, le_div_iff₀ (by norm_num)]
    nlinarith
  have hnear := rounded_near target
  have hpos : 1 ≤ rounded target := by
    rw [abs_le] at hnear
    have : (0 : ℚ) < rounded target := by linarith
    have : 0 < rounded target := by exact_mod_cast this
    omega
  have hencode : encodeBrightness value brightnessScale = rounded target := max_eq_left hpos
  have herror : |(rounded target : ℚ) - target| * 255 < 1 / 2 * brightnessScale := by
    rcases eq_or_lt_of_le hscale' with heq | hlt
    · have hexact : target = (value : ℤ) := by
        simp only [target, ← heq]
        push_cast
        field_simp
      rw [hexact, rounded_intCast, sub_self, abs_zero, ← heq]
      norm_num
    · linarith
  have hshare : (rounded target : ℚ) / brightnessScale * 255 - value =
      ((rounded target : ℚ) - target) * 255 / brightnessScale := by
    have hne : (brightnessScale : ℚ) ≠ 0 := by linarith
    simp only [target]
    field_simp
  have hread : rounded ((rounded target : ℚ) / brightnessScale * 255) = value := by
    refine rounded_of_near ?_
    push_cast
    rw [hshare, abs_div, abs_mul, Nat.abs_cast, div_lt_iff₀ (by linarith)]
    simpa using herror
  have hraw : ¬(rounded target : ℚ) ≤ 0 := by
    have : (1 : ℚ) ≤ rounded target := by exact_mod_cast hpos
    linarith
  unfold decodeBrightness
  rw [hencode, if_neg hraw, hread, clamp_self (by omega) (by omega)]
  rfl

lemma decodeJsonBrightness_again (raw : ℕ) :
    decodeJsonBrightness (decodeJsonBrightness raw) = decodeJsonBrightness raw := by
  unfold decodeJsonBrightness clamp
  omega

lemma div_div_div (total part : ℕ) (hpart : 0 < part) (hle : part ≤ total) :
    total / (total / (total / part)) = total / part := by
  have hpos : 0 < total / part := Nat.div_pos hle hpart
  have hback : part ≤ total / (total / part) :=
    (Nat.le_div_iff_mul_le hpos).2 (Nat.mul_div_le total part)
  refine le_antisymm (Nat.div_le_div_left hback hpart) ?_
  refine (Nat.le_div_iff_mul_le (lt_of_lt_of_le hpart hback)).2 ?_
  rw [Nat.mul_comm]
  exact Nat.div_mul_le_self total (total / part)

lemma decodeColorTemp_encode {mireds value : ℕ} (h : decodeColorTemp mireds = some value) :
    decodeColorTemp (encodeColorTemp value) = some value := by
  have hagain (value : ℕ) (hlow : 1000 ≤ value) (hhigh : value ≤ 20000)
      (hback : 1000000 / (1000000 / value) = value) :
      decodeColorTemp (encodeColorTemp value) = some value := by
    have hpos : 1 ≤ 1000000 / value := (Nat.le_div_iff_mul_le (by omega)).2 (by omega)
    unfold decodeColorTemp encodeColorTemp
    rw [max_eq_left hpos, if_neg (by omega), hback, clamp_self (by omega) (by omega)]
    rfl
  unfold decodeColorTemp at h
  split_ifs at h with hmireds
  cases h
  rcases lt_or_ge (1000000 / mireds) 1000 with hcold | hcold
  · have hvalue : (clamp 1000 20000 (1000000 / mireds : ℕ)).toNat = 1000 := by
      unfold clamp
      omega
    rw [hvalue]
    exact hagain 1000 le_rfl (by norm_num) (by norm_num)
  rcases lt_or_ge 20000 (1000000 / mireds) with hwarm | hwarm
  · have hvalue : (clamp 1000 20000 (1000000 / mireds : ℕ)).toNat = 20000 := by
      unfold clamp
      omega
    rw [hvalue]
    exact hagain 20000 (by norm_num) le_rfl (by norm_num)
  · rw [clamp_self (by omega) (by omega), Int.toNat_natCast]
    refine hagain _ hcold hwarm (div_div_div 1000000 mireds (by omega) ?_)
    by_contra hlt
    rw [Nat.div_eq_of_lt (by omega)] at hcold
    omega

lemma roundTo_near (value : ℚ) (places : ℕ) :
    |roundTo value places - value| ≤ 1 / 2 / 10 ^ places := by
  have hpos : (0 : ℚ) < 10 ^ places := by positivity
  have hscaled : roundTo value places - value =
      ((rounded (value * 10 ^ places) : ℚ) - value * 10 ^ places) / 10 ^ places := by
    unfold roundTo
    field_simp
  rw [hscaled, abs_div, abs_of_pos hpos]
  exact div_le_div_of_nonneg_right (rounded_near _) hpos.le

lemma deviceTemperature_decode (unit : TemperatureUnit) (tenths : ℤ) :
    deviceTemperature unit (decodeTemperature unit (tenths / 10)) = tenths / 10 := by
  have hnear := roundTo_near (toCelsius unit (tenths / 10)) 2
  rw [abs_le] at hnear
  have hback : rounded (fromCelsius unit (decodeTemperature unit (tenths / 10)) * 10 ^ 1) =
      tenths := by
    refine rounded_of_near ?_
    rw [abs_lt]
    unfold decodeTemperature
    cases unit with
    | celsius =>
      simp only [toCelsius, fromCelsius] at *
      constructor <;> linarith
    | fahrenheit =>
      simp only [toCelsius, fromCelsius] at *
      constructor <;> linarith
    | kelvin =>
      simp only [toCelsius, fromCelsius] at *
      constructor <;> linarith
  unfold deviceTemperature roundTo
  rw [hback, pow_one]

/-- Set to what it says, a thing says it again: positions and tilts on a scale of at least 100
steps, but for one of exactly 100 between two halves, speeds of at most 100, where the number sent is
the one that came, brightness on a scale of at least 255 steps, colour temperatures, and temperatures
in tenths. A scale with no width says no position, and a fan's numbers don't overflow where they
fit. -/
theorem set_again :
    (∀ (closed opened raw : ℚ) (value : ℕ), 100 ≤ |opened - closed| →
      (|opened - closed| = 100 → ∀ n : ℤ, closed ≠ n + 1 / 2) →
      percent raw closed opened = some value →
      percent (scale value closed opened) closed opened = some value) ∧
    (∀ raw closed : ℚ, percent raw closed closed = none) ∧
    (∀ (fan : Speeds) (raw : ℚ), Fits fan → fan.speedMax - fan.speedMin < 100 →
      fan.speedMin ≤ raw → raw ≤ fan.speedMax →
      ∃ value, fan.decode raw = some value ∧
        fan.setPercentage value = some (.speed (rounded raw)) ∧
        fan.decode (rounded raw) = some value) ∧
    (∀ n : ℤ, rounded n = n) ∧
    (∀ (fan : Speeds) (raw : ℚ) (percentage : ℕ), Fits fan →
      (min fan.speedMin fan.speedMax : ℤ) ≤ raw → raw ≤ (max fan.speedMin fan.speedMax : ℤ) →
      percentage ≤ 100 → (fan.decode raw).isSome ∧ (fan.setPercentage percentage).isSome) ∧
    (∀ (brightnessScale : ℕ) (raw : ℚ) (value : ℕ), 255 ≤ brightnessScale →
      decodeBrightness raw brightnessScale = some value →
      decodeBrightness (encodeBrightness value brightnessScale) brightnessScale = some value) ∧
    (∀ raw, decodeJsonBrightness (decodeJsonBrightness raw) = decodeJsonBrightness raw) ∧
    (∀ mireds value, decodeColorTemp mireds = some value →
      decodeColorTemp (encodeColorTemp value) = some value) ∧
    ∀ (unit : TemperatureUnit) (tenths : ℤ),
      deviceTemperature unit (decodeTemperature unit (tenths / 10)) = tenths / 10 := by
  refine ⟨fun closed opened raw value hspan hexact hvalue => ?_, fun raw closed => ?_,
    fun fan raw hfits hcount hlow hhigh => ?_, rounded_intCast,
    fun fan raw percentage hfits hlow hhigh hpercentage => ⟨?_, ?_⟩,
    fun brightnessScale raw value hscale hvalue => ?_, decodeJsonBrightness_again,
    fun mireds value => decodeColorTemp_encode, deviceTemperature_decode⟩
  · exact percent_scale (percent_le hvalue) hspan hexact
  · unfold percent
    exact if_pos (sub_self closed)
  · obtain ⟨value, hdecode, hset⟩ :=
      setPercentage_decode hfits hcount (rounded_ge hlow) (rounded_le hhigh)
    exact ⟨value, hdecode raw rfl, hset, hdecode _ (rounded_intCast _)⟩
  · rw [decode_eq hfits rfl (rounded_ge hlow) (rounded_le hhigh)]
    rfl
  · exact setPercentage_isSome hfits hpercentage
  · obtain ⟨hlow, hhigh⟩ := decodeBrightness_bounds hvalue
    exact decodeBrightness_encode hscale hlow hhigh

/-- A cover open at 30, on a scale the other way round, and a fan at the second of three speeds. -/
theorem set_again_cover :
    percent (scale 30 100 0) 100 0 = some 30 ∧
      ∃ value, Speeds.setPercentage ⟨1, 3⟩ value = some (.speed (rounded 2)) := by
  have hpercent : percent 70 100 0 = some 30 := by decide +kernel
  have hfits : Fits ⟨1, 3⟩ := ⟨by norm_num, by norm_num, by norm_num, by norm_num⟩
  have hspan : (100 : ℚ) ≤ |0 - 100| := by norm_num
  have hexact (_ : |(0 : ℚ) - 100| = 100) (n : ℤ) : (100 : ℚ) ≠ n + 1 / 2 := by
    intro h
    have h : (200 : ℚ) = 2 * n + 1 := by linarith
    have h : (200 : ℤ) = 2 * n + 1 := by exact_mod_cast h
    omega
  obtain ⟨hposition, -, hspeed, -⟩ := set_again
  obtain ⟨value, -, hset, -⟩ := hspeed ⟨1, 3⟩ 2 hfits (by norm_num) (by norm_num) (by norm_num)
  exact ⟨hposition 100 0 70 30 hspan hexact hpercent, value, hset⟩

/-- A scale of 100 steps from a half to a half: halfway it is sent on by one. -/
theorem halves_move :
    percent (101 / 2) (1 / 2) (201 / 2) = some 50 ∧
      percent (scale 50 (1 / 2) (201 / 2)) (1 / 2) (201 / 2) = some 51 := by
  decide +kernel

end Irori.Zigbee.Proofs
