import Irori.Proofs.Expressions
import Irori.Proofs.Schedules
import Irori.Rules.Cron
import Mathlib.Order.Bounds.Basic

/-!
# When a time comes round

A search walks the days, and the times of each, in the order of the clock on the wall. Where later
times on the wall are no earlier moments, the first it finds is the earliest there is.
-/

namespace Irori

namespace TimeZone

variable (zone : TimeZone)

/-- Later times on the wall are no earlier moments. -/
def Forward : Prop :=
  ∀ x y : ℤ, x ≤ y → ∀ a ∈ zone.moment x, ∀ b ∈ zone.moment y, a ≤ b

def lookedAt (after : Timestamp) : Set ℤ :=
  {date | Helpers.WallTime.date (zone.wall after) ≤ date ∧ date ≤ Date.last ∧
    date < Helpers.WallTime.date (zone.wall after) + horizonDays}

/-- The moments a cron names after `after`: it allows the minute, the hour and the month, and the
day of the month or of the week where both are given, else both. -/
def cronMoments (cron : CronSpec) (after : Timestamp) : Set Timestamp :=
  {moment | after < moment ∧ ∃ date ∈ zone.lookedAt after, ∃ hour < 24, ∃ minute < 60,
    zone.moment (Date.at_ date hour minute 0) = some moment ∧
    minute ∈ cron.minutes ∧ hour ∈ cron.hours ∧ (Date.monthDay date).1 ∈ cron.months ∧
    if cron.daysGiven ∧ cron.weekdaysGiven then
      (Date.monthDay date).2 ∈ cron.days ∨ Date.weekdayFromSunday date ∈ cron.weekdays
    else (Date.monthDay date).2 ∈ cron.days ∧ Date.weekdayFromSunday date ∈ cron.weekdays}

/-- The moments after `after` that the clock at home reads a time, on one of `weekdays` if any are
given. -/
def timeMoments (time : CivilTime) (weekdays : Option (List Weekday)) (after : Timestamp) :
    Set Timestamp :=
  {moment | after < moment ∧ ∃ date ∈ zone.lookedAt after,
    zone.moment (Date.at_ date time.parts.1 time.parts.2.1 time.parts.2.2) = some moment ∧
    ∀ days ∈ weekdays, Date.weekdayOf date ∈ days}

end TimeZone

namespace Proofs
open Irori TimeZone

variable {zone : TimeZone} {after : Timestamp}

section First

variable {α τ : Type} [LinearOrder τ] {l : List α} {f : α → Option τ} {a moment : τ}

lemma findSome_after_none : l.findSome? (fun x => (f x).filter (a < ·)) = none ↔
    {y | a < y ∧ ∃ x ∈ l, f x = some y} = ∅ := by
  rw [List.findSome?_eq_none_iff, Set.eq_empty_iff_forall_notMem]
  constructor
  · rintro h y ⟨hy, x, hx, hfx⟩
    have hnone := h x hx
    simp only [hfx, Option.filter_eq_none_iff, Option.some.injEq, forall_eq',
      decide_eq_true_eq] at hnone
    exact hnone hy
  · intro h x hx
    cases hfx : f x with
    | none => rfl
    | some y =>
      have hy : y ≤ a := not_lt.1 fun hy => h y ⟨hy, x, hx, hfx⟩
      simp [hy]

lemma findSome_after_some (hordered : l.Pairwise fun x x' => ∀ y ∈ f x, ∀ y' ∈ f x', y ≤ y') :
    l.findSome? (fun x => (f x).filter (a < ·)) = some moment ↔
      IsLeast {y | a < y ∧ ∃ x ∈ l, f x = some y} moment := by
  have hfound : ∀ moment, l.findSome? (fun x => (f x).filter (a < ·)) = some moment →
      IsLeast {y | a < y ∧ ∃ x ∈ l, f x = some y} moment := by
    intro moment h
    obtain ⟨before, x, rest, rfl, hx, hbefore⟩ := List.findSome?_eq_some_iff.1 h
    obtain ⟨hfx, hmoment⟩ := Option.filter_eq_some_iff.1 hx
    rw [decide_eq_true_eq] at hmoment
    refine ⟨⟨hmoment, x, by simp, hfx⟩, ?_⟩
    rintro y ⟨hy, x', hx', hfx'⟩
    rcases List.mem_append.1 hx' with hx' | hx'
    · have hnone := hbefore x' hx'
      simp only [hfx', Option.filter_eq_none_iff, Option.some.injEq, forall_eq',
        decide_eq_true_eq] at hnone
      exact absurd hy hnone
    · rcases List.mem_cons.1 hx' with rfl | hx'
      · rw [hfx, Option.some.injEq] at hfx'
        exact hfx'.le
      · have hrest := (List.pairwise_append.1 hordered).2.1
        exact (List.pairwise_cons.1 hrest).1 x' hx' moment hfx y hfx'
  refine ⟨hfound moment, fun hleast => ?_⟩
  cases h : l.findSome? (fun x => (f x).filter (a < ·)) with
  | none =>
    rw [findSome_after_none.1 h] at hleast
    exact absurd hleast.1 (Set.notMem_empty _)
  | some other => rw [(hfound other h).unique hleast]

lemma findSome_flatMap {β γ : Type} (l : List α) (g : α → List β) (h : β → Option γ) :
    (l.flatMap g).findSome? h = l.findSome? fun x => (g x).findSome? h := by
  induction l with
  | nil => rfl
  | cons x l ih =>
    rw [List.flatMap_cons, List.findSome?_append, List.findSome?_cons, ih]
    cases (g x).findSome? h <;> rfl

end First

def dates : ℕ → ℤ → List ℤ
  | 0, _ => []
  | n + 1, date => date :: (Date.tomorrow date).toList.flatMap (dates n)

lemma search_eq (found : ℤ → Option Timestamp) (n : ℕ) :
    ∀ date, search found n date = (dates n date).findSome? found := by
  induction n with
  | zero => exact fun _ => rfl
  | succ n ih =>
    intro date
    rw [search, dates, List.findSome?_cons]
    cases found date with
    | some moment => rfl
    | none =>
      cases Date.tomorrow date with
      | none => rfl
      | some next => simp [ih]

lemma mem_dates {n : ℕ} : ∀ {date d : ℤ}, date ≤ Date.last →
    (d ∈ dates n date ↔ date ≤ d ∧ d ≤ Date.last ∧ d < date + n) := by
  induction n with
  | zero =>
    intro date d _
    simp [dates]
    omega
  | succ n ih =>
    intro date d hdate
    rw [dates, List.mem_cons]
    by_cases htomorrow : date + 1 ≤ Date.last
    · rw [Date.tomorrow, if_pos htomorrow, Option.toList_some, List.flatMap_singleton,
        ih htomorrow]
      push_cast
      omega
    · rw [Date.tomorrow, if_neg htomorrow, Option.toList_none, List.flatMap_nil]
      simp only [List.not_mem_nil, or_false]
      push_cast
      omega

lemma dates_ordered (n : ℕ) : ∀ date, date ≤ Date.last → (dates n date).Pairwise (· < ·) := by
  induction n with
  | zero => exact fun _ _ => .nil
  | succ n ih =>
    intro date hdate
    rw [dates, List.pairwise_cons]
    by_cases htomorrow : date + 1 ≤ Date.last
    · rw [Date.tomorrow, if_pos htomorrow, Option.toList_some, List.flatMap_singleton]
      refine ⟨fun d hd => ?_, ih _ htomorrow⟩
      have := ((mem_dates htomorrow).1 hd).1
      omega
    · rw [Date.tomorrow, if_neg htomorrow]
      simp

lemma mem_lookedAt {date : ℤ} : date ∈ dates horizonDays (Helpers.WallTime.date (zone.wall after)) ↔
    date ∈ zone.lookedAt after :=
  mem_dates (zone.date_le after)

section Fields
open Cron

variable {field : Field} {values : List ℕ} {text : String}

lemma inOrder_ordered (values : List ℕ) : (Field.inOrder values).Pairwise (· < ·) := by
  have hsorted : (Field.inOrder values).IsChain (· ≤ ·) :=
    ((List.pairwise_insertionSort (· ≤ ·) values).sublist (List.destutter_sublist _ _)).isChain
  have hdistinct : (Field.inOrder values).IsChain (· ≠ ·) := List.isChain_destutter _ _
  rw [← List.isChain_iff_pairwise]
  rw [List.isChain_iff_getElem] at hsorted hdistinct ⊢
  exact fun i hi => lt_of_le_of_ne (hsorted i hi) (hdistinct i hi)

lemma mem_inOrder {value : ℕ} (h : value ∈ Field.inOrder values) : value ∈ values :=
  (List.mem_insertionSort (· ≤ ·)).1 ((List.destutter_sublist _ _).mem h)

def WordsFit (field : Field) : Prop := field.firstName + field.names.length ≤ field.high + 1

lemma number_le (hwords : WordsFit field) {piece : String} {value : ℕ}
    (h : field.number piece = .ok value) : value ≤ field.high := by
  unfold Field.number at h
  dsimp only at h
  split at h
  · next index hindex =>
    have hlt := (List.findIdx?_eq_some_iff_getElem.1 hindex).1
    cases h
    unfold WordsFit at hwords
    omega
  · split at h
    · cases h
    · split at h
      · cases h
      · next hrange =>
        cases h
        omega

lemma ends_le (hwords : WordsFit field) {range : String} {stepped : Bool} {ends : ℕ × ℕ}
    (h : field.ends range stepped = .ok ends) : ends.2 ≤ field.high := by
  unfold Field.ends at h
  split at h
  · cases h
    exact le_rfl
  · split at h
    · obtain ⟨first, -, h⟩ := bind_ok h
      obtain ⟨second, hsecond, h⟩ := bind_ok h
      cases h
      exact number_le hwords hsecond
    · obtain ⟨first, hfirst, h⟩ := bind_ok h
      cases h
      dsimp only
      split
      · exact le_rfl
      · exact number_le hwords hfirst

lemma part_le (hwords : WordsFit field) (h : field.part text = .ok values) :
    ∀ value ∈ values, value ≤ field.high := by
  unfold Field.part at h
  obtain ⟨⟨range, step⟩, -, h⟩ := bind_ok h
  obtain ⟨⟨first, last⟩, hends, h⟩ := bind_ok h
  have hlast : last ≤ field.high := ends_le hwords hends
  dsimp only at h
  split at h
  · cases h
  · next hbackwards =>
    cases h
    intro value hvalue
    obtain ⟨i, hi, rfl⟩ := List.mem_range'.1 hvalue
    have hsteps : step * i ≤ last - first :=
      (Nat.mul_le_mul_left step (Nat.lt_succ_iff.1 hi)).trans (Nat.mul_div_le _ _)
    omega

lemma field_parse (hwords : WordsFit field) (h : field.parse text = .ok values) :
    values.Pairwise (· < ·) ∧ ∀ value ∈ values, value ≤ field.high := by
  unfold Field.parse at h
  obtain ⟨parts, hparts, h⟩ := bind_ok h
  dsimp only at h
  split at h
  · cases h
  · cases h
    refine ⟨inOrder_ordered _, fun value hvalue => ?_⟩
    obtain ⟨part, hpart, hmem⟩ := List.mem_flatten.1 (mem_inOrder hvalue)
    obtain ⟨piece, -, hpiece⟩ := (mem_of_mapM hparts part).1 hpart
    exact part_le hwords hpiece value hmem

lemma cron_parse {cron : CronSpec} (h : CronSpec.parse text = .ok cron) :
    (cron.minutes.Pairwise (· < ·) ∧ ∀ minute ∈ cron.minutes, minute < 60) ∧
      cron.hours.Pairwise (· < ·) ∧ ∀ hour ∈ cron.hours, hour < 24 := by
  unfold CronSpec.parse at h
  split at h
  · obtain ⟨_, -, h⟩ := bind_ok h
    obtain ⟨minutes, hminutes, h⟩ := bind_ok h
    obtain ⟨hours, hhours, h⟩ := bind_ok h
    obtain ⟨_, -, h⟩ := bind_ok h
    obtain ⟨_, -, h⟩ := bind_ok h
    cases h
    obtain ⟨hminute, hminuteLe⟩ := field_parse (by unfold WordsFit; decide) hminutes
    obtain ⟨hhour, hhourLe⟩ := field_parse (by unfold WordsFit; decide) hhours
    exact ⟨⟨hminute, fun m hm => Nat.lt_succ_of_le (hminuteLe m hm)⟩, hhour,
      fun m hm => Nat.lt_succ_of_le (hhourLe m hm)⟩
  · cases h

end Fields

def cronTimes (cron : CronSpec) (date : ℤ) : List ℤ :=
  if cron.onDay (Date.monthDay date).1 (Date.monthDay date).2 (Date.weekdayFromSunday date) then
    cron.hours.flatMap fun hour => cron.minutes.map fun minute => Date.at_ date hour minute 0
  else []

lemma at_bounds {date : ℤ} {hour minute second : ℕ}
    (h : hour * 3600 + minute * 60 + second < 86400) :
    date * Helpers.dayNanos ≤ Date.at_ date hour minute second ∧
      Date.at_ date hour minute second < (date + 1) * Helpers.dayNanos := by
  unfold Date.at_ Helpers.dayNanos
  constructor
  · omega
  · omega

lemma nextCron_eq (zone : TimeZone) (cron : CronSpec) (after : Timestamp) :
    zone.nextCron cron after =
      ((dates horizonDays (Helpers.WallTime.date (zone.wall after))).flatMap
        (cronTimes cron)).findSome? fun wall => (zone.moment wall).filter (after < ·) := by
  rw [nextCron, search_eq, findSome_flatMap]
  congr 1
  funext date
  dsimp only
  rw [cronTimes]
  split
  · rw [findSome_flatMap]
    congr 1
    funext hour
    rw [List.findSome?_map]
    rfl
  · rfl

lemma cronTimes_ordered {cron : CronSpec} (hminutes : cron.minutes.Pairwise (· < ·))
    (hminute : ∀ minute ∈ cron.minutes, minute < 60) (hhours : cron.hours.Pairwise (· < ·))
    (date : ℤ) : (cronTimes cron date).Pairwise (· ≤ ·) := by
  unfold cronTimes
  split
  · rw [List.pairwise_flatMap]
    constructor
    · intro hour _
      rw [List.pairwise_map]
      refine hminutes.imp fun hlt => ?_
      unfold Date.at_
      omega
    · refine hhours.imp fun {hour hour'} hlt x hx y hy => ?_
      obtain ⟨minute, hmem, rfl⟩ := List.mem_map.1 hx
      obtain ⟨minute', -, rfl⟩ := List.mem_map.1 hy
      have := hminute minute hmem
      unfold Date.at_
      omega
  · exact .nil

lemma flatMap_ordered {times : ℤ → List ℤ} (hordered : ∀ date, (times date).Pairwise (· ≤ ·))
    (hbounds : ∀ date, ∀ wall ∈ times date, date * Helpers.dayNanos ≤ wall ∧
      wall < (date + 1) * Helpers.dayNanos) {days : List ℤ} (hdays : days.Pairwise (· < ·)) :
    (days.flatMap times).Pairwise (· ≤ ·) := by
  rw [List.pairwise_flatMap]
  refine ⟨fun date _ => hordered date, hdays.imp fun {date date'} hlt x hx y hy => ?_⟩
  have hx := (hbounds date x hx).2
  have hy := (hbounds date' y hy).1
  have hnext : (date + 1) * Helpers.dayNanos ≤ date' * Helpers.dayNanos :=
    mul_le_mul_of_nonneg_right (by omega) (by decide)
  omega

lemma mem_cronTimes {cron : CronSpec} {date wall : ℤ} : wall ∈ cronTimes cron date ↔
    cron.onDay (Date.monthDay date).1 (Date.monthDay date).2 (Date.weekdayFromSunday date) = true ∧
      ∃ hour ∈ cron.hours, ∃ minute ∈ cron.minutes, Date.at_ date hour minute 0 = wall := by
  unfold cronTimes
  split
  · next h => simp [h]
  · next h => simp [h]

lemma onDay_iff {cron : CronSpec} {month day weekday : ℕ} :
    cron.onDay month day weekday = true ↔ month ∈ cron.months ∧
      if cron.daysGiven ∧ cron.weekdaysGiven then day ∈ cron.days ∨ weekday ∈ cron.weekdays
      else day ∈ cron.days ∧ weekday ∈ cron.weekdays := by
  unfold CronSpec.onDay
  by_cases hmonth : month ∈ cron.months
  · by_cases hgiven : cron.daysGiven = true ∧ cron.weekdaysGiven = true
    · simp [hmonth, hgiven]
    · have hgiven' : (cron.daysGiven && cron.weekdaysGiven) = false := by
        simpa using hgiven
      simp [hmonth, hgiven, hgiven']
  · simp [hmonth]

lemma found_isLeast (hforward : zone.Forward) {walls : List ℤ} (hordered : walls.Pairwise (· ≤ ·))
    {moments : Set Timestamp}
    (hmoments : {y | after < y ∧ ∃ wall ∈ walls, zone.moment wall = some y} = moments) :
    (∀ moment, (walls.findSome? fun wall => (zone.moment wall).filter (after < ·)) = some moment ↔
      IsLeast moments moment) ∧
    ((walls.findSome? fun wall => (zone.moment wall).filter (after < ·)) = none ↔ moments = ∅) := by
  subst hmoments
  exact ⟨fun moment => findSome_after_some (hordered.imp fun hle y hy y' hy' =>
    hforward _ _ hle y hy y' hy'), findSome_after_none⟩

lemma cronMoments_eq {cron : CronSpec} (hminute : ∀ minute ∈ cron.minutes, minute < 60)
    (hhour : ∀ hour ∈ cron.hours, hour < 24) :
    {y | after < y ∧ ∃ wall ∈ (dates horizonDays (Helpers.WallTime.date (zone.wall after))).flatMap
      (cronTimes cron), zone.moment wall = some y} = zone.cronMoments cron after := by
  ext y
  simp only [Set.mem_ofPred_eq, cronMoments, List.mem_flatMap, mem_lookedAt, mem_cronTimes,
    onDay_iff]
  refine and_congr_right fun _ => ?_
  constructor
  · rintro ⟨_, ⟨date, hdate, ⟨hmonth, hday⟩, hour, hhours, minute, hminutes, rfl⟩, hy⟩
    exact ⟨date, hdate, hour, hhour hour hhours, minute, hminute minute hminutes, hy, hminutes,
      hhours, hmonth, hday⟩
  · rintro ⟨date, hdate, hour, -, minute, -, hy, hminutes, hhours, hmonth, hday⟩
    exact ⟨_, ⟨date, hdate, ⟨hmonth, hday⟩, hour, hhours, minute, hminutes, rfl⟩, hy⟩

/-- The times on the wall of a time of day, on one of `weekdays` if any are given. -/
def timeTimes (time : CivilTime) (weekdays : Option (List Weekday)) (date : ℤ) : List ℤ :=
  if weekdays.all (·.contains (Date.weekdayOf date)) then
    [Date.at_ date time.parts.1 time.parts.2.1 time.parts.2.2]
  else []

lemma nextTime_eq (zone : TimeZone) (time : CivilTime) (weekdays : Option (List Weekday))
    (after : Timestamp) : zone.nextTime time weekdays after =
      ((dates horizonDays (Helpers.WallTime.date (zone.wall after))).flatMap
        (timeTimes time weekdays)).findSome? fun wall => (zone.moment wall).filter (after < ·) := by
  rw [nextTime]
  dsimp only
  rw [search_eq, findSome_flatMap]
  congr 1
  funext date
  rw [timeTimes]
  split
  · rw [List.findSome?_singleton]
  · rfl

lemma timeTimes_ordered (time : CivilTime) (weekdays : Option (List Weekday)) {days : List ℤ}
    (hdays : days.Pairwise (· < ·)) :
    (days.flatMap (timeTimes time weekdays)).Pairwise (· ≤ ·) := by
  rw [List.pairwise_flatMap]
  constructor
  · intro date _
    unfold timeTimes
    split <;> simp
  · refine hdays.imp fun {date date'} hlt x hx y hy => ?_
    unfold timeTimes at hx hy
    split at hx
    · split at hy
      · rw [List.mem_singleton.1 hx, List.mem_singleton.1 hy]
        unfold Date.at_ Helpers.dayNanos
        omega
      · cases hy
    · cases hx

lemma timeMoments_eq (time : CivilTime) (weekdays : Option (List Weekday)) :
    {y | after < y ∧ ∃ wall ∈ (dates horizonDays (Helpers.WallTime.date (zone.wall after))).flatMap
      (timeTimes time weekdays), zone.moment wall = some y} =
      zone.timeMoments time weekdays after := by
  ext y
  simp only [Set.mem_ofPred_eq, timeMoments, List.mem_flatMap, mem_lookedAt]
  refine and_congr_right fun _ => ?_
  constructor
  · rintro ⟨wall, ⟨date, hdate, hwall⟩, hy⟩
    unfold timeTimes at hwall
    split at hwall
    · next hweekdays =>
      rw [List.mem_singleton.1 hwall] at hy
      refine ⟨date, hdate, hy, fun days hdays => ?_⟩
      rw [Option.mem_def.1 hdays] at hweekdays
      simpa using hweekdays
    · cases hwall
  · rintro ⟨date, hdate, hy, hweekdays⟩
    refine ⟨_, ⟨date, hdate, ?_⟩, hy⟩
    unfold timeTimes
    rw [if_pos]
    · exact List.mem_singleton.2 rfl
    · cases weekdays with
      | none => rfl
      | some days => simpa using hweekdays days rfl

/-- What a search answers is the earliest moment there is after `after`, among the days it looks at.
It answers none where there is none. -/
theorem next_isLeast (zone : TimeZone) (hforward : zone.Forward) (after : Timestamp) :
    (∀ (text : String) (cron : CronSpec), CronSpec.parse text = .ok cron →
      (∀ moment, zone.nextCron cron after = some moment ↔
        IsLeast (zone.cronMoments cron after) moment) ∧
      (zone.nextCron cron after = none ↔ zone.cronMoments cron after = ∅)) ∧
    ∀ (time : CivilTime) (weekdays : Option (List Weekday)),
      (∀ moment, zone.nextTime time weekdays after = some moment ↔
        IsLeast (zone.timeMoments time weekdays after) moment) ∧
      (zone.nextTime time weekdays after = none ↔ zone.timeMoments time weekdays after = ∅) := by
  have hdays := dates_ordered horizonDays _ (zone.date_le after)
  constructor
  · intro text cron hcron
    obtain ⟨⟨hminutes, hminute⟩, hhours, hhour⟩ := cron_parse hcron
    rw [nextCron_eq]
    refine found_isLeast hforward (flatMap_ordered (cronTimes_ordered hminutes hminute hhours)
      (fun date wall hwall => ?_) hdays) (cronMoments_eq hminute hhour)
    obtain ⟨-, hour, hmem, minute, hmem', rfl⟩ := mem_cronTimes.1 hwall
    have := hminute minute hmem'
    have := hhour hour hmem
    exact at_bounds (by omega)
  · intro time weekdays
    rw [nextTime_eq]
    exact found_isLeast hforward (timeTimes_ordered time weekdays hdays)
      (timeMoments_eq time weekdays)

def greenwich : TimeZone where
  wall now := min now Helpers.WallTime.greatest
  offset _ := .unambiguous 0
  date_le _ := Int.ediv_le_ediv (by decide) (min_le_right _ _)

lemma greenwich_forward : greenwich.Forward := by
  have hmoment : ∀ x, ∀ a ∈ greenwich.moment x, a = x := by
    intro x a ha
    simp only [TimeZone.moment, greenwich, sub_zero, Option.mem_def, Option.ite_none_right_eq_some,
      Option.some.injEq] at ha
    exact ha.2.symm
  intro x y hxy a ha b hb
  rw [hmoment x a ha, hmoment y b hb]
  exact hxy

theorem next_isLeast_monday : ∃ cron : CronSpec, CronSpec.parse "0 7 * * MON" = .ok cron ∧
    (greenwich.nextCron cron 0 = some (370800 * 1000000000) ↔
      IsLeast (greenwich.cronMoments cron 0) (370800 * 1000000000)) :=
  ⟨⟨[0], [7], List.range' 1 31, List.range' 1 12, [1], false, true⟩, by decide +kernel,
    ((next_isLeast greenwich greenwich_forward 0).1 "0 7 * * MON" _ (by decide +kernel)).1 _⟩

end Proofs

end Irori
