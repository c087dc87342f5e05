import Irori.Cloud.Budget
import Mathlib.Order.Bounds.Basic
import Mathlib.Tactic

/-!
# The allowance of a period

The calendar, month by month: where one starts, and that the days of a month are those between two
starts. Then what a budget has handed out: never more than the limit in a period, as long as the
clock doesn't go back to an earlier one.
-/

namespace Irori.Cloud.Proofs

def yearOfEra (doe : ℕ) : ℕ := (doe - doe / 1460 + doe / 36524 - doe / 146096) / 365

def yearStart (y : ℕ) : ℕ := 365 * y + y / 4 - y / 100 + y / 400

def monthOffset (mp : ℕ) : ℕ := (153 * mp + 2) / 5

def monthStart (k : ℕ) : ℕ := yearStart (k / 12) + monthOffset (k % 12)

lemma yearOfEra_lt {doe : ℕ} (h : doe < 146097) : yearOfEra doe < 400 := by
  unfold yearOfEra
  omega

lemma yearOfEra_mono : Monotone yearOfEra := by
  have hstep : Monotone fun doe : ℕ => doe - doe / 1460 + doe / 36524 - doe / 146096 := by
    refine monotone_nat_of_le_succ fun doe => ?_
    omega
  exact fun a b hab => Nat.div_le_div_right (hstep hab)

lemma yearOfEra_start : ∀ y < 400, yearOfEra (yearStart y) = y := by decide +kernel

lemma yearOfEra_end : ∀ y < 400, 0 < y → yearOfEra (yearStart y - 1) = y - 1 := by decide +kernel

lemma yearStart_succ : ∀ y < 400, yearStart (y + 1) ≤ yearStart y + 366 := by decide +kernel

lemma yearStart_yearOfEra {doe : ℕ} (h : doe < 146097) :
    yearStart (yearOfEra doe) ≤ doe ∧ doe < yearStart (yearOfEra doe + 1) := by
  have hlt := yearOfEra_lt h
  constructor
  · by_contra hcon
    have hpos : 0 < yearOfEra doe := by
      rcases Nat.eq_zero_or_pos (yearOfEra doe) with hzero | hpos
      · rw [hzero] at hcon
        exact absurd (Nat.zero_le _) hcon
      · exact hpos
    have hle := yearOfEra_mono (show doe ≤ yearStart (yearOfEra doe) - 1 by omega)
    rw [yearOfEra_end _ hlt hpos] at hle
    omega
  · by_contra hcon
    rw [not_lt] at hcon
    by_cases hlast : yearOfEra doe + 1 < 400
    · have hle := yearOfEra_mono hcon
      rw [yearOfEra_start _ hlast] at hle
      omega
    · have heq : yearOfEra doe + 1 = 400 := by omega
      rw [heq] at hcon
      exact absurd (hcon.trans_lt h) (by decide)

lemma monthOffset_le {doy : ℕ} (h : doy ≤ 365) :
    (5 * doy + 2) / 153 ≤ 11 ∧ monthOffset ((5 * doy + 2) / 153) ≤ doy ∧
      doy < monthOffset ((5 * doy + 2) / 153 + 1) := by
  unfold monthOffset
  omega

lemma monthStart_mono : Monotone monthStart := by
  refine monotone_nat_of_le_succ fun k => ?_
  unfold monthStart yearStart monthOffset
  by_cases hk : k % 12 = 11
  · have hdiv : (k + 1) / 12 = k / 12 + 1 := by omega
    have hmod : (k + 1) % 12 = 0 := by omega
    rw [hdiv, hmod, hk]
    omega
  · have hdiv : (k + 1) / 12 = k / 12 := by omega
    have hmod : (k + 1) % 12 = k % 12 + 1 := by omega
    rw [hdiv, hmod]
    omega

lemma yearStart_add (era y : ℕ) : yearStart (era * 400 + y) = era * 146097 + yearStart y := by
  unfold yearStart
  omega

lemma yearMonth_eq (days : ℕ) :
    ∃ k, monthStart k ≤ days + 719468 ∧ days + 719468 < monthStart (k + 1) ∧
      (yearMonth days).1 * 12 + ((yearMonth days).2 - 1) = k + 2 := by
  obtain ⟨era, hera⟩ : ∃ era, (days + 719468) / 146097 = era := ⟨_, rfl⟩
  obtain ⟨doe, hdoe⟩ : ∃ doe, days + 719468 - era * 146097 = doe := ⟨_, rfl⟩
  have hlt : doe < 146097 := by omega
  obtain ⟨yoe, hyoe⟩ : ∃ yoe, yearOfEra doe = yoe := ⟨_, rfl⟩
  have hyear := yearOfEra_lt hlt
  obtain ⟨hstart, hend⟩ := yearStart_yearOfEra hlt
  rw [hyoe] at hyear hstart hend
  have hwithin : 365 * yoe + yoe / 4 - yoe / 100 = yearStart yoe := by
    unfold yearStart
    omega
  obtain ⟨doy, hdoy⟩ : ∃ doy, doe - yearStart yoe = doy := ⟨_, rfl⟩
  have hlong := yearStart_succ yoe hyear
  obtain ⟨hmp, hoffset, hnext⟩ := monthOffset_le (show doy ≤ 365 by omega)
  obtain ⟨mp, hmp'⟩ : ∃ mp, (5 * doy + 2) / 153 = mp := ⟨_, rfl⟩
  rw [hmp'] at hmp hoffset hnext
  have hz : days + 719468 = era * 146097 + yearStart yoe + doy := by omega
  refine ⟨(era * 400 + yoe) * 12 + mp, ?_, ?_, ?_⟩
  · have hdiv : ((era * 400 + yoe) * 12 + mp) / 12 = era * 400 + yoe := by omega
    have hmod : ((era * 400 + yoe) * 12 + mp) % 12 = mp := by omega
    rw [monthStart, hdiv, hmod, yearStart_add]
    omega
  · by_cases hlast : mp = 11
    · have hdiv : ((era * 400 + yoe) * 12 + mp + 1) / 12 = era * 400 + (yoe + 1) := by omega
      rw [monthStart, hdiv, yearStart_add]
      omega
    · have hdiv : ((era * 400 + yoe) * 12 + mp + 1) / 12 = era * 400 + yoe := by omega
      have hmod : ((era * 400 + yoe) * 12 + mp + 1) % 12 = mp + 1 := by omega
      rw [monthStart, hdiv, hmod, yearStart_add]
      omega
  · have hcode : yearMonth days = (yoe + era * 400 +
        (if (if mp < 10 then mp + 3 else mp - 9) ≤ 2 then 1 else 0),
        if mp < 10 then mp + 3 else mp - 9) := by
      unfold yearOfEra at hyoe
      simp only [yearMonth, hera, hdoe, hyoe, hwithin, hdoy, hmp']
    rw [hcode]
    dsimp only
    split_ifs <;> omega

lemma daysFromCivil_eq (k : ℕ) :
    daysFromCivil ((k + 2) / 12) ((k + 2) % 12 + 1) = monthStart k - 719468 := by
  have hyear : (if (k + 2) % 12 + 1 ≤ 2 then (k + 2) / 12 - 1 else (k + 2) / 12) = k / 12 := by
    split_ifs <;> omega
  have hmp : (if (k + 2) % 12 + 1 > 2 then (k + 2) % 12 + 1 - 3 else (k + 2) % 12 + 1 + 9) =
      k % 12 := by
    split_ifs <;> omega
  have hstart := yearStart_add (k / 12 / 400) (k / 12 - k / 12 / 400 * 400)
  have hsplit : k / 12 / 400 * 400 + (k / 12 - k / 12 / 400 * 400) = k / 12 := by omega
  rw [hsplit] at hstart
  have hwithin : yearStart (k / 12 - k / 12 / 400 * 400) = (k / 12 - k / 12 / 400 * 400) * 365 +
      (k / 12 - k / 12 / 400 * 400) / 4 - (k / 12 - k / 12 / 400 * 400) / 100 := by
    unfold yearStart
    omega
  unfold daysFromCivil monthStart monthOffset
  dsimp only
  rw [hyear, hmp, hstart, hwithin]
  omega

def Period.startsAt : Period → ℕ → ℕ
  | .day, index => index * 86400
  | .month, index => (monthStart (index - 2) - 719468) * 86400

lemma startsAt_mono (period : Period) : Monotone (Period.startsAt period) := by
  intro a b hab
  cases period with
  | day => exact Nat.mul_le_mul_right _ hab
  | month =>
    have hmono := monthStart_mono (show a - 2 ≤ b - 2 by omega)
    exact Nat.mul_le_mul_right _ (by omega)

lemma index_bounds (period : Period) (now : ℕ) :
    Period.startsAt period (period.index now) ≤ now ∧
      now < Period.startsAt period (period.index now + 1) ∧
      period.endsAt (period.index now) = Period.startsAt period (period.index now + 1) := by
  cases period with
  | day =>
    have hdiv := Nat.div_mul_le_self now 86400
    have hlt := Nat.lt_div_mul_add (a := now) (b := 86400) (by decide)
    unfold Period.startsAt Period.index Period.endsAt
    dsimp only
    refine ⟨hdiv, ?_, Eq.refl _⟩
    rw [Nat.succ_mul]
    exact hlt
  | month =>
    obtain ⟨k, hstart, hend, hindex⟩ := yearMonth_eq (now / 86400)
    have hcode : Period.month.index now = k + 2 := hindex
    rw [hcode]
    have hthis : k + 2 - 2 = k := by omega
    have hnext : k + 2 + 1 - 2 = k + 1 := by omega
    refine ⟨?_, ?_, ?_⟩
    · unfold Period.startsAt
      dsimp only
      rw [hthis]
      omega
    · unfold Period.startsAt
      dsimp only
      rw [hnext]
      omega
    · have hcivil := daysFromCivil_eq (k + 1)
      unfold Period.startsAt Period.endsAt
      dsimp only
      rw [hnext, ← hcivil]

lemma index_mono (period : Period) : Monotone period.index := by
  intro a b hab
  by_contra hlt
  obtain ⟨hstart, -, -⟩ := index_bounds period a
  obtain ⟨-, hend, -⟩ := index_bounds period b
  have hmono := startsAt_mono period (show period.index b + 1 ≤ period.index a by omega)
  omega

lemma endsAt_isLeast (period : Period) (now : ℕ) :
    IsLeast {t | now < t ∧ period.index t ≠ period.index now}
      (period.endsAt (period.index now)) := by
  obtain ⟨-, hend, heq⟩ := index_bounds period now
  rw [heq]
  refine ⟨⟨hend, fun hsame => ?_⟩, fun t ⟨hlater, hother⟩ => ?_⟩
  · obtain ⟨-, hbefore, -⟩ := index_bounds period (Period.startsAt period (period.index now + 1))
    rw [hsame] at hbefore
    exact lt_irrefl _ hbefore
  · obtain ⟨hstart, -, -⟩ := index_bounds period t
    have hmono := index_mono period hlater.le
    exact (startsAt_mono period (by omega)).trans hstart

variable {period : Period} {limit index now : ℕ} {b : Budget} {s : Run} {trace : List Event}

lemma grantedIn_append (more : List Event) :
    grantedIn period index (trace ++ more) =
      grantedIn period index trace + grantedIn period index more := by
  simp [grantedIn]

lemma grantedIn_eq_zero (h : ∀ event ∈ trace, period.index event.reading ≠ index) :
    grantedIn period index trace = 0 := by
  refine List.sum_eq_zero fun cost hcost => ?_
  obtain ⟨event, hevent, rfl⟩ := List.mem_map.1 hcost
  cases event with
  | granted cost now => exact if_neg (h _ hevent)
  | exhausted now => rfl

@[simp] lemma roll_period : (b.roll now).period = b.period := by
  unfold Budget.roll
  dsimp only
  split_ifs <;> rfl

@[simp] lemma roll_limit : (b.roll now).limit = b.limit := by
  unfold Budget.roll
  dsimp only
  split_ifs <;> rfl

@[simp] lemma roll_index : (b.roll now).index = b.period.index now := by
  unfold Budget.roll
  dsimp only
  split_ifs with h
  · rfl
  · exact (not_not.1 h).symm

lemma roll_of_same (h : b.period.index now = b.index) : b.roll now = b := by
  unfold Budget.roll
  exact if_neg (not_not.2 h)

lemma roll_spent (h : b.period.index now ≠ b.index) : (b.roll now).spent = 0 := by
  unfold Budget.roll
  rw [if_pos h]

/-- Nothing more is granted in a period once the vendor said so. -/
def Obeyed (period : Period) (trace : List Event) : Prop :=
  ∀ (before : List Event) (now : ℕ) (after : List Event),
    trace = before ++ .exhausted now :: after →
      grantedIn period (period.index now) after = 0

/-- What a run keeps: the count is of the last reading's period and at least what was granted in it,
all of the limit once the vendor said so, and no event is of a later period. -/
structure Kept (period : Period) (limit : ℕ) (s : Run) : Prop where
  period_eq : s.budget.period = period
  limit_eq : s.budget.limit = limit
  index_eq : s.budget.index = period.index s.last
  past : ∀ event ∈ s.trace, period.index event.reading ≤ s.budget.index
  granted_le : ∀ index, grantedIn period index s.trace ≤ limit
  counted : grantedIn period s.budget.index s.trace ≤ s.budget.spent
  gone : ∀ now, .exhausted now ∈ s.trace → period.index now = s.budget.index →
    limit ≤ s.budget.spent
  obeyed : Obeyed period s.trace
  small : s.budget.spent ≤ 2 ^ 63
  stored_le : ∀ stored, s.stored = some stored → stored.index ≤ s.budget.index

lemma start_kept : Kept period limit (.start period limit now) where
  period_eq := rfl
  limit_eq := rfl
  index_eq := rfl
  past _ h := nomatch h
  granted_le _ := Nat.zero_le _
  counted := le_rfl
  gone _ h := nomatch h
  obeyed _ _ _ h := by simp [Run.start] at h
  small := Nat.zero_le _
  stored_le _ h := nomatch h

lemma roll_kept (h : Kept period limit s) (hlater : s.budget.index ≤ period.index now) :
    Kept period limit { s with budget := s.budget.roll now, last := now } := by
  by_cases hsame : s.budget.period.index now = s.budget.index
  · rw [roll_of_same hsame]
    rw [h.period_eq] at hsame
    exact { h with index_eq := hsame.symm }
  · have hspent := roll_spent hsame
    rw [h.period_eq] at hsame
    have hlt : s.budget.index < period.index now := lt_of_le_of_ne hlater (Ne.symm hsame)
    have hother : ∀ event ∈ s.trace, period.index event.reading ≠ period.index now :=
      fun event hevent => ((h.past event hevent).trans_lt hlt).ne
    exact {
      period_eq := by simp [h.period_eq]
      limit_eq := by simp [h.limit_eq]
      index_eq := by simp [h.period_eq]
      past := fun event hevent => by simpa [h.period_eq] using (h.past event hevent).trans hlater
      granted_le := h.granted_le
      counted := by simp [h.period_eq, grantedIn_eq_zero hother]
      gone := fun now' hmem heq => by
        simp only [roll_index, h.period_eq] at heq
        exact absurd heq (hother _ hmem)
      obeyed := h.obeyed
      small := by simp [hspent]
      stored_le := fun stored hstored => by
        simpa [h.period_eq] using (h.stored_le stored hstored).trans hlater }

lemma Obeyed.snoc {event : Event} (h : Obeyed period trace)
    (hevent : ∀ now, .exhausted now ∈ trace → grantedIn period (period.index now) [event] = 0) :
    Obeyed period (trace ++ [event]) := by
  intro before now after heq
  rcases List.eq_nil_or_concat after with rfl | ⟨after, last, rfl⟩
  · rfl
  · rw [List.concat_eq_append, ← List.cons_append, ← List.append_assoc] at heq
    obtain ⟨htrace, hlast⟩ := List.append_inj' heq rfl
    cases hlast
    rw [List.concat_eq_append, grantedIn_append, h before now after htrace,
      hevent now (by simp [htrace])]

lemma grant_kept {cost : ℕ} (h : Kept period limit s) (hlimit : limit < 2 ^ 63)
    (hfits : s.budget.spent + cost ≤ limit) :
    Kept period limit { s with
      budget := { s.budget with spent := s.budget.spent + cost },
      trace := s.trace ++ [.granted cost s.last] } := by
  have hhere : grantedIn period s.budget.index [.granted cost s.last] = cost := by
    simp [grantedIn, h.index_eq]
  refine { h with
    past := ?_
    granted_le := ?_
    counted := ?_
    gone := ?_
    obeyed := ?_
    small := hfits.trans hlimit.le }
  · intro event hevent
    rcases List.mem_append.1 hevent with hevent | hevent
    · exact h.past event hevent
    · rw [List.mem_singleton.1 hevent]
      exact h.index_eq.ge
  · intro index
    rw [grantedIn_append]
    by_cases hindex : s.budget.index = index
    · subst hindex
      rw [hhere]
      exact (Nat.add_le_add_right h.counted cost).trans hfits
    · have hnone : grantedIn period index [.granted cost s.last] = 0 := by
        simp [grantedIn, ← h.index_eq, hindex]
      rw [hnone]
      exact h.granted_le index
  · dsimp only
    rw [grantedIn_append, hhere]
    exact Nat.add_le_add_right h.counted cost
  · intro now hmem heq
    have hmem' : .exhausted now ∈ s.trace := by simpa using hmem
    exact (h.gone now hmem' heq).trans (Nat.le_add_right _ _)
  · refine h.obeyed.snoc fun now hmem => ?_
    by_cases hindex : period.index now = s.budget.index
    · have hgone := h.gone now hmem hindex
      rw [hindex, hhere]
      omega
    · simp [grantedIn, ← h.index_eq, Ne.symm hindex]

lemma gone_kept (h : Kept period limit s) (hlimit : limit < 2 ^ 63) :
    Kept period limit { s with
      budget := { s.budget with spent := max s.budget.spent s.budget.limit },
      trace := s.trace ++ [.exhausted s.last] } := by
  have hnone : ∀ index, grantedIn period index [.exhausted s.last] = 0 := fun _ => rfl
  refine { h with
    past := ?_
    granted_le := ?_
    counted := ?_
    gone := ?_
    obeyed := ?_
    small := ?_ }
  · intro event hevent
    rcases List.mem_append.1 hevent with hevent | hevent
    · exact h.past event hevent
    · rw [List.mem_singleton.1 hevent]
      exact h.index_eq.ge
  · intro index
    rw [grantedIn_append, hnone]
    exact h.granted_le index
  · dsimp only
    rw [grantedIn_append, hnone]
    exact h.counted.trans (le_max_left _ _)
  · intro now _ _
    exact h.limit_eq.ge.trans (le_max_right _ _)
  · exact h.obeyed.snoc fun now _ => hnone _
  · have hlimit' := h.limit_eq
    have hsmall := h.small
    dsimp only
    omega

/-- The clock isn't back in an earlier period, a command's cost leaves the count at most 2^63, and a
restart in a period that has been counted finds that count. -/
def Steady (s : Run) (op : Op) : Prop :=
  (∀ now, op.reading = some now → s.budget.index ≤ s.budget.period.index now) ∧
  match op with
  | .spend cost now => (s.budget.roll now).spent + cost ≤ 2 ^ 63
  | .restore now => s.stored = some s.budget ∨ s.budget.index < s.budget.period.index now
  | _ => True

def SteadyRun (s : Run) : List Op → Prop
  | [] => True
  | op :: ops => Steady s op ∧ SteadyRun (s.step op) ops

lemma restored_self : Budget.restored (some b) b.period b.limit now = b.roll now := by
  unfold Budget.restored
  dsimp only
  rw [if_pos rfl]

lemma restored_later {stored : Option Budget}
    (hstored : ∀ old, stored = some old → old.index ≤ index)
    (hlater : index < period.index now) :
    Budget.restored stored period limit now = .new period limit now := by
  have hnew : ({ Budget.new period limit now with limit } : Budget).roll now =
      .new period limit now := roll_of_same rfl
  unfold Budget.restored
  cases stored with
  | none => exact hnew
  | some old =>
    dsimp only
    split_ifs with hperiod
    · have hne : period.index now ≠ old.index := ((hstored old rfl).trans_lt hlater).ne'
      unfold Budget.roll
      rw [hperiod]
      exact if_pos hne
    · exact hnew

lemma new_kept (h : Kept period limit s) (hlater : s.budget.index < period.index now) :
    Kept period limit { s with budget := .new period limit now, last := now } := by
  have hkept := roll_kept h hlater.le
  have hspent : (s.budget.roll now).spent = 0 := by
    refine roll_spent ?_
    rw [h.period_eq]
    exact hlater.ne'
  have heq : s.budget.roll now = .new period limit now := by
    cases hroll : s.budget.roll now with
    | mk p l n i =>
      have hp := @roll_period now s.budget
      have hl := @roll_limit now s.budget
      have hi := @roll_index now s.budget
      rw [hroll] at hp hl hi hspent
      simp only [h.period_eq, h.limit_eq] at hp hl hi hspent
      rw [hp, hl, hi, hspent]
      rfl
  rwa [heq] at hkept

lemma step_kept {op : Op} (h : Kept period limit s) (hlimit : limit < 2 ^ 63)
    (hsteady : Steady s op) : Kept period limit (s.step op) := by
  obtain ⟨hclock, hsteady⟩ := hsteady
  have hrolled : ∀ now, op.reading = some now →
      Kept period limit { s with budget := s.budget.roll now, last := now } :=
    fun now hnow => roll_kept h (h.period_eq ▸ hclock now hnow)
  cases op with
  | trySpend cost now =>
    have hkept := hrolled now rfl
    unfold Run.step Budget.trySpend
    dsimp only
    by_cases hover : (s.budget.roll now).spent + cost > (s.budget.roll now).limit
    · rw [if_pos hover]
      simpa using hkept
    · rw [if_neg hover]
      have hle := not_lt.1 hover
      rw [roll_limit, h.limit_eq] at hle
      exact grant_kept hkept hlimit hle
  | spend cost now =>
    have hkept := hrolled now rfl
    exact { hkept with
      counted := hkept.counted.trans (Nat.le_add_right _ _)
      gone := fun now' hmem heq => (hkept.gone now' hmem heq).trans (Nat.le_add_right _ _)
      small := hsteady }
  | exhaust now => exact gone_kept (hrolled now rfl) hlimit
  | roll now => exact hrolled now rfl
  | store =>
    refine { h with stored_le := fun stored hstored => ?_ }
    cases hstored
    exact le_rfl
  | restore now =>
    unfold Run.step
    rcases hsteady with hstored | hlater
    · have hsame : Budget.restored s.stored s.budget.period s.budget.limit now =
          s.budget.roll now := by
        rw [hstored, restored_self]
      dsimp only
      rw [hsame]
      exact hrolled now rfl
    · dsimp only
      rw [h.period_eq] at hlater ⊢
      rw [h.limit_eq, restored_later h.stored_le hlater]
      exact new_kept h hlater

lemma run_kept {ops : List Op} (h : Kept period limit s) (hlimit : limit < 2 ^ 63)
    (hsteady : SteadyRun s ops) : Kept period limit (s.run ops) := by
  induction ops generalizing s with
  | nil => exact h
  | cons op ops ih => exact ih (step_kept h hlimit hsteady.1) hsteady.2

lemma SteadyRun.of_append {before after : List Op} (h : SteadyRun s (before ++ after)) :
    SteadyRun s before ∧ SteadyRun (s.run before) after := by
  induction before generalizing s with
  | nil => exact ⟨trivial, h⟩
  | cons op before ih =>
    obtain ⟨hbefore, hafter⟩ := ih h.2
    exact ⟨⟨h.1, hbefore⟩, hafter⟩

lemma sum_lt {op : Op} (h : Kept period limit s) (hcost : op.cost < 2 ^ 63) :
    op.sum s < 2 ^ 64 := by
  have hroll : ∀ now, (s.budget.roll now).spent ≤ 2 ^ 63 := by
    intro now
    by_cases hsame : s.budget.period.index now = s.budget.index
    · rw [roll_of_same hsame]
      exact h.small
    · rw [roll_spent hsame]
      exact Nat.zero_le _
  cases op with
  | trySpend cost now =>
    have hsmall := hroll now
    simp only [Op.sum, Op.cost] at hcost ⊢
    omega
  | spend cost now =>
    have hsmall := hroll now
    simp only [Op.sum, Op.cost] at hcost ⊢
    omega
  | _ => exact Nat.two_pow_pos 64

/-- A budget whose clock never goes back to an earlier period hands a period's calls out once: what
is granted in one is at most the limit, and nothing more once the vendor said so. It starts again at
the first moment after the last reading that lies in another period, and no sum overflows. -/
theorem granted_le_limit (period : Period) (limit now : ℕ) (hlimit : limit < 2 ^ 63)
    (ops : List Op) (hcosts : ∀ op ∈ ops, op.cost < 2 ^ 63)
    (hsteady : SteadyRun (.start period limit now) ops) :
    (∀ index, grantedIn period index ((Run.start period limit now).run ops).trace ≤ limit) ∧
    Obeyed period ((Run.start period limit now).run ops).trace ∧
    IsLeast {t | ((Run.start period limit now).run ops).last < t ∧
        period.index t ≠ period.index ((Run.start period limit now).run ops).last}
      ((Run.start period limit now).run ops).budget.resetsAt ∧
    ∀ (before : List Op) (op : Op) (after : List Op), ops = before ++ op :: after →
      op.sum ((Run.start period limit now).run before) < 2 ^ 64 := by
  have hkept := run_kept start_kept hlimit hsteady
  refine ⟨hkept.granted_le, hkept.obeyed, ?_, fun before op after heq => ?_⟩
  · rw [Budget.resetsAt, hkept.index_eq, hkept.period_eq]
    exact endsAt_isLeast period _
  · subst heq
    exact sum_lt (run_kept start_kept hlimit hsteady.of_append.1) (hcosts op (by simp))

theorem granted_le_limit_day :
    (∀ index, grantedIn .day index
      ((Run.start .day 5 86400).run [.trySpend 5 86400, .trySpend 1 86401]).trace ≤ 5) ∧
    Obeyed .day ((Run.start .day 5 86400).run [.trySpend 5 86400, .trySpend 1 86401]).trace := by
  have h := granted_le_limit .day 5 86400 (by decide) [.trySpend 5 86400, .trySpend 1 86401]
    (by decide) ⟨⟨fun now hnow => by cases hnow; decide, trivial⟩,
      ⟨fun now hnow => by cases hnow; decide, trivial⟩, trivial⟩
  exact ⟨h.1, h.2.1⟩

/-- A clock that goes back a day and comes forward again has the day's calls handed out twice. -/
theorem granted_twice :
    ¬ ∀ (period : Period) (limit now : ℕ) (ops : List Op), limit < 2 ^ 63 →
      (∀ op ∈ ops, op.cost < 2 ^ 63) →
        ∀ index, grantedIn period index ((Run.start period limit now).run ops).trace ≤ limit := by
  intro h
  have htwice := h .day 1 86400 [.trySpend 1 86400, .roll 0, .trySpend 1 86400] (by decide)
    (by decide) 1
  exact absurd htwice (by decide)

end Irori.Cloud.Proofs
