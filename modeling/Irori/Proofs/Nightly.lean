import Irori.Backup.Schedule

/-!
# Which backups are due

The latest slot is the greatest there is, where a later date's time never comes before an earlier
date's. A backup is due as the runner wakes where none was made since that slot and the last try
didn't just fail, so no slot gets two.
-/

namespace Irori.Backup
open Helpers (Weekday)

variable {read : String → Option Int} {now : Zoned} {hour minute slot : Int} {days : List Weekday}

/-- The scheduled moments by `now`, on the days this many back. -/
def slotsOf (now : Zoned) (hour minute : Int) (days : List Weekday) (backs : List Nat) : Set Int :=
  { slot | slot ≤ now.time ∧ ∃ back ∈ backs,
      (days = [] ∨ weekdayOf (now.date - back) ∈ days) ∧
        now.zone.toZoned (now.date - back) hour minute = some slot }

def slots (now : Zoned) (hour minute : Int) (days : List Weekday) : Set Int :=
  slotsOf now hour minute days (List.range 8)

/-- The time of day never comes earlier on a later date, and can be told of all these dates. -/
structure Forward (now : Zoned) (hour minute : Int) : Prop where
  told : ∀ back : Nat, back < 8 → minDate ≤ now.date - back ∧
    (now.zone.toZoned (now.date - back) hour minute).isSome
  forward : ∀ date later slot slot' : Int, date ≤ later →
    now.zone.toZoned date hour minute = some slot →
      now.zone.toZoned later hour minute = some slot' → slot ≤ slot'

lemma forward_of_offset {zone : Zone} (offset : Int → Int)
    (hzone : ∀ date, zone.toZoned date hour minute =
      some (((date * 24 + hour) * 60 + minute) * 60000000000 - offset date))
    (hoffset : ∀ date, offset (date + 1) ≤ offset date + 86400000000000) {date later slot' : Int}
    (hle : date ≤ later) (h : zone.toZoned date hour minute = some slot)
    (h' : zone.toZoned later hour minute = some slot') : slot ≤ slot' := by
  obtain ⟨n, rfl⟩ := Int.le.dest hle
  have hgrown : ∀ n : Nat, offset (date + n) ≤ offset date + n * 86400000000000 := by
    intro n
    induction n with
    | zero => simp
    | succ n ih =>
      have hnext := hoffset (date + n)
      rw [add_assoc] at hnext
      push_cast
      omega
  rw [hzone] at h h'
  obtain rfl := Option.some.inj h
  obtain rfl := Option.some.inj h'
  have hn := hgrown n
  omega

lemma latestOf_eq (h : Forward now hour minute) {backs : List Nat}
    (hsorted : backs.Pairwise (· < ·)) (hweek : ∀ back ∈ backs, back < 8) :
    latestOf now hour minute days backs = some slot ↔
      IsGreatest (slotsOf now hour minute days backs) slot := by
  induction backs with
  | nil => exact ⟨fun h => (by cases h), fun h => (by obtain ⟨-, _, hmem, -⟩ := h.1; cases hmem)⟩
  | cons back backs ih =>
    obtain ⟨hbefore, hsorted⟩ := List.pairwise_cons.mp hsorted
    obtain ⟨hmin, htold⟩ := h.told back (hweek back List.mem_cons_self)
    have ih := ih hsorted fun other hother => hweek other (List.mem_cons_of_mem _ hother)
    -- Where the day itself gives no slot, the slots are those of the days before it.
    have hskip : (∀ slot, slot ≤ now.time → (days = [] ∨ weekdayOf (now.date - back) ∈ days) →
          now.zone.toZoned (now.date - back) hour minute ≠ some slot) →
        slotsOf now hour minute days (back :: backs) = slotsOf now hour minute days backs := by
      intro hnone
      ext slot
      refine ⟨fun ⟨hle, other, hother, hday, hslot⟩ => ?_, fun ⟨hle, other, hother, hrest⟩ =>
        ⟨hle, other, List.mem_cons_of_mem _ hother, hrest⟩⟩
      rcases List.mem_cons.mp hother with rfl | hother
      · exact absurd hslot (hnone slot hle hday)
      · exact ⟨hle, other, hother, hday, hslot⟩
    unfold latestOf
    dsimp only
    rw [if_neg hmin.not_gt]
    split
    · next hday =>
      rw [ih, hskip fun slot _ hchosen => ?_]
      rcases hchosen with hall | hchosen
      · exact absurd hall hday.1
      · exact absurd hchosen hday.2
    · next hday =>
      have hchosen : days = [] ∨ weekdayOf (now.date - back) ∈ days := by
        by_contra hno
        exact hday (not_or.mp hno)
      obtain ⟨first, hfirst⟩ := Option.isSome_iff_exists.mp htold
      rw [hfirst]
      dsimp only
      split
      · next hle =>
        have hgreatest : IsGreatest (slotsOf now hour minute days (back :: backs)) first := by
          refine ⟨⟨hle, back, List.mem_cons_self, hchosen, hfirst⟩, ?_⟩
          rintro slot ⟨-, other, hother, -, hslot⟩
          rcases List.mem_cons.mp hother with rfl | hother
          · exact (Option.some.inj (hslot.symm.trans hfirst)).le
          · have hlt := hbefore other hother
            exact h.forward _ _ _ _ (by omega) hslot hfirst
        exact ⟨fun heq => Option.some.inj heq ▸ hgreatest,
          fun hslot => congrArg some (hgreatest.unique hslot)⟩
      · next hlate =>
        rw [ih, hskip fun slot hle _ hslot => ?_]
        rw [hfirst] at hslot
        exact hlate (Option.some.inj hslot ▸ hle)

lemma latestOf_le {backs : List Nat} (h : latestOf now hour minute days backs = some slot) :
    slot ≤ now.time := by
  induction backs with
  | nil => cases h
  | cons back backs ih =>
    unfold latestOf at h
    dsimp only at h
    split at h
    · cases h
    · split at h
      · exact ih h
      · split at h
        · cases h
        · split at h
          · next hle => exact Option.some.inj h ▸ hle
          · exact ih h

lemma slot_le {settings : Settings} (h : settings.slot now = some slot) : slot ≤ now.time := by
  unfold Settings.slot at h
  split at h
  · cases h
  · exact latestOf_le h

structure Run where
  slot : Option Int
  time : Int
  ok : Bool

structure Diary where
  depot : Depot
  runs : List Run
  clock : Int

inductive BackupEvent
  /-- The runner wakes, and makes a backup if one is due. -/
  | wakes (settings : Settings) (now : Zoned) (luck : RunLuck)
  | byHand (settings : Settings) (luck : RunLuck)

def Diary.after (read : String → Option Int) (d : Diary) : BackupEvent → Diary
  | .wakes settings now luck =>
    match wake read settings now luck d.depot with
    | (depot, none) => ⟨depot, d.runs, now.time⟩
    | (depot, some result) =>
      ⟨depot, d.runs ++ [⟨settings.slot now, luck.now, result.isOk⟩], luck.now⟩
  | .byHand settings luck =>
    let (depot, result) := runOnce read settings luck d.depot
    ⟨depot, d.runs ++ [⟨none, luck.now, result.isOk⟩], luck.now⟩

def BackupEvent.InOrder (d : Diary) : BackupEvent → Prop
  | .wakes _ now luck => d.clock ≤ now.time ∧ now.time ≤ luck.now ∧ luck.saves = true
  | .byHand _ luck => d.clock ≤ luck.now ∧ luck.saves = true

/-- What there can be after wake-ups and runs in order, from a home that made no backup yet. -/
inductive Reached (read : String → Option Int) : Diary → Prop
  | start {depot : Depot} (clock : Int) : depot.status = .empty → Reached read ⟨depot, [], clock⟩
  | step {d : Diary} {event : BackupEvent} : Reached read d → event.InOrder d →
      Reached read (d.after read event)

def Diary.served (d : Diary) : List Int :=
  d.runs.filterMap fun run => if run.ok then run.slot else none

structure Tracks (d : Diary) : Prop where
  success : ∀ slot, d.depot.status.lastSuccess.any (fun done => slot ≤ done) = true ↔
    ∃ run ∈ d.runs, run.ok = true ∧ slot ≤ run.time
  attempt : d.depot.status.lastAttempt = d.runs.getLast?.map Run.time
  error : d.depot.status.lastError.isSome = d.runs.getLast?.any fun run => !run.ok
  past : ∀ run ∈ d.runs, run.time ≤ d.clock
  slots : ∀ run ∈ d.runs, ∀ slot, run.slot = some slot → slot ≤ run.time
  served : d.served.Pairwise (· < ·)

lemma copyOut_status (read : String → Option Int) (settings : Settings) (name : String)
    (time : Int) :
    ∀ (there : List Destination) (copies : Nat → CopyLuck) (status : Status),
      (copyOut read settings name time copies there status).2.lastAttempt = status.lastAttempt ∧
        (copyOut read settings name time copies there status).2.lastSuccess = status.lastSuccess ∧
        (copyOut read settings name time copies there status).2.lastError = status.lastError
  | [], _, _ => ⟨rfl, rfl, rfl⟩
  | destination :: there, copies, status => by
    obtain ⟨hattempt, hsuccess, herror⟩ := copyOut_status read settings name time there
      (fun n => copies (n + 1))
      (copyTo read settings name time (copies 0) destination status).2
    have hone : (copyTo read settings name time (copies 0) destination status).2.lastAttempt =
          status.lastAttempt ∧
        (copyTo read settings name time (copies 0) destination status).2.lastSuccess =
          status.lastSuccess ∧
        (copyTo read settings name time (copies 0) destination status).2.lastError =
          status.lastError := by
      unfold copyTo
      dsimp only
      split
      · exact ⟨rfl, rfl, rfl⟩
      · split <;> exact ⟨rfl, rfl, rfl⟩
    exact ⟨hattempt.trans hone.1, hsuccess.trans hone.2.1, herror.trans hone.2.2⟩

lemma runOnce_status (read : String → Option Int) (settings : Settings) {luck : RunLuck}
    (depot : Depot) (hsaves : luck.saves = true) :
    (runOnce read settings luck depot).1.status.lastAttempt = some luck.now ∧
      (runOnce read settings luck depot).1.status.lastSuccess =
        (if (runOnce read settings luck depot).2.isOk then some luck.now
        else depot.status.lastSuccess) ∧
      (runOnce read settings luck depot).1.status.lastError.isSome =
        !(runOnce read settings luck depot).2.isOk := by
  unfold runOnce
  cases create settings luck depot.here with
  | error why =>
    dsimp only
    rw [if_pos hsaves]
    exact ⟨rfl, rfl, rfl⟩
  | ok made =>
    dsimp only
    rw [if_pos hsaves]
    obtain ⟨hattempt, hsuccess, herror⟩ :=
      copyOut_status read settings made.1 luck.now depot.there luck.copies _
    exact ⟨hattempt, hsuccess, by rw [herror]; rfl⟩

lemma Tracks.due_iff {d : Diary} (h : Tracks d) {settings : Settings} :
    due settings d.depot.status now = true ↔
      settings.enabled = true ∧ ∃ slot, settings.slot now = some slot ∧
        (∀ run ∈ d.runs, run.ok = true → run.time < slot) ∧
        ∀ run, d.runs.getLast? = some run →
          run.ok = true ∨ retry ≤ asSecond now.time - asSecond run.time := by
  have hlately : d.depot.status.triedLately now.time = false ↔ ∀ run, d.runs.getLast? = some run →
      run.ok = true ∨ retry ≤ asSecond now.time - asSecond run.time := by
    unfold Status.triedLately
    rw [h.attempt, h.error]
    cases d.runs.getLast? with
    | none => simp
    | some run => cases hok : run.ok <;> simp [hok]
  unfold due
  cases settings.enabled with
  | false => simp
  | true =>
    cases settings.slot now with
    | none => simp
    | some slot =>
      have hdone : (d.depot.status.lastSuccess.any fun done => decide (slot ≤ done)) = false ↔
          ∀ run ∈ d.runs, run.ok = true → run.time < slot := by
        rw [← Bool.not_eq_true, h.success]
        push Not
        rfl
      have hboth : (if (d.depot.status.lastSuccess.any fun done => decide (slot ≤ done)) = true
            then false else !d.depot.status.triedLately now.time) = true ↔
          (∀ run ∈ d.runs, run.ok = true → run.time < slot) ∧
            ∀ run, d.runs.getLast? = some run →
              run.ok = true ∨ retry ≤ asSecond now.time - asSecond run.time := by
        rw [← hdone, ← hlately]
        cases d.depot.status.lastSuccess.any fun done => decide (slot ≤ done) <;> simp
      refine hboth.trans ⟨fun ⟨hnone, hlate⟩ => ⟨rfl, slot, rfl, hnone, hlate⟩, ?_⟩
      rintro ⟨-, other, hother, hnone, hlate⟩
      obtain rfl := Option.some.inj hother
      exact ⟨hnone, hlate⟩

lemma Tracks.run {d : Diary} (h : Tracks d) {settings : Settings} {luck : RunLuck}
    {slot : Option Int} (hclock : d.clock ≤ luck.now) (hsaves : luck.saves = true)
    (hslot : ∀ s, slot = some s → s ≤ luck.now ∧ ∀ run ∈ d.runs, run.ok = true → run.time < s) :
    Tracks ⟨(runOnce read settings luck d.depot).1,
      d.runs ++ [⟨slot, luck.now, (runOnce read settings luck d.depot).2.isOk⟩], luck.now⟩ := by
  obtain ⟨hattempt, hsuccess, herror⟩ := runOnce_status read settings d.depot hsaves
  generalize runOnce read settings luck d.depot = ran at *
  obtain ⟨depot, result⟩ := ran
  dsimp only at *
  refine ⟨fun s => ?_, ?_, ?_, fun run hrun => ?_, fun run hrun s hs => ?_, ?_⟩
  · rw [hsuccess]
    cases result.isOk with
    | true =>
      constructor
      · intro hle
        exact ⟨_, List.mem_append_right _ (List.mem_singleton_self _), rfl, by simpa using hle⟩
      · rintro ⟨run, hrun, -, hle⟩
        have hpast : run.time ≤ luck.now := by
          rcases List.mem_append.mp hrun with hrun | hrun
          · exact (h.past run hrun).trans hclock
          · rw [List.mem_singleton.mp hrun]
        simpa using hle.trans hpast
    | false =>
      rw [if_neg (by simp), h.success]
      constructor
      · rintro ⟨run, hrun, hrest⟩
        exact ⟨run, List.mem_append_left _ hrun, hrest⟩
      · rintro ⟨run, hrun, hok, hle⟩
        rcases List.mem_append.mp hrun with hrun | hrun
        · exact ⟨run, hrun, hok, hle⟩
        · rw [List.mem_singleton.mp hrun] at hok
          cases hok
  · rw [hattempt, List.getLast?_concat]
    rfl
  · rw [herror, List.getLast?_concat]
    rfl
  · rcases List.mem_append.mp hrun with hrun | hrun
    · exact (h.past run hrun).trans hclock
    · rw [List.mem_singleton.mp hrun]
  · rcases List.mem_append.mp hrun with hrun | hrun
    · exact h.slots run hrun s hs
    · rw [List.mem_singleton.mp hrun] at hs ⊢
      exact (hslot s hs).1
  · unfold Diary.served
    dsimp only
    rw [List.filterMap_append, List.pairwise_append]
    refine ⟨h.served, ?_, fun s hs s' hs' => ?_⟩
    · cases result.isOk <;> cases slot <;> simp
    · obtain ⟨run, hrun, hserved⟩ := List.mem_filterMap.mp hs
      obtain ⟨new, hnew, hserved'⟩ := List.mem_filterMap.mp hs'
      rw [List.mem_singleton] at hnew
      subst hnew
      split at hserved
      · next hok =>
        split at hserved'
        · have hlater := (hslot s' hserved').2 run hrun hok
          exact (h.slots run hrun s hserved).trans_lt hlater
        · cases hserved'
      · cases hserved

lemma tracks_of_reached {d : Diary} (h : Reached read d) : Tracks d := by
  induction h with
  | start clock hempty =>
    refine ⟨fun slot => ?_, ?_, ?_, fun _ h => (by cases h), fun _ h => (by cases h), .nil⟩
    · rw [hempty]
      refine ⟨fun h => (by cases h), fun ⟨_, h, _⟩ => (by cases h)⟩
    · rw [hempty]
      rfl
    · rw [hempty]
      rfl
  | @step d event _ hevent ih =>
    cases event with
    | wakes settings now luck =>
      obtain ⟨hclock, hnow, hsaves⟩ := hevent
      unfold Diary.after wake
      dsimp only
      by_cases hdue : due settings d.depot.status now = true
      · rw [if_pos hdue]
        obtain ⟨-, slot, hslot, hnone, -⟩ := ih.due_iff.mp hdue
        refine ih.run (hclock.trans hnow) hsaves fun s hs => ?_
        obtain rfl := Option.some.inj (hslot.symm.trans hs)
        exact ⟨(slot_le hslot).trans hnow, hnone⟩
      · rw [if_neg hdue]
        exact ⟨ih.success, ih.attempt, ih.error, fun run hrun => (ih.past run hrun).trans hclock,
          ih.slots, ih.served⟩
    | byHand settings luck =>
      obtain ⟨hclock, hsaves⟩ := hevent
      exact ih.run hclock hsaves fun s hs => (by cases hs)

/-- The latest slot is the greatest. In every run each slot gets one backup at most, and one is due
where there is a slot since which none was made and the last try didn't just fail. -/
theorem nightly_due :
    (∀ (now : Zoned) (hour minute slot : Int) (days : List Weekday), Forward now hour minute →
        (latestSlot now hour minute days = some slot ↔
          IsGreatest (slots now hour minute days) slot)) ∧
      ∀ (read : String → Option Int) (d : Diary), Reached read d →
        d.served.Pairwise (· < ·) ∧
          ∀ (settings : Settings) (now : Zoned), due settings d.depot.status now = true ↔
            settings.enabled = true ∧ ∃ slot, settings.slot now = some slot ∧
              (∀ run ∈ d.runs, run.ok = true → run.time < slot) ∧
              ∀ run, d.runs.getLast? = some run →
                run.ok = true ∨ retry ≤ asSecond now.time - asSecond run.time :=
  ⟨fun _ _ _ _ _ hforward => latestOf_eq hforward List.pairwise_lt_range
      fun _ hback => List.mem_range.mp hback,
    fun _ _ hreached => ⟨(tracks_of_reached hreached).served,
      fun _ _ => (tracks_of_reached hreached).due_iff⟩⟩

def moment (date second : Int) : Int := (date * 86400 + second) * 1000000000

def utc : Zone := ⟨fun date hour minute => some (moment date ((hour * 60 + minute) * 60))⟩

def utcAt (date second : Int) : Zoned := ⟨moment date second, date, utc⟩

/-- Where at four in the afternoon, two days before day 20000, clocks are put on by 36 hours. What
is skipped is told by the old offset. -/
def leaping : Zone :=
  ⟨fun date hour minute => some (moment date ((hour * 60 + minute) * 60 -
    if 20000 * 24 + 4 ≤ date * 24 + hour then 36 * 3600 else 0))⟩

def leapt : Zoned := ⟨moment 20000 (4 * 3600), 20001, leaping⟩

def daily : Settings := ⟨true, true, "03:00", [], 7, none⟩

def triedAt (now : Int) (fails : Option String) : RunLuck :=
  let sweep : Sweep := ⟨fun _ => true, fun _ => true, now⟩
  ⟨now, fails, "20241004-030030", now, sweep, fun _ => true, fun _ => ⟨.ok (), now, sweep⟩, true⟩

def unsaved : Diary := ⟨⟨∅, [], .empty⟩, [], moment 20000 10800⟩

def woken : Diary :=
  unsaved.after (fun _ => none)
    (.wakes daily (utcAt 20000 10830) (triedAt (moment 20000 10830) none))

def handMade : Diary :=
  unsaved.after (fun _ => none) (.byHand daily (triedAt (moment 20000 10810) none))

def failedAgain : Diary :=
  handMade.after (fun _ => none) (.byHand daily (triedAt (moment 20000 36000) (some "disk full")))

lemma forward_utc : Forward (utcAt 20000 10830) 3 0 where
  told := fun back hback =>
    ⟨by show minDate ≤ 20000 - (back : Int); unfold minDate; omega, rfl⟩
  forward := fun _ _ _ _ hle h h' =>
    forward_of_offset (fun _ => 0)
      (fun date => congrArg some (by unfold moment; omega)) (fun _ => by decide) hle h h'

lemma reached_unsaved : Reached (fun _ => none) unsaved := .start _ rfl

theorem nightly_due_utc :
    IsGreatest (slots (utcAt 20000 10830) 3 0 []) (moment 20000 10800) ∧
      woken.served = [moment 20000 10800] ∧ woken.served.Pairwise (· < ·) :=
  ⟨(nightly_due.1 _ 3 0 _ [] forward_utc).mp (by decide), by decide,
    (nightly_due.2 _ woken (.step reached_unsaved (by
      refine ⟨?_, ?_, rfl⟩ <;> decide))).1⟩

/-- Over a leap the slot that is found is not the greatest. A backup made by hand since the slot
leaves none due as the runner wakes. And one that failed when none was due isn't tried again. -/
theorem not_nightly_due :
    (latestSlot leapt 3 0 [] = some (moment 19999 54000) ∧
        ¬ IsGreatest (slots leapt 3 0 []) (moment 19999 54000)) ∧
      (Reached (fun _ => none) handMade ∧ daily.slot (utcAt 20000 10840) = some (moment 20000 10800) ∧
        (∀ run ∈ handMade.runs, run.ok = true) ∧
        due daily handMade.depot.status (utcAt 20000 10840) = false) ∧
      Reached (fun _ => none) failedAgain ∧
        failedAgain.runs.getLast?.map (fun run => (run.time, run.ok)) =
          some (moment 20000 36000, false) ∧
        due daily failedAgain.depot.status (utcAt 20000 36900) = false := by
  have hhand : Reached (fun _ => none) handMade :=
    .step reached_unsaved ⟨by decide, rfl⟩
  have hfailed : Reached (fun _ => none) failedAgain := .step hhand ⟨by decide, rfl⟩
  refine ⟨⟨by decide, fun hgreatest => ?_⟩, ⟨hhand, ?_⟩, hfailed, ?_⟩
  · have hlater : moment 20000 10800 ∈ slots leapt 3 0 [] :=
      ⟨by decide, 1, by decide, .inl rfl, by decide⟩
    exact absurd (hgreatest.2 hlater) (by decide)
  · decide
  · decide

end Irori.Backup
