import Irori.Helpers.Timer

/-!
# Timers end

A timer that nothing is asked of between its finish time and the moment the helpers wake for it
keeps its state in order and ends every run it starts.
-/

namespace Irori.Proofs
open Irori Helpers

def hears : Bool → Said → Option Bool
  | _, .started => some true
  | true, .paused => some true
  | true, .cancelled | true, .finished => some false
  | false, _ => none

def goesOn (said : List Said) : Option Bool := said.foldlM hears false

lemma goesOn_append {said : List Said} {going : Bool} (h : goesOn said = some going)
    (more : List Said) : goesOn (said ++ more) = more.foldlM hears going := by
  rw [goesOn, List.foldlM_append]
  change (goesOn said).bind _ = _
  rw [h, Option.bind_some]

lemma checkSeconds_iff {what : String} {value : ℚ} :
    checkSeconds what value = .ok () ↔ 0 ≤ value ∧ value ≤ longest := by
  unfold checkSeconds
  split
  · next h => simp [h]
  · next h => simp [h]

lemma until_pos {at_ now : Timestamp} (h : now < at_) : 0 < until_ at_ now := by
  refine lt_max_of_lt_left (div_pos ?_ (by norm_num))
  exact_mod_cast sub_pos.mpr h

lemma until_past {at_ now : Timestamp} (h : at_ ≤ now) : until_ at_ now = 0 := by
  refine max_eq_right (div_nonpos_of_nonpos_of_nonneg ?_ (by norm_num))
  exact_mod_cast sub_nonpos.mpr h

/-- What every state of a timer has: a length there can be, a finish time just while it counts, and
time left just while it is paused. -/
structure SoundTimer (timer : TimerState) : Prop where
  duration : 0 ≤ timer.duration ∧ timer.duration ≤ longest
  finishes : timer.finishesAt.isSome = true ↔ timer.state = .active
  remains : timer.remaining.isSome = true ↔ timer.state = .paused
  left : ∀ seconds : ℚ, timer.remaining = some seconds → 0 < seconds ∧ seconds ≤ longest

lemma SoundTimer.validate {timer : TimerState} (h : SoundTimer timer) : timer.validate = .ok () := by
  obtain ⟨hduration, hfinishes, hremains, hleft⟩ := h
  unfold TimerState.validate
  rw [checkSeconds_iff.mpr hduration]
  cases hr : timer.remaining with
  | none =>
    rw [hr] at hremains
    cases hstate : timer.state <;> simp_all
  | some seconds =>
    rw [hr] at hremains
    have hseconds := hleft seconds hr
    have hremaining : checkSeconds "remaining" seconds = .ok () :=
      checkSeconds_iff.mpr ⟨hseconds.1.le, hseconds.2⟩
    dsimp only
    rw [hremaining]
    cases hstate : timer.state <;> simp_all

lemma sound_idle {duration : ℚ} (h : 0 ≤ duration ∧ duration ≤ longest) :
    SoundTimer (TimerState.idle duration) :=
  ⟨h, by simp [TimerState.idle], by simp [TimerState.idle], by simp [TimerState.idle]⟩

lemma sound_running {timer : TimerState} (h : SoundTimer timer) (now : Timestamp) (seconds : ℚ) :
    SoundTimer (running timer now seconds) :=
  ⟨h.duration, by simp [running], by simp [running], by simp [running]⟩

lemma SoundTimer.starts {timer : TimerState} (h : SoundTimer timer) (hpaused : timer.state = .paused)
    (now : Timestamp) :
    ∃ next : TimerState, apply timer (.start none) now = .ok (next, some .started) := by
  obtain ⟨seconds, hseconds⟩ := Option.isSome_iff_exists.mp (h.remains.mpr hpaused)
  have hfor : startsFor timer none now = seconds := by
    simp [startsFor, Helpers.left, hpaused, hseconds]
  refine ⟨running timer now seconds, ?_⟩
  unfold apply
  simp only [hfor]
  exact if_neg (not_le.mpr (h.left seconds hseconds).1)

/-- Nothing is asked of a timer that has run out, unless it ends it or is refused; and no timer is
left with more than a year to go. -/
def Timely (countdown : Countdown) : TimerMove → Prop
  | .call service now =>
    (due countdown.timer now = true →
      match service with
      | .start told => told.getD countdown.timer.duration ≤ 0
      | .pause | .cancel => False
      | .change more => more ≤ 0
      | .finish | .other _ => True) ∧
    (service = .pause → ∀ at_ : Timestamp, countdown.timer.finishesAt = some at_ →
      until_ at_ now ≤ longest) ∧
    ∀ more seconds : ℚ, service = .change more → countdown.timer.remaining = some seconds →
      seconds + more ≤ longest
  | _ => True

structure Orderly (countdown : Countdown) : Prop where
  sound : SoundTimer countdown.timer
  said : goesOn countdown.said = some (countdown.timer.state != .idle)

/-- What a move comes to: a timer in order, and what is said of it fits what was said before. -/
structure Follows (before : TimerState) (after : TimerState) (said : Option Said) : Prop where
  sound : SoundTimer after
  said : said.toList.foldlM hears (before.state != .idle) = some (after.state != .idle)

lemma Orderly.follows {countdown : Countdown} (h : Orderly countdown) {timer : TimerState}
    {said : Option Said} (hfollows : Follows countdown.timer timer said) :
    Orderly ⟨timer, countdown.said ++ said.toList⟩ :=
  ⟨hfollows.sound, (goesOn_append h.said _).trans hfollows.said⟩

lemma follows_end {timer : TimerState} (hgoing : timer.state ≠ .idle) {word : Said}
    (hword : hears true word = some false) {duration : ℚ}
    (hduration : 0 ≤ duration ∧ duration ≤ longest) :
    Follows timer (TimerState.idle duration) (some word) := by
  have hbefore : (timer.state != .idle) = true := bne_iff_ne.mpr hgoing
  refine ⟨sound_idle hduration, ?_⟩
  rw [hbefore, Option.toList_some, List.foldlM_cons, hword]
  rfl

lemma restored_follows {timer : TimerState} (h : SoundTimer timer) (duration : Length)
    (now : Timestamp) :
    Follows timer (restored (some timer) duration.val true now).1
      (restored (some timer) duration.val true now).2 := by
  have hidle := sound_idle duration.property
  unfold restored
  dsimp only
  by_cases hstate : timer.state = .idle
  · rw [if_neg (by simp [hstate])]
    exact ⟨hidle, by simp [hstate, TimerState.idle]⟩
  · rw [if_pos (by simp [hstate])]
    split
    · exact follows_end hstate rfl duration.property
    · exact ⟨⟨duration.property, h.finishes, h.remains, h.left⟩, by simp⟩

lemma apply_follows {countdown : Countdown} (h : SoundTimer countdown.timer) {service : TimerService}
    {now : Timestamp} (htimely : Timely countdown (.call service now)) {after : TimerState}
    {said : Option Said} (happly : apply countdown.timer service now = .ok (after, said)) :
    Follows countdown.timer after said := by
  obtain ⟨hdue, hpause, hchange⟩ := htimely
  have hidle := sound_idle h.duration
  unfold apply at happly
  cases service with
  | start told =>
    dsimp only at happly
    split at happly
    · cases happly
    · cases happly
      exact ⟨sound_running h _ _, by simp [running, hears]⟩
  | pause =>
    dsimp only at happly
    split at happly
    · next hactive =>
      cases happly
      obtain ⟨at_, hat⟩ := Option.isSome_iff_exists.mp (h.finishes.mpr hactive)
      have hleft : left countdown.timer now = some (until_ at_ now) := by
        simp [left, hactive, hat]
      have hlater : now < at_ := by
        by_contra hpast
        refine hdue ?_
        simp [due, hactive, hat, not_lt.mp hpast]
      refine ⟨⟨h.duration, by simp, by simp [hleft], fun seconds hseconds => ?_⟩, ?_⟩
      · rw [hleft, Option.some.injEq] at hseconds
        subst hseconds
        exact ⟨until_pos hlater, hpause rfl at_ hat⟩
      · rw [hactive]
        rfl
    · cases happly
  | cancel =>
    dsimp only at happly
    split at happly
    · next hstate =>
      cases happly
      exact ⟨hidle, by simp [hstate, TimerState.idle]⟩
    · next hstate =>
      cases happly
      exact follows_end hstate rfl h.duration
  | finish =>
    dsimp only at happly
    split at happly
    · cases happly
    · next hstate =>
      cases happly
      exact follows_end hstate rfl h.duration
  | change more =>
    dsimp only at happly
    split at happly
    · cases happly
    · next seconds hleft =>
      have hstate : countdown.timer.state ≠ .idle := by
        intro hstate
        simp [left, hstate] at hleft
      split at happly
      · cases happly
        exact follows_end hstate rfl h.duration
      · next hpos =>
        split at happly
        · next hpaused =>
          cases happly
          have hremaining : countdown.timer.remaining = some seconds := by
            simpa [left, hpaused] using hleft
          refine ⟨⟨h.duration, h.finishes, by simp [hpaused], fun total htotal => ?_⟩, by simp⟩
          rw [Option.some.injEq] at htotal
          subst htotal
          exact ⟨not_le.mp hpos, hchange more seconds rfl hremaining⟩
        · cases happly
          refine ⟨sound_running h _ _, ?_⟩
          rw [bne_iff_ne.mpr hstate]
          rfl
  | other name => cases happly

lemma step_orderly {countdown : Countdown} (h : Orderly countdown) {move : TimerMove}
    (htimely : Timely countdown move) : Orderly (countdown.step move) := by
  cases move with
  | call service now =>
    unfold Countdown.step
    dsimp only
    split
    · next timer said happly => exact h.follows (apply_follows h.sound htimely happly)
    · exact h
  | wake now =>
    unfold Countdown.step
    dsimp only
    split
    · next hdue =>
      have hactive : countdown.timer.state = .active := by
        simp only [due, Bool.and_eq_true, beq_iff_eq] at hdue
        exact hdue.1
      exact h.follows (follows_end (by simp [hactive]) rfl h.sound.duration)
    · exact h
  | restart duration now => exact h.follows (restored_follows h.sound duration now)

lemma step_finishes {countdown : Countdown} {move : TimerMove}
    (htimely : Timely countdown move) (hdue : due countdown.timer move.now = true) :
    (countdown.step move).said = countdown.said ++ [.finished] ∧
        (countdown.step move).timer.state = .idle ∨
      countdown.step move = countdown ∧ ∃ (service : TimerService) (e : String),
        move = .call service move.now ∧ apply countdown.timer service move.now = .error e := by
  have hboth := hdue
  simp only [due, Bool.and_eq_true, beq_iff_eq, Option.any_eq_true, decide_eq_true_eq] at hboth
  obtain ⟨hactive, at_, hat, hpast⟩ := hboth
  cases move with
  | call service now =>
    dsimp only [TimerMove.now] at hdue hpast ⊢
    obtain ⟨hends, -, -⟩ := htimely
    have hends := hends hdue
    have hnone : left countdown.timer now = some 0 := by
      simp [left, hactive, hat, until_past hpast]
    have hsaid : ∀ timer : TimerState,
        apply countdown.timer service now = .ok (timer, some .finished) → timer.state = .idle →
        (countdown.step (.call service now)).said = countdown.said ++ [.finished] ∧
          (countdown.step (.call service now)).timer.state = .idle := by
      intro timer happly hidle
      rw [Countdown.step, happly]
      exact ⟨rfl, hidle⟩
    have hrefused : ∀ e : String, apply countdown.timer service now = .error e →
        countdown.step (.call service now) = countdown ∧ ∃ (service' : TimerService) (e : String),
          TimerMove.call service now = .call service' now ∧
            apply countdown.timer service' now = .error e := by
      intro e happly
      refine ⟨?_, service, e, rfl, happly⟩
      rw [Countdown.step, happly]
    cases service with
    | start told =>
      refine .inr (hrefused "has no length of its own: say how long to run for" ?_)
      have hfor : startsFor countdown.timer told now = told.getD countdown.timer.duration := by
        simp [startsFor, hactive]
      unfold apply
      simp only [hfor]
      exact if_pos hends
    | finish => exact .inl (hsaid _ (by simp [apply, hactive]; rfl) rfl)
    | change more =>
      refine .inl (hsaid (TimerState.idle countdown.timer.duration) ?_ rfl)
      unfold apply
      simp only [hnone, zero_add]
      exact if_pos hends
    | other name => exact .inr (hrefused _ rfl)
    | pause => exact absurd hends not_false
    | cancel => exact absurd hends not_false
  | wake now =>
    refine .inl ?_
    dsimp only [TimerMove.now] at hdue
    rw [Countdown.step, if_pos hdue]
    exact ⟨rfl, rfl⟩
  | restart duration now =>
    refine .inl ?_
    have hkept : due { countdown.timer with duration := duration.val } now = true := hdue
    have hback : restored (some countdown.timer) duration.val true now =
        (TimerState.idle duration.val, some .finished) := by
      unfold restored
      dsimp only
      rw [if_pos (by simp [hactive]), if_pos hkept]
    rw [Countdown.step, hback]
    exact ⟨rfl, rfl⟩

/-- **A timer never gets stuck or loses its end**, as long as it is asked for nothing once it has run
out, but its end, and never has more than a year to go. -/
theorem counted_orderly {countdown : Countdown} (h : Counted Timely countdown) :
    countdown.timer.validate = .ok () ∧
    (countdown.timer.state = .paused → ∀ now : Timestamp, ∃ next : TimerState,
      apply countdown.timer (.start none) now = .ok (next, some .started)) ∧
    goesOn countdown.said = some (countdown.timer.state != .idle) ∧
    ∀ move : TimerMove, Timely countdown move → due countdown.timer move.now = true →
      (countdown.step move).said = countdown.said ++ [.finished] ∧
          (countdown.step move).timer.state = .idle ∨
        countdown.step move = countdown ∧ ∃ (service : TimerService) (e : String),
          move = .call service move.now ∧ apply countdown.timer service move.now = .error e := by
  have horderly : Orderly countdown := by
    induction h with
    | new duration => exact ⟨sound_idle duration.property, rfl⟩
    | step move _ htimely ih => exact step_orderly ih htimely
  exact ⟨horderly.sound.validate, horderly.sound.starts, horderly.said,
    fun _ htimely hdue => step_finishes htimely hdue⟩

def tenMinutes : Length := ⟨600, by norm_num, by norm_num [longest]⟩

theorem counted_paused :
    goesOn ((((Countdown.new tenMinutes).step (.call (.start none) 0)).step
      (.call .pause 1)).said) = some true := by
  have h := counted_orderly (((Counted.new tenMinutes).step (.call (.start none) 0) ?_).step
    (.call .pause 1) ?_)
  · exact h.2.2.1.trans (by decide)
  · exact ⟨by decide, fun h => (by cases h), fun _ _ h => (by cases h)⟩
  · refine ⟨by decide +kernel, fun _ at_ hat => ?_, fun _ _ h => (by cases h)⟩
    have hfinishes : ((Countdown.new tenMinutes).step (.call (.start none) 0)).timer.finishesAt =
        some 600000000000 := by decide +kernel
    rw [hfinishes, Option.some.injEq] at hat
    subst hat
    decide +kernel

/-- A timer that is paused as it runs out has no time left, and doesn't start again; one that is
started again as it runs out never says that it finished; and one that is given another year while
it's paused has more time left than its own check allows. -/
theorem not_counted_late :
    (∃ countdown : Countdown, Counted (fun _ _ => True) countdown ∧
      countdown = ((Countdown.new tenMinutes).step (.call (.start none) 0)).step
        (.call .pause 600000000000) ∧
      countdown.timer.state = .paused ∧
      apply countdown.timer (.start none) 600000000000 =
        .error "has no length of its own: say how long to run for") ∧
    (∃ countdown : Countdown, Counted (fun _ _ => True) countdown ∧
      countdown = (Countdown.new tenMinutes).step (.call (.start none) 0) ∧
      due countdown.timer 600000000000 = true ∧
      (countdown.step (.call (.start none) 600000000000)).said = [.started, .started] ∧
      (countdown.step (.call (.start none) 600000000000)).timer.state = .active) ∧
    ∃ countdown : Countdown, Counted (fun _ _ => True) countdown ∧
      countdown = (((Countdown.new tenMinutes).step (.call (.start none) 0)).step
        (.call .pause 1)).step (.call (.change longest) 1) ∧
      countdown.timer.validate.toOption = none := by
  refine ⟨⟨_, ((Counted.new tenMinutes).step _ trivial).step _ trivial, rfl, ?_, ?_⟩,
    ⟨_, (Counted.new tenMinutes).step _ trivial, rfl, ?_, ?_, ?_⟩,
    ⟨_, (((Counted.new tenMinutes).step _ trivial).step _ trivial).step _ trivial, rfl, ?_⟩⟩
  all_goals decide +kernel

end Irori.Proofs
