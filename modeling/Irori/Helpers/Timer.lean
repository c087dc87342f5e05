import Irori.Types

/-!
# Timers

A timer counts down from a length of time, and its event says each time it's started, paused,
cancelled or finished. Lengths are seconds, as exact numbers.
-/

namespace Irori.Helpers

def longest : ℚ := 366 * 24 * 3600

inductive TimerStatus
  | idle
  | active
  | paused
  deriving DecidableEq

structure TimerState where
  state : TimerStatus
  duration : ℚ
  finishesAt : Option Timestamp
  /-- Seconds left. While it's paused, and only then. -/
  remaining : Option ℚ
  deriving DecidableEq

def checkSeconds (what : String) (value : ℚ) : Except String Unit :=
  if 0 ≤ value ∧ value ≤ longest then .ok ()
  else .error ("a timer's " ++ what ++ " is seconds, from nought to a year, not " ++ toString value)

namespace TimerState

def idle (duration : ℚ) : TimerState := ⟨.idle, duration, none, none⟩

def validate (timer : TimerState) : Except String Unit :=
  match checkSeconds "duration" timer.duration with
  | .error e => .error e
  | .ok () =>
    match (match timer.remaining with
      | some remaining => checkSeconds "remaining" remaining
      | none => .ok ()) with
    | .error e => .error e
    | .ok () =>
      let finishes := timer.finishesAt.isSome
      let remains := timer.remaining.isSome
      match timer.state with
      | .active =>
        if !finishes || remains then
          .error "an active timer says when it finishes (`finishes_at`), and nothing else"
        else .ok ()
      | .paused =>
        if !remains || finishes then
          .error "a paused timer says how long is left (`remaining`), and nothing else"
        else .ok ()
      | .idle =>
        if finishes || remains then
          .error "an idle timer isn't counting: it has no `finishes_at` and no `remaining`"
        else .ok ()

end TimerState

inductive TimerService
  | start (duration : Option ℚ)
  | pause
  | cancel
  | finish
  | change (more : ℚ)
  | other (name : String)
  deriving DecidableEq

inductive Said
  | started
  | paused
  | cancelled
  | finished
  deriving DecidableEq

def Length : Type := { seconds : ℚ // 0 ≤ seconds ∧ seconds ≤ longest }

def plus (at_ : Timestamp) (seconds : ℚ) : Timestamp :=
  let moved := at_ + round (seconds * 1000000000)
  if Timestamp.least ≤ moved ∧ moved ≤ Timestamp.greatest then moved else at_

/-- Seconds from `now` until `at_`, nought once it's past. -/
def until_ (at_ now : Timestamp) : ℚ := max ((at_ - now : Int) / 1000000000) 0

def due (timer : TimerState) (now : Timestamp) : Bool :=
  timer.state == .active && timer.finishesAt.any (· ≤ now)

/-- The timer as it comes back when the helpers start, and what its event says about what happened
meanwhile. -/
def restored (kept : Option TimerState) (duration : ℚ) (restore : Bool) (now : Timestamp) :
    TimerState × Option Said :=
  match kept with
  | some kept =>
    if restore && kept.state != .idle then
      let kept := { kept with duration }
      if due kept now then (.idle duration, some .finished) else (kept, none)
    else (.idle duration, none)
  | none => (.idle duration, none)

def running (timer : TimerState) (now : Timestamp) (seconds : ℚ) : TimerState :=
  { state := .active
    duration := timer.duration
    finishesAt := some (plus now seconds)
    remaining := none }

def left (timer : TimerState) (now : Timestamp) : Option ℚ :=
  match timer.state with
  | .active => timer.finishesAt.map fun at_ => until_ at_ now
  | .paused => timer.remaining
  | .idle => none

/-- How long a timer that is started runs: told how long, that; paused, what was left; otherwise its
own length. -/
def startsFor (timer : TimerState) (told : Option ℚ) (now : Timestamp) : ℚ :=
  (told.or (if timer.state = .paused then left timer now else none)).getD timer.duration

/-- What a call does to a timer: the state it's in afterwards and what its event says, or why it
can't. -/
def apply (timer : TimerState) (service : TimerService) (now : Timestamp) :
    Except String (TimerState × Option Said) :=
  let idle := TimerState.idle timer.duration
  match service with
  | .start told =>
    let seconds := startsFor timer told now
    if seconds ≤ 0 then .error "has no length of its own: say how long to run for"
    else .ok (running timer now seconds, some .started)
  | .pause =>
    match timer.state with
    | .active =>
      .ok ({ state := .paused
             duration := timer.duration
             finishesAt := none
             remaining := left timer now }, some .paused)
    | _ => .error "isn't running, so there's nothing to pause"
  | .cancel =>
    match timer.state with
    | .idle => .ok (idle, none)
    | _ => .ok (idle, some .cancelled)
  | .finish =>
    match timer.state with
    | .idle => .error "isn't running, so there's nothing to finish"
    | _ => .ok (idle, some .finished)
  | .change more =>
    match left timer now with
    | none => .error "isn't running, so there's no time left to change"
    | some left =>
      let left := left + more
      -- Taken past its end: it's done.
      if left ≤ 0 then .ok (idle, some .finished)
      else
        match timer.state with
        | .paused => .ok ({ timer with remaining := some left }, none)
        | _ => .ok (running timer now left, none)
  | .other name => .error ("can't do `" ++ name ++ "`")

inductive TimerMove
  | call (service : TimerService) (now : Timestamp)
  | wake (now : Timestamp)
  /-- The helpers stop and start again, with `restore` on. -/
  | restart (duration : Length) (now : Timestamp)

def TimerMove.now : TimerMove → Timestamp
  | .call _ now | .wake now | .restart _ now => now

structure Countdown where
  timer : TimerState
  said : List Said
  deriving DecidableEq

namespace Countdown

def new (duration : Length) : Countdown := ⟨(restored none duration.val true 0).1, []⟩

def step (countdown : Countdown) : TimerMove → Countdown
  | .call service now =>
    match apply countdown.timer service now with
    | .ok (timer, said) => ⟨timer, countdown.said ++ said.toList⟩
    | .error _ => countdown
  | .wake now =>
    if due countdown.timer now then
      ⟨.idle countdown.timer.duration, countdown.said ++ [.finished]⟩
    else countdown
  | .restart duration now =>
    let (timer, said) := restored (some countdown.timer) duration.val true now
    ⟨timer, countdown.said ++ said.toList⟩

end Countdown

/-- A timer after moves each of which a condition on the timer before it allowed. -/
inductive Counted (Allowed : Countdown → TimerMove → Prop) : Countdown → Prop
  | new (duration : Length) : Counted Allowed (.new duration)
  | step {countdown : Countdown} (move : TimerMove) (before : Counted Allowed countdown)
      (allowed : Allowed countdown move) : Counted Allowed (countdown.step move)

end Irori.Helpers
