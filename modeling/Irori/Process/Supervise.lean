import Irori.Process.Drive

/-!
# Keeping extensions running

The loops that start an extension, feed it until it ends, and start it again: after a wait where it
failed, at once where its settings changed or it was turned on. A built-in one and one that is a
process each have their own. Between two looks of the loop anything around it can change. What is
shown of how it goes is left out. Times are nanoseconds.
-/

namespace Irori.Process

/-- The waits, as they are checked before anything is run. -/
structure Timing where
  firstRetry : Nat
  maxRetry : Nat
  healthyAfter : Nat
  stopGrace : Nat
  first_pos : 0 < firstRetry
  first_le : firstRetry ≤ maxRetry

inductive Runner
  /-- `supervise`, of an extension that is built in. -/
  | builtIn
  | package
  deriving DecidableEq

inductive Stage (σ : Type)
  | off
  | needsSetup (startedWith : σ)
  /-- It can't be started with these settings, or at all. -/
  | invalid (startedWith : σ)
  | running (startedWith : σ) (since : Nat)
  | stopping (since : Nat) (why : Why) (grace : Nat)
  | waiting (startedWith : σ) (until_ : Nat)
  /-- The process hung up before it was greeted. -/
  | greeting (until_ : Nat)
  | done

inductive Begun
  | started
  | refused
  | crashed
  deriving DecidableEq

/-- A start: with what, what it was meanwhile, and the wait that ran out before it, if it was
waited. Then how many crashes were counted by then, and whether a change was still to be seen. -/
structure Start (σ : Type) where
  startedWith : σ
  settings : σ
  disabled : Bool
  stop : Bool
  waited : Option Nat
  crashes : Nat
  changed : Bool

/-- An extension's loop and what it looks at. `μ` is what an extension says. The last fields only
note what happened: what was said and not applied when it ended on its own, the starts, how often it
crashed since its settings changed, it was turned on or it ran long enough, and whether its settings
changed or it was turned on since its last start. -/
structure Supervised (σ μ : Type) where
  now : Nat
  settings : σ
  disabled : Bool
  stop : Bool
  stage : Stage σ
  delay : Nat
  /-- What it has said in full and isn't applied. -/
  unread : List μ
  applied : List μ
  lost : List μ
  starts : List (Start σ)
  crashes : Nat
  changed : Bool

structure Look where
  begun : Begun
  ended : Bool
  serves : Nat

namespace Supervised

variable {σ μ : Type}

def start (timing : Timing) (settings : σ) (disabled : Bool) : Supervised σ μ where
  now := 0
  settings := settings
  disabled := disabled
  stop := false
  stage := .off
  delay := timing.firstRetry
  unread := []
  applied := []
  lost := []
  starts := []
  crashes := 0
  changed := false

section

variable [DecidableEq σ] (runner : Runner) (timing : Timing) (missing : σ → Bool)
  (d : Supervised σ μ)

def crash (stage : Nat → Stage σ) : Supervised σ μ :=
  { d with stage := stage (d.now + d.delay), crashes := d.crashes + 1 }

/-- The top of the loop: it is started, unless it is turned off, Irori is stopping or a setting is
missing. -/
def again (waited : Option Nat) (begun : Begun) : Supervised σ μ :=
  if d.disabled then { d with stage := .off }
  else if d.stop then { d with stage := .done }
  else if missing d.settings then { d with stage := .needsSetup d.settings }
  else
    let started : Supervised σ μ := { d with
      unread := []
      applied := []
      starts := d.starts ++
        [⟨d.settings, d.settings, d.disabled, d.stop, waited, d.crashes, d.changed⟩]
      changed := false }
    match begun with
    | .started => { started with stage := .running d.settings d.now }
    | .refused => { started with stage := .invalid d.settings }
    | .crashed =>
      match runner with
      | .builtIn => started.crash (.waiting d.settings)
      | .package => started.crash .greeting

def doubled (delay : Nat) : Nat := min (delay * 2) timing.maxRetry

def serve (count : Nat) : Supervised σ μ :=
  { d with applied := d.applied ++ d.unread.take count, unread := d.unread.drop count }

/-- Nothing it said is read any more. A built-in's queues are emptied first. -/
def close : Supervised σ μ :=
  match runner with
  | .builtIn => { d with applied := d.applied ++ d.unread, unread := [] }
  | .package => { d with unread := [] }

def ends (startedWith : σ) (since : Nat) : Supervised σ μ :=
  let healthy := timing.healthyAfter ≤ d.now - since
  let closed : Supervised σ μ := { d.close runner with
    lost := d.lost ++
      match runner with
      | .builtIn => []
      | .package => d.unread
    crashes := if healthy then 0 else d.crashes }
  match runner with
  | .builtIn =>
    let rested := if healthy then { closed with delay := timing.firstRetry } else closed
    rested.crash (.waiting startedWith)
  | .package => closed.crash (.waiting startedWith)

/-- It ended after it was told to stop. -/
def leaves (since : Nat) (why : Why) (begun : Begun) : Supervised σ μ :=
  let closed : Supervised σ μ := { d.close runner with
    crashes := if timing.healthyAfter ≤ d.now - since then 0 else d.crashes }
  match why with
  | .stopped => { closed with stage := .done }
  | .reconfigured => { closed with delay := timing.firstRetry }.again runner missing none begun
  | _ => closed.again runner missing none begun

/-- The loop looks around, and goes on where something it waits for is there. -/
def look (look : Look) : Supervised σ μ :=
  match d.stage with
  | .off =>
    if d.stop then { d with stage := .done }
    else if d.disabled then d
    else { d with delay := timing.firstRetry }.again runner missing none look.begun
  | .needsSetup startedWith =>
    if d.stop then { d with stage := .done }
    else if d.settings ≠ startedWith then
      { d with delay := timing.firstRetry }.again runner missing none look.begun
    else if d.disabled then d.again runner missing none look.begun
    else d
  | .invalid startedWith =>
    if d.stop then { d with stage := .done }
    else if d.settings ≠ startedWith ∨ d.disabled then d.again runner missing none look.begun
    else d
  | .running startedWith since =>
    if d.stop then { d with stage := .stopping since .stopped (d.now + timing.stopGrace) }
    else if look.ended then d.ends runner timing startedWith since
    else if d.settings ≠ startedWith then
      { d with stage := .stopping since .reconfigured (d.now + timing.stopGrace) }
    else if d.disabled then
      { d with stage := .stopping since .disabled (d.now + timing.stopGrace) }
    else d.serve look.serves
  | .stopping since why grace =>
    if look.ended ∨ grace ≤ d.now then d.leaves runner timing missing since why look.begun
    else d.serve look.serves
  | .waiting startedWith until_ =>
    if d.stop then { d with stage := .done }
    else if d.settings ≠ startedWith then
      { d with delay := timing.firstRetry }.again runner missing none look.begun
    else if d.disabled then d.again runner missing none look.begun
    else if until_ ≤ d.now then
      { d with delay := doubled timing d.delay }.again runner missing (some d.delay) look.begun
    else d
  -- Only stopping is watched for here.
  | .greeting until_ =>
    if d.stop then { d with stage := .done }
    else if until_ ≤ d.now then
      { d with delay := doubled timing d.delay }.again runner missing (some d.delay) look.begun
    else d
  | .done => d

end

inductive Happening (σ μ : Type)
  | settings (settings : σ)
  | turnedOff
  | turnedOn
  | stopped
  | passes (time : Nat)
  | tells (message : μ)
  | looks (look : Look)

def speaks (d : Supervised σ μ) : Bool :=
  match d.stage with
  | .running .. => true
  | .stopping .. => true
  | _ => false

def runs (d : Supervised σ μ) : Bool :=
  match d.stage with
  | .running .. => true
  | _ => false

def after [DecidableEq σ] (runner : Runner) (timing : Timing) (missing : σ → Bool)
    (d : Supervised σ μ) : Happening σ μ → Supervised σ μ
  | .settings settings =>
    if settings = d.settings then d
    else { d with settings := settings, crashes := 0, changed := true }
  | .turnedOff => { d with disabled := true }
  | .turnedOn =>
    if d.disabled then { d with disabled := false, crashes := 0, changed := d.changed || !d.runs }
    else d
  | .stopped => { d with stop := true }
  | .passes time => { d with now := d.now + time }
  | .tells message => if d.speaks then { d with unread := d.unread ++ [message] } else d
  | .looks look => d.look runner timing missing look

end Supervised

end Irori.Process
