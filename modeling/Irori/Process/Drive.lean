import Irori.Lib.Lines

/-!
# Feeding an extension process

The loop that reads what an extension process writes and hands it on, while service calls, actions,
answers and events go the other way. Each turn of it polls the ways a turn can end in their order,
the reading last, and drops what it made for those that lost. What is read and how it is handled are
parameters: how a line reads as a message, and what comes of it.
-/

namespace Irori.Process

def newline : UInt8 := 10

inductive Why
  | stopped
  | reconfigured
  | disabled
  | ended (reason : String)
  deriving DecidableEq

inductive Phase
  | running
  /-- It has been told to stop, and is given time to. -/
  | stopping (why : Why)
  | finished (why : Why)
  deriving DecidableEq

def Phase.goesOn : Phase → Bool
  | .finished _ => false
  | _ => true

inductive Branch
  | stop
  | exited (reason : String)
  | settingsChanged
  | disabled
  | delivers (delivered : Except String Unit)
  | grace

inductive Event
  /-- This many bytes more of what was written get here. -/
  | arrives (count : Nat)
  | closes
  | other (branch : Branch)
  /-- Nothing else is ready, and reading goes on; what handling a message, if one is read whole,
  comes to. -/
  | reads (handled : Except String Unit)

structure Drive (μ : Type) where
  /-- What is written and not here yet. -/
  coming : List UInt8
  closed : Bool
  /-- What is here and not read. -/
  buffer : List UInt8
  /-- What the reading of a line that goes on has read of it. -/
  line : List UInt8
  taken : List (List UInt8)
  handed : List μ
  phase : Phase

namespace Drive

variable {μ : Type}

def start (script : List (List UInt8)) : Drive μ where
  coming := script.flatten
  closed := false
  buffer := []
  line := []
  taken := []
  handed := []
  phase := .running

variable (parse : List UInt8 → Except String μ)

def take (d : Drive μ) (line rest : List UInt8) (handled : Except String Unit) : Drive μ :=
  let d := { d with buffer := rest, line := [], taken := d.taken ++ [line] }
  match parse line, d.phase with
  | .ok message, .running =>
    { d with
      handed := d.handed ++ [message]
      phase :=
        match handled with
        | .ok () => .running
        | .error reason => .finished (.ended reason) }
  | .ok message, _ => { d with handed := d.handed ++ [message] }
  | .error why, .running => { d with phase := .finished (.ended ("invalid message: " ++ why)) }
  | .error _, _ => d

def read (d : Drive μ) (handled : Except String Unit) : Drive μ :=
  match Lines.first newline d.buffer with
  | some (text, rest) => d.take parse (d.line ++ text) rest handled
  | none =>
    if d.closed && d.coming.isEmpty then
      if d.line ++ d.buffer = [] then
        match d.phase with
        | .running => { d with phase := .finished (.ended "the host closed the connection") }
        | _ => d
      else d.take parse (d.line ++ d.buffer) [] handled
    else { d with buffer := [], line := d.line ++ d.buffer }

/-- What a turn comes to that doesn't end by reading. What was read of a line is dropped. -/
def leave (d : Drive μ) (branch : Branch) : Drive μ :=
  { d with
    line := []
    phase :=
      match d.phase, branch with
      | .running, .stop => .stopping .stopped
      | .running, .exited reason => .finished (.ended reason)
      | .running, .settingsChanged => .stopping .reconfigured
      | .running, .disabled => .stopping .disabled
      | .running, .delivers (.ok ()) => .running
      | .running, .delivers (.error reason) => .finished (.ended reason)
      | .running, .grace => .running
      | .stopping why, .exited _ => .finished why
      | .stopping why, .grace => .finished why
      | phase, _ => phase }

/-- Whether a turn can end so: only being gone or out of time ends the wait for it to stop. -/
def canLeave (d : Drive μ) : Branch → Bool
  | .exited _ => d.phase.goesOn
  | .grace =>
    match d.phase with
    | .stopping _ => true
    | _ => false
  | _ => d.phase = .running

def after (d : Drive μ) : Event → Drive μ
  | .arrives count =>
    { d with coming := d.coming.drop count, buffer := d.buffer ++ d.coming.take count }
  | .closes => { d with closed := true }
  | .other branch => if d.canLeave branch then d.leave branch else d
  | .reads handled => if d.phase.goesOn then d.read parse handled else d

end Drive

end Irori.Process
