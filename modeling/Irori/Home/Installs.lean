import Irori.Home.Types

/-!
# Installing updates one at a time per protocol

Who is installing, who waits, and when the one installing has gone quiet for too long. The core does
the sending. How it shows what waits is left out.
-/

namespace Irori.Core

abbrev Instant := ℕ

def mustStartWithin : Instant := 120 * 10 ^ 9

/-- How long an install can go without a word before it's given up on. -/
def quietForTooLong : Instant := 90 * 60 * 10 ^ 9

namespace Installs

structure Running where
  entityId : EntityId
  /-- The version it had when it was asked. -/
  installedBefore : Option String
  started : Bool
  /-- When it was sent, or last said something while installing. -/
  heardAt : Instant
  deriving DecidableEq

structure Line where
  running : Option Running
  waiting : List (EntityId × Context)
  deriving DecidableEq

inductive Asked
  /-- Nothing else is installing on this protocol: send it. -/
  | go
  /-- It waits, or was already installing or waiting. -/
  | waits
  deriving DecidableEq

inductive Watch
  | fine
  | overdue (why : String)
  | over
  deriving DecidableEq

end Installs

open Installs

abbrev Installs := Map ProtocolId Line

namespace Installs

variable (installs : Installs)

def line (protocol : ProtocolId) : Line := (installs[protocol]?).getD ⟨none, []⟩

def ask (protocol : ProtocolId) (entityId : EntityId) (context : Context)
    (installed : Option String) (now : Instant) : Installs × Asked :=
  let line := installs.line protocol
  let running := line.running.map (·.entityId)
  if running = some entityId ∨ (line.waiting.any fun entry => entry.1 = entityId) = true then
    (installs.insert protocol line, .waits)
  else if running.isSome then
    (installs.insert protocol { line with waiting := line.waiting ++ [(entityId, context)] }, .waits)
  else
    (installs.insert protocol { line with running := some ⟨entityId, installed, false, now⟩ }, .go)

/-- An update entity's state changed. Answers its protocol when that ends the install running there.
The lines are gone through in no fixed order. -/
def heard (order : List ProtocolId) (entityId : EntityId) (state : Option UpdateState)
    (now : Instant) : Installs × Option ProtocolId :=
  let found := order.findSome? fun protocol =>
    ((installs.line protocol).running.filter (·.entityId = entityId)).map fun running =>
      (protocol, running)
  match found, state with
  | some (protocol, running), some state =>
    if state.inProgress then
      (installs.insert protocol { installs.line protocol with
        running := some { running with started := true, heardAt := now } }, none)
    else
      let movedOn := state.installedVersion.isSome &&
        decide (state.installedVersion ≠ running.installedBefore)
      let failed := state.lastError.isSome
      (installs, if running.started || movedOn || failed then some protocol else none)
  | _, _ => (installs, none)

/-- An entity's install is over. Answers the next to send, which is now the one running. -/
def next (protocol : ProtocolId) (entityId : EntityId) (installed : EntityId → Option String)
    (now : Instant) : Installs × Option (EntityId × Context) :=
  match installs[protocol]? with
  | none => (installs, none)
  | some line =>
    if line.running.map (·.entityId) ≠ some entityId then (installs, none)
    else
      match line.waiting with
      | [] => (installs.insert protocol ⟨none, []⟩, none)
      | (entityId, context) :: waiting =>
        (installs.insert protocol ⟨some ⟨entityId, installed entityId, false, now⟩, waiting⟩,
          some (entityId, context))

def watch (protocol : ProtocolId) (entityId : EntityId) (now : Instant) : Watch :=
  match (installs.line protocol).running.filter (·.entityId = entityId) with
  | none => .over
  | some running =>
    let quiet := now - running.heardAt
    if running.started = false ∧ mustStartWithin ≤ quiet then
      .overdue "It was asked to install the update and never started."
    else if running.started = true ∧ quietForTooLong ≤ quiet then
      .overdue "The install stopped reporting and was given up on."
    else .fine

/-- Takes an entity out of the line it waits in. Answers whether it was waiting. -/
def leave (entityId : EntityId) : Installs × Bool :=
  (installs.map fun _ line =>
      { line with waiting := line.waiting.filter fun entry => entry.1 ≠ entityId },
    installs.toList.any fun entry => entry.2.waiting.any fun entry => entry.1 = entityId)

def forget (protocol : ProtocolId) : Installs × Bool :=
  (installs.erase protocol, installs.contains protocol)

inductive Op
  | ask (protocol : ProtocolId) (entityId : EntityId) (context : Context)
    (installed : Option String) (now : Instant)
  | heard (order : List ProtocolId) (entityId : EntityId) (state : Option UpdateState)
    (now : Instant)
  | next (protocol : ProtocolId) (entityId : EntityId) (installed : EntityId → Option String)
    (now : Instant)
  | watch (protocol : ProtocolId) (entityId : EntityId) (now : Instant)
  | leave (entityId : EntityId)
  | forget (protocol : ProtocolId)

def step : Op → Installs
  | .ask protocol entityId context installed now =>
    (installs.ask protocol entityId context installed now).1
  | .heard order entityId state now => (installs.heard order entityId state now).1
  | .next protocol entityId installed now => (installs.next protocol entityId installed now).1
  | .watch .. => installs
  | .leave entityId => (installs.leave entityId).1
  | .forget protocol => (installs.forget protocol).1

def after (ops : List Op) (n : ℕ) : Installs := (ops.take n).foldl step ∅

end Installs

end Irori.Core
