import Irori.Home.Types

/-!
# Reports on their way to the core

The queue a protocol's state reports wait in until the core, or the program that speaks for it,
reads them: for a value only the newest, for an occurrence each one in turn.
-/

namespace Irori.Core

variable {κ σ : Type}

/-- Whether it reports something happening rather than a value: each one counts. -/
def StateReport.isOccurrence (kinds : Kinds κ σ) (report : StateReport σ) : Bool :=
  report.state.any fun state => (state.kind kinds).countsEveryReport

end Irori.Core

namespace Irori.Protocol
open Irori.Core

variable {κ σ : Type}

def maxPendingEntities : Nat := 4096

/-- How many of one entity's occurrences can wait. Past this the oldest is dropped, and counted. -/
def maxPendingOccurrences : Nat := 64

structure ReportQueue (σ : Type) where
  pending : Map UniqueId (List (StateReport σ))
  dropped : Nat

namespace ReportQueue

def empty : ReportQueue σ := ⟨∅, 0⟩

variable (queue : ReportQueue σ)

def waiting (id : UniqueId) : List (StateReport σ) := (queue.pending[id]?).getD []

def isFullFor (id : UniqueId) : Bool :=
  maxPendingEntities ≤ queue.pending.size && !queue.pending.contains id

def push (kinds : Kinds κ σ) (report : StateReport σ) : ReportQueue σ :=
  if queue.isFullFor report.uniqueId then { queue with dropped := queue.dropped + 1 }
  else
    let waiting := queue.waiting report.uniqueId
    if report.isOccurrence kinds then
      if maxPendingOccurrences ≤ waiting.length then
        { pending := queue.pending.insert report.uniqueId (waiting.tail ++ [report])
          dropped := queue.dropped + 1 }
      else
        { queue with pending := queue.pending.insert report.uniqueId (waiting ++ [report]) }
    else { queue with pending := queue.pending.insert report.uniqueId [report] }

def take : List (StateReport σ) × ReportQueue σ :=
  ((Map.vals queue.pending).flatten, { queue with pending := ∅ })

def pop : Option (StateReport σ) × ReportQueue σ :=
  match queue.pending.toList.head? with
  | none => (none, queue)
  | some (id, waiting) =>
    (waiting.head?,
      { queue with
        pending :=
          if waiting.tail.isEmpty then queue.pending.erase id
          else queue.pending.insert id waiting.tail })

/-- Puts a popped report back. A value goes back only if no newer one arrived meanwhile; an
occurrence always does, ahead of any that came after it. -/
def restoreIfAbsent (kinds : Kinds κ σ) (report : StateReport σ) : ReportQueue σ :=
  if report.isOccurrence kinds then
    { queue with
      pending := queue.pending.insert report.uniqueId (report :: queue.waiting report.uniqueId) }
  else
    match queue.pending[report.uniqueId]? with
    | some _ => queue
    | none => { queue with pending := queue.pending.insert report.uniqueId [report] }

def takeDropped : Nat × ReportQueue σ := (queue.dropped, { queue with dropped := 0 })

end ReportQueue

inductive Move (σ : Type)
  | push (report : StateReport σ)
  | take
  | pop
  | restore
  | takeDropped

/-- A queue, with the report that was just popped and may be put back, and everything that went in
and came out. -/
structure Channel (σ : Type) where
  queue : ReportQueue σ
  popped : Option (StateReport σ)
  pushed : List (StateReport σ)
  handed : List (StateReport σ)
  counted : List (StateReport σ)
  told : Nat

namespace Channel

def new : Channel σ := ⟨.empty, none, [], [], [], 0⟩

def counts (kinds : Kinds κ σ) (queue : ReportQueue σ) (report : StateReport σ) :
    List (StateReport σ) :=
  if queue.isFullFor report.uniqueId then [report]
  else if report.isOccurrence kinds &&
      decide (maxPendingOccurrences ≤ (queue.waiting report.uniqueId).length) then
    (queue.waiting report.uniqueId).take 1
  else []

/-- A report that was popped is handed over once it isn't the last any more. -/
def step (kinds : Kinds κ σ) (channel : Channel σ) : Move σ → Channel σ
  | .push report =>
    { channel with
      queue := channel.queue.push kinds report
      pushed := channel.pushed ++ [report]
      counted := channel.counted ++ counts kinds channel.queue report }
  | .take =>
    { channel with
      queue := channel.queue.take.2
      popped := none
      handed := channel.handed ++ channel.popped.toList ++ channel.queue.take.1 }
  | .pop =>
    { channel with
      queue := channel.queue.pop.2
      popped := channel.queue.pop.1
      handed := channel.handed ++ channel.popped.toList }
  | .restore =>
    match channel.popped with
    | none => channel
    | some report =>
      { channel with queue := channel.queue.restoreIfAbsent kinds report, popped := none }
  | .takeDropped =>
    { channel with
      queue := channel.queue.takeDropped.2
      told := channel.told + channel.queue.takeDropped.1 }

end Channel

/-- A channel after moves each of which a condition on the channel before it allowed. -/
inductive Through (kinds : Kinds κ σ) (Allowed : Channel σ → Move σ → Prop) : Channel σ → Prop
  | new : Through kinds Allowed Channel.new
  | step {channel : Channel σ} (move : Move σ) (before : Through kinds Allowed channel)
      (allowed : Allowed channel move) : Through kinds Allowed (channel.step kinds move)

end Irori.Protocol
