import Irori.Process.Serve

/-!
# A host and a process

The loop that feeds an extension process, the process, and the two pipes between them. The pipes and
the queues hold lines, up to their sizes. What the host takes up is delivered before anything else
is polled; it reads what the process wrote when it has nothing else to take up.
-/

namespace Irori.Process

structure RingSizes where
  serve : Sizes
  calls : Nat
  actions : Nat
  stdin : Nat
  stdout : Nat

inductive Host
  | selecting
  /-- It waits until what it delivers is in the pipe. It may have told the process to stop. -/
  | delivering (line : ToExt) (isStopping : Bool)
  | stopping
  | over

structure Ring where
  host : Host
  calls : List Request
  actions : List Request
  engine : List ToExt
  nextCall : Nat
  nextAction : Nat
  stdin : List ToExt
  serve : Serve
  stdout : List FromExt

inductive Turn
  | coreCalls (request : Request)
  | coreActs (request : Request)
  | engineHas (line : ToExt)
  | hostTakes
  | hostStops
  /-- A line is read, and the reply it gets. -/
  | hostReads (reply : Option ToExt)
  | hostDelivers
  | graceEnds
  | readerReads
  | writerWrites
  | inner (step : Step)

/-- A step of the process that concerns no pipe. -/
def Step.isInner : Step → Bool
  | .line _ => false
  | .writerWrites => false
  | .writerFails => false
  | _ => true

namespace Ring

def start : Ring where
  host := .selecting
  calls := []
  actions := []
  engine := []
  nextCall := 0
  nextAction := 0
  stdin := []
  serve := .start
  stdout := []

def next (r : Ring) : Option (ToExt × Ring) :=
  match r.calls, r.actions, r.engine with
  | call :: calls, _, _ =>
    some (.request r.nextCall call, { r with calls, nextCall := r.nextCall + 1 })
  | [], action :: actions, _ =>
    some (.request r.nextAction action, { r with actions, nextAction := r.nextAction + 1 })
  | [], [], line :: engine => some (line, { r with engine })
  | [], [], [] => none

def read (r : Ring) (reply : Option ToExt) (isStopping : Bool) : Ring :=
  match r.stdout with
  | _ :: stdout =>
    match reply with
    | some line => { r with stdout, host := .delivering line isStopping }
    | none => { r with stdout }
  | [] => r

variable (sizes : RingSizes)

def after (r : Ring) : Turn → Ring
  | .coreCalls request =>
    if r.calls.length < sizes.calls then { r with calls := r.calls ++ [request] } else r
  | .coreActs request =>
    if r.actions.length < sizes.actions then { r with actions := r.actions ++ [request] } else r
  | .engineHas line => { r with engine := r.engine ++ [line] }
  | .hostTakes =>
    match r.host, r.next with
    | .selecting, some (line, r) => { r with host := .delivering line false }
    | _, _ => r
  | .hostStops =>
    match r.host with
    | .selecting => { r with host := .delivering .stop true }
    | _ => r
  | .hostReads reply =>
    match r.host, r.next with
    | .selecting, none => r.read reply false
    | .stopping, _ => r.read reply true
    | _, _ => r
  | .hostDelivers =>
    match r.host with
    | .delivering line isStopping =>
      if r.stdin.length < sizes.stdin then
        { r with
          stdin := r.stdin ++ [line]
          host := if isStopping then .stopping else .selecting }
      else r
    | _ => r
  | .graceEnds =>
    match r.host with
    | .stopping => { r with host := .over }
    | _ => r
  | .readerReads =>
    if r.serve.isReading then
      match r.stdin, r.host with
      | line :: stdin, _ =>
        { r with stdin, serve := r.serve.after sizes.serve (.line (some line)) }
      | [], .over => { r with serve := r.serve.after sizes.serve (.line none) }
      | [], _ => r
    else r
  | .writerWrites =>
    match r.serve.writer, r.host with
    | .writing _, .over => { r with serve := r.serve.after sizes.serve .writerFails }
    | .writing line, _ =>
      if r.stdout.length < sizes.stdout then
        { r with
          stdout := r.stdout ++ [line], serve := r.serve.after sizes.serve .writerWrites }
      else r
    | _, _ => r
  | .inner step =>
    if step.isInner then { r with serve := r.serve.after sizes.serve step } else r

end Ring

end Irori.Process
