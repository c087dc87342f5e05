import Irori.Types
import Irori.Lib.Map

/-!
# A protocol run as a process

The threads and tasks of a protocol process, and the bounded queues between them: the thread that
reads the host's lines, the run loop of the protocol, a task of the runtime for every request it was
handed, the pump that encodes its operations and reports, and the thread that writes what is queued
to its output. Messages are whole; what calls, operations and reports say is theirs.
-/

namespace Irori.Process

inductive Kind
  | service
  | action
  | picture
  deriving DecidableEq

structure Ask where
  kind : Kind
  id : Nat
  deriving DecidableEq

inductive Request
  | serviceCall (call : Json)
  | actionCall (actionId : String) (stop : Bool) (way : Option String)
      (fields : List (String × String))
  | unpairDevice (uniqueId : String) (force : Bool)
  | cameraPicture (uniqueId : String)

def Request.kind : Request → Kind
  | .serviceCall _ => .service
  | .actionCall .. => .action
  | .unpairDevice .. => .action
  | .cameraPicture _ => .picture

inductive Outcome
  | done (picture : Option Json)
  | failed (code : Option String) (message : String)

/-- The answer to a request the protocol has no room for. -/
def Kind.busy : Kind → Outcome
  | .service => .failed (some "unavailable") "the extension is busy and can't take this call yet"
  | .action => .failed none "the extension is busy and can't take this action yet"
  | .picture => .failed none "the extension is busy and can't take this yet"

def Kind.dropped : Kind → Outcome
  | .service => .failed (some "failed") "the protocol dropped the call"
  | .action => .failed none "the protocol dropped the action call"
  | .picture => .failed none "the protocol dropped the request"

inductive ToExt
  | reply (id : Nat) (error : Option String)
  | loaded (id : Nat) (value : Option Json) (error : Option String)
  | request (id : Nat) (request : Request)
  | stop
  | other

inductive Op
  /-- A description, a removal, an availability or a store: it waits for a reply. -/
  | replied (op : Json)
  | load (key : String)
  | told (op : Json)

def Op.waits : Op → Bool
  | .told _ => false
  | _ => true

inductive FromExt
  | result (ask : Ask) (outcome : Outcome)
  | op (id : Nat) (op : Op)
  | report (report : Json)

structure Sizes where
  out : Nat
  calls : Nat
  actions : Nat
  ops : Nat

def stdoutQueue : Nat := 64

def opsCapacity : Nat := 256

def callsCapacity : Nat := 64

def Sizes.own : Sizes := ⟨stdoutQueue, callsCapacity, callsCapacity, opsCapacity⟩

inductive Reader
  | reading
  /-- It waits for room to put a result. -/
  | putting (ask : Ask) (outcome : Outcome)
  | stopped

inductive Pump
  | selecting
  | offering
  | full
  | sending (line : FromExt)
  | gone

def Pump.isGone : Pump → Bool
  | .gone => true
  | _ => false

inductive Writer
  | idle
  | writing (line : FromExt)
  | gone

def Writer.isGone : Writer → Bool
  | .gone => true
  | _ => false

/-- A task that waits for the answer to a request, and the answer once it is there. -/
structure Task where
  ask : Ask
  outcome : Option Outcome

/-- A request of the protocol's that was ended by a line of the host's. -/
structure Ended where
  id : Nat
  token : Nat
  answer : Except String (Option Json)

structure Serve where
  reader : Reader
  listening : Bool
  calls : List (Ask × Request)
  actions : List (Ask × Request)
  held : List Ask
  tasks : List Task
  /-- The operations that are queued, each told apart by a token. -/
  ops : List (Nat × Op)
  tokens : Nat
  reports : List Json
  pump : Pump
  nextId : Nat
  replies : Map Nat Nat
  loads : Map Nat Nat
  out : List FromExt
  writer : Writer
  asked : List Ask
  put : List Ask
  sent : List (Nat × Nat)
  ended : List Ended
  wanted : List Nat

def Serve.start : Serve where
  reader := .reading
  listening := true
  calls := []
  actions := []
  held := []
  tasks := []
  ops := []
  tokens := 0
  reports := []
  pump := .selecting
  nextId := 0
  replies := ∅
  loads := ∅
  out := []
  writer := .idle
  asked := []
  put := []
  sent := []
  ended := []
  wanted := []

def Serve.putting (s : Serve) : List Ask :=
  match s.reader with
  | .putting ask _ => [ask]
  | _ => []

def Serve.isStopped (s : Serve) : Bool :=
  match s.reader with
  | .stopped => true
  | _ => false

def Serve.isReading (s : Serve) : Bool :=
  match s.reader with
  | .reading => true
  | _ => false

namespace Serve

variable (sizes : Sizes)

def hasRoom (s : Serve) : Bool := s.out.length < sizes.out

def enqueue (s : Serve) (ask : Ask) (outcome : Outcome) : Serve :=
  { s with out := s.out ++ [.result ask outcome], put := s.put ++ [ask] }

/-- A result is put by the reader, which is not on the runtime: it waits where there is no room. -/
def enqueueJson (s : Serve) (ask : Ask) (outcome : Outcome) : Serve :=
  if s.writer.isGone then s
  else if s.hasRoom sizes then s.enqueue ask outcome
  else { s with reader := .putting ask outcome }

/-- Hands a request to the protocol. A full queue is answered straight away. -/
def handOver (s : Serve) (ask : Ask) (request : Request) (isFull : Bool)
    (push : Serve → Serve) : Serve :=
  if !s.listening then { s with reader := .stopped }
  else if isFull then
    enqueueJson sizes { s with asked := s.asked ++ [ask] } ask request.kind.busy
  else
    push { s with asked := s.asked ++ [ask], tasks := s.tasks ++ [⟨ask, none⟩] }

def completeReply (s : Serve) (id : Nat) (error : Option String) : Serve :=
  match s.replies[id]? with
  | some token =>
    { s with
      replies := s.replies.erase id
      wanted := s.wanted.erase token
      ended := s.ended ++ [⟨id, token,
        match error with
        | none => .ok none
        | some message => .error message⟩] }
  | none => s

def completeLoad (s : Serve) (id : Nat) (value : Option Json) (error : Option String) : Serve :=
  match s.loads[id]? with
  | some token =>
    { s with
      loads := s.loads.erase id
      wanted := s.wanted.erase token
      ended := s.ended ++ [⟨id, token,
        match error with
        | none => .ok value
        | some message => .error message⟩] }
  | none => s

def handleHostLine (s : Serve) : Option ToExt → Serve
  | none => { s with reader := .stopped }
  | some (.reply id error) => s.completeReply id error
  | some (.loaded id value error) => s.completeLoad id value error
  | some (.request id request) =>
    let ask : Ask := ⟨request.kind, id⟩
    match request with
    | .serviceCall _ =>
      s.handOver sizes ask request (sizes.calls ≤ s.calls.length) fun s =>
        { s with calls := s.calls ++ [(ask, request)] }
    | _ =>
      s.handOver sizes ask request (sizes.actions ≤ s.actions.length) fun s =>
        { s with actions := s.actions ++ [(ask, request)] }
  | some .stop => { s with reader := .stopped }
  | some .other => s

def answer (ask : Ask) (outcome : Outcome) : List Task → List Task
  | [] => []
  | task :: tasks =>
    if task.ask = ask ∧ task.outcome.isNone then ⟨ask, some outcome⟩ :: tasks
    else task :: answer ask outcome tasks

def due (ask : Ask) : List Task → Option (Outcome × List Task)
  | [] => none
  | task :: tasks =>
    match task.outcome with
    | some outcome =>
      if task.ask = ask then some (outcome, tasks)
      else (due ask tasks).map fun (found, rest) => (found, task :: rest)
    | none => (due ask tasks).map fun (found, rest) => (found, task :: rest)

/-- A task puts the result of its request. It is on the runtime, where waiting for room panics, which
ends it. -/
def runTask (s : Serve) (ask : Ask) : Serve :=
  match due ask s.tasks with
  | some (outcome, tasks) =>
    let s := { s with tasks }
    if s.writer.isGone then s
    else if s.hasRoom sizes then s.enqueue ask outcome
    else s
  | none => s

/-- The protocol no longer listens, and drops what it was handed. -/
def stopListening (s : Serve) : Serve :=
  { s with
    listening := false
    calls := []
    actions := []
    held := []
    tasks := s.tasks.map fun task => ⟨task.ask, some (task.outcome.getD task.ask.kind.dropped)⟩ }

def idCount : Nat := 2 ^ 64

/-- An operation is given an id and waited for. One that had the id before is forgotten. -/
def encodeOp (s : Serve) (token : Nat) (op : Op) : Serve :=
  let id := s.nextId
  let s := { s with
    nextId := (id + 1) % idCount, sent := s.sent ++ [(id, token)], pump := .sending (.op id op) }
  match op with
  | .replied _ =>
    { s with
      replies := s.replies.insert id token
      wanted := (s.replies[id]?).elim s.wanted s.wanted.erase }
  | .load _ =>
    { s with
      loads := s.loads.insert id token
      wanted := (s.loads[id]?).elim s.wanted s.wanted.erase }
  | .told _ => s

def endPump (s : Serve) : Serve :=
  { s with
    pump := .gone
    ops := []
    wanted := s.wanted.filter fun token => !(s.ops.map Prod.fst).contains token }

/-- A report is offered; one that doesn't fit waits where it was. -/
def offerReport (s : Serve) : Serve :=
  match s.reports with
  | [] => { s with pump := .selecting }
  | report :: reports =>
    if s.writer.isGone then s.endPump
    else if s.hasRoom sizes then
      { s with reports, out := s.out ++ [.report report], pump := .offering }
    else { s with pump := .full }

end Serve

inductive Step
  | line (line : Option ToExt)
  /-- There is room for the result the reader waits with. -/
  | readerPuts
  | takesCall
  | takesAction
  | answers (ask : Ask) (outcome : Outcome)
  | drops (ask : Ask)
  | stopsListening
  | taskRuns (ask : Ask)
  | asks (op : Op)
  /-- The protocol no longer waits for a reply. -/
  | givesUp (token : Nat)
  | reported (reports : List Json)
  | pumpTakes
  | pumpSends
  | pumpOffers
  | pumpHasRoom
  | writerTakes
  | writerWrites
  | writerFails

namespace Serve

variable (sizes : Sizes)

def after (s : Serve) : Step → Serve
  | .line line => if s.isReading then s.handleHostLine sizes line else s
  | .readerPuts =>
    match s.reader with
    | .putting ask outcome =>
      if s.writer.isGone then { s with reader := .reading }
      else if s.hasRoom sizes then { s.enqueue ask outcome with reader := .reading }
      else s
    | _ => s
  | .takesCall =>
    match s.calls with
    | (ask, _) :: calls => { s with calls, held := s.held ++ [ask] }
    | [] => s
  | .takesAction =>
    match s.actions with
    | (ask, _) :: actions => { s with actions, held := s.held ++ [ask] }
    | [] => s
  | .answers ask outcome =>
    if s.held.contains ask then
      { s with held := s.held.erase ask, tasks := answer ask outcome s.tasks }
    else s
  | .drops ask =>
    if s.held.contains ask then
      { s with held := s.held.erase ask, tasks := answer ask ask.kind.dropped s.tasks }
    else s
  | .stopsListening => s.stopListening
  | .taskRuns ask => s.runTask sizes ask
  | .asks op =>
    if s.pump.isGone then s
    else if s.ops.length < sizes.ops then
      { s with
        ops := s.ops ++ [(s.tokens, op)]
        tokens := s.tokens + 1
        wanted := if op.waits then s.wanted ++ [s.tokens] else s.wanted }
    else s
  | .givesUp token => { s with wanted := s.wanted.erase token }
  | .reported reports => { s with reports }
  | .pumpTakes =>
    match s.pump, s.ops with
    | .selecting, (token, op) :: ops => { s with ops }.encodeOp token op
    | .full, (token, op) :: ops => { s with ops }.encodeOp token op
    | _, _ => s
  | .pumpSends =>
    match s.pump with
    | .sending line =>
      if s.writer.isGone then s.endPump
      else if s.hasRoom sizes then { s with out := s.out ++ [line], pump := .selecting }
      else s
    | _ => s
  | .pumpOffers =>
    match s.pump, s.ops with
    | .selecting, [] => s.offerReport sizes
    | .offering, _ => s.offerReport sizes
    | _, _ => s
  | .pumpHasRoom =>
    match s.pump, s.ops with
    | .full, [] => if s.hasRoom sizes then { s with pump := .selecting } else s
    | _, _ => s
  | .writerTakes =>
    match s.writer, s.out with
    | .idle, line :: out => { s with out, writer := .writing line }
    | _, _ => s
  | .writerWrites =>
    match s.writer with
    | .writing _ => { s with writer := .idle }
    | _ => s
  | .writerFails => { s with writer := .gone, out := [] }

end Serve

end Irori.Process
