import Irori.Flows.Trace

/-!
# One run

The tokens of a run and what moves them. Every function here takes a run and gives what became
of it, with what the engine has to do about it: tokens made ready, timers to schedule, calls to
ask for.
-/

namespace Irori

inductive Doing
  | ready
  | delay (until_ : Timestamp)
  | wait (since timeout : Timestamp) (holdingSince : Option Timestamp) (watch : OrdSet EntityId)
  | call (callId : Nat)
  | joined

def Doing.isReady : Doing → Bool
  | ready => true
  | _ => false

def Doing.isJoined : Doing → Bool
  | joined => true
  | _ => false

def Doing.isWait : Doing → Bool
  | wait .. => true
  | _ => false

structure Token where
  node : NodeId
  via : Option Wire
  step : Option Nat
  doing : Doing

structure JoinState where
  /-- The wires tokens have come in on, and the tokens parked here. -/
  arrived : Map Wire Nat
  passed : Bool
  deadline : Option Timestamp

def JoinState.new : JoinState := ⟨∅, false, none⟩

structure Run where
  flow : Flow
  record : RunRecord
  tokens : Map Nat Token
  nextToken : Nat
  vars : Map String Json
  joins : Map NodeId JoinState
  error : Option (NodeId × String)
  stopped : Option (NodeId × Option String)

inductive Timer
  | hold (flow : RuleId) (node : NodeId)
  | token (run : ContextId) (token : Nat)
  | join (run : ContextId) (node : NodeId)
  /-- A time or sun trigger's next moment. -/
  | clock (flow : RuleId) (node : NodeId)
  deriving DecidableEq

def Timer.isClock : Timer → Bool
  | clock _ _ => true
  | _ => false

/-- Something for whoever drives the engine to do or keep. -/
inductive Effect
  | call (callId : Nat) (runId : ContextId) (parentId : Option ContextId) (entity : EntityId)
      (service : RuleService) (data : Option CallData)
  | finished (record : RunRecord)
  | nearMiss (nearMiss : NearMiss)

/-- A node of a run working out its expressions, with the variables it had. The engine's ledger
keeps these for the proofs. -/
structure Evaluation where
  flow : Flow
  node : NodeId
  vars : Map String Json

structure Moved where
  run : Run
  ready : List Nat := []
  timers : List (Timestamp × Timer) := []
  effects : List Effect := []
  calls : Nat := 0
  evaluated : List Evaluation := []
  /-- Joins a token came to over a wire that had already brought one. -/
  doubled : List NodeId := []

def Moved.andThen (m : Moved) (f : Run → Moved) : Moved :=
  let next := f m.run
  { run := next.run,
    ready := m.ready ++ next.ready,
    timers := m.timers ++ next.timers,
    effects := m.effects ++ next.effects,
    calls := m.calls + next.calls,
    evaluated := m.evaluated ++ next.evaluated,
    doubled := m.doubled ++ next.doubled }

structure View where
  states : Map EntityId EntityState
  place : Option Place
  dry : Bool
  nextCall : Nat

/-- The most steps one run may take: fan-out can't loop, but it can multiply. -/
def maxSteps : Nat := 256

namespace Run

def setDoing (run : Run) (token : Nat) (doing : Doing) : Run :=
  match run.tokens[token]? with
  | none => run
  | some t => { run with tokens := run.tokens.insert token { t with doing } }

def removeToken (run : Run) (token : Nat) : Run := { run with tokens := run.tokens.erase token }

def withStep (run : Run) (token : Nat) (f : Step → Step) : Run :=
  match (run.tokens[token]?).bind Token.step with
  | none => run
  | some i => { run with record := { run.record with steps := run.record.steps.modify i f } }

def noteStep (run : Run) (token : Nat) (note : String) : Run :=
  run.withStep token fun step => { step with note := some note }

def noteReads (run : Run) (token : Nat) (reads : List Read) (note : String) : Run :=
  run.withStep token fun step => { step with reads, note := some note }

def addEnding (run : Run) (node : NodeId) (port : Option Port) : Run :=
  { run with record := { run.record with endedAt := run.record.endedAt ++ [⟨node, port⟩] } }

def setError (run : Run) (node : NodeId) (message : String) : Run :=
  { run with error := some (run.error.getD (node, message)) }

def spawn (run : Run) (wire : Wire) : Run :=
  { run with
    nextToken := run.nextToken + 1,
    tokens := run.tokens.insert run.nextToken ⟨wire.target, some wire, none, .ready⟩ }

/-- A token leaves `node` by `port`: one new token per wire, or the path ends there. -/
def leave (run : Run) (node : NodeId) (port : Port) : Moved :=
  let wires := run.flow.wiresFrom node port
  if wires.isEmpty then { run := run.addEnding node (some port) }
  else { run := wires.foldl spawn run, ready := List.range' run.nextToken wires.length }

def openStep (run : Run) (token : Nat) (now : Timestamp) : Run :=
  match run.tokens[token]? with
  | none => run
  | some t =>
    let seq := run.record.steps.length
    let step : Step :=
      { seq, node := t.node, token, via := t.via, at_ := now, finishedAt := none, port := none,
        reads := [], note := none, call := none }
    { run with
      record := { run.record with steps := run.record.steps ++ [step] },
      tokens := run.tokens.insert token { t with step := some seq } }

def closeStep (run : Run) (token : Nat) (port : Option Port) (now : Timestamp) : Run :=
  run.withStep token fun step => { step with finishedAt := some now, port := port.or step.port }

def pass (run : Run) (token : Nat) (port : Port) (now : Timestamp) : Moved :=
  let run := run.closeStep token (some port) now
  match run.tokens[token]? with
  | none => { run }
  | some t => (run.removeToken token).leave t.node port

def endToken (run : Run) (token : Nat) (now : Timestamp) : Run :=
  let run := run.closeStep token none now
  match run.tokens[token]? with
  | none => run
  | some t => (run.removeToken token).addEnding t.node none

def mergeToken (run : Run) (token : Nat) (now : Timestamp) : Run :=
  (run.withStep token fun step =>
    { step with finishedAt := some now, note := some "merged" }).removeToken token

def joinAt (run : Run) (node : NodeId) : JoinState := (run.joins[node]?).getD .new

def setJoin (run : Run) (node : NodeId) (join : JoinState) : Run :=
  { run with joins := run.joins.insert node join }

/-- A join lets one token through by `port`; the others parked there end. -/
def completeJoin (run : Run) (through : Nat) (node : NodeId) (port : Port) (note : String)
    (now : Timestamp) : Moved :=
  let parked := ((run.joins[node]?).map fun join => Map.vals join.arrived).getD []
  let run := match run.joins[node]? with
    | none => run
    | some join => run.setJoin node { join with passed := true, deadline := none }
  let run := (parked.filter (· ≠ through)).foldl (mergeToken · · now) run
  ((run.setDoing through .ready).noteStep through note).pass through port now

def missingAt (run : Run) (node : NodeId) : List Wire :=
  (run.flow.wiresInto node).filter fun wire => !(run.joinAt node).arrived.contains wire

/-- Every path left is parked at a join that will never complete: the paths it waits for ended
elsewhere. Each gives up through its `timeout` now, saying which didn't come. -/
def giveUpJoins (run : Run) (now : Timestamp) : Moved :=
  let stuck := run.joins.toList.filterMap fun (node, join) =>
    if !join.passed ∧ !join.arrived.isEmpty then
      (Map.lastValue? join.arrived).map fun through =>
        let missing := (run.missingAt node).map fun wire => wire.source.node.text
        let sources := String.intercalate ", " missing
        (node, through, s!"gave up: the path from {sources} ended before getting here")
    else none
  stuck.foldl (fun m (node, through, note) =>
    m.andThen (completeJoin · through node .timeout note now)) { run }

def arrive (run : Run) (token : Nat) (node : NodeId) (mode : JoinMode) (timeoutMs : Option Int)
    (now : Timestamp) : Moved :=
  let join := run.joinAt node
  match mode with
  | .first =>
    if join.passed then
      { run := ((run.setJoin node join).noteStep token "another path got here first").endToken
          token now }
    else
      ((run.setJoin node { join with passed := true }).noteStep token "first here: goes on").pass
        token .out now
  | .all =>
    if join.passed then
      -- It already went on: a path arriving now ends here, rather than sending the run on a
      -- second time.
      { run := ((run.setJoin node join).noteStep token
          "arrived after the join had already gone on").endToken token now }
    else
      let via := (run.tokens[token]?).bind Token.via
      let doubled := match via with
        | some via => if join.arrived.contains via then [node] else []
        | none => []
      let arrived := match via with
        | some via => join.arrived.insert via token
        | none => join.arrived
      -- The first one here starts the join's clock.
      let deadline := if join.arrived.isEmpty then timeoutMs.map (plus now) else none
      let run := run.setJoin node { join with arrived, deadline := deadline.or join.deadline }
      let timers := (deadline.map fun at_ => (at_, Timer.join run.record.runId node)).toList
      let missing := (run.missingAt node).length
      let moved :=
        if missing = 0 then run.completeJoin token node .out "every path is here" now
        else
          let paths := if missing = 1 then "path" else "paths"
          { run := (run.setDoing token .joined).noteStep token
              s!"waiting for {missing} more {paths}" }
      { moved with timers := timers ++ moved.timers, doubled := doubled ++ moved.doubled }

def answerCall (run : Run) (token : Nat) (result : Except String Unit) (now : Timestamp) : Moved :=
  let run := run.withStep token fun step =>
    { step with call := step.call.map fun call => { call with result := some result } }
  match result with
  | .ok () => run.pass token .out now
  | .error error =>
    match run.tokens[token]? with
    | none => { run }
    | some t =>
      if !(run.flow.wiresFrom t.node .error).isEmpty then run.pass token .error now
      else
        { run := (((run.closeStep token (some .error) now).removeToken token).addEnding t.node
            (some .error)).setError t.node error }

section Steps

variable (env : Env) (view : View)

def snapshot (run : Run) (now : Timestamp) : Snapshot := ⟨view.states, run.vars, now⟩

def evaluation (run : Run) (node : NodeId) : Evaluation := ⟨run.flow, node, run.vars⟩

/-- Looks at a waiting token's level again: matched (after its `for`), still waiting, or
holding. -/
def checkWait (run : Run) (token : Nat) (now : Timestamp) : Moved :=
  match run.tokens[token]? with
  | none => { run }
  | some t =>
    match run.flow.nodes[t.node]?, t.doing with
    | some (.wait level _), .wait since timeout holdingSince _ =>
      let outcome := evalWait env view.place level (run.snapshot view now)
      let read := outcome.reads.map Read.entityId
      let watch : OrdSet EntityId := match level with
        | .state entity .. => Std.ExtTreeSet.ofList (entity :: read) compare
        | .expr .. => Std.ExtTreeSet.ofList read compare
      let described := describeWait env level
      let evaluated := [run.evaluation t.node]
      let run := run.withStep token fun step => { step with reads := outcome.reads }
      let moved : Moved :=
        match outcome.holds, level.hold with
        | true, none => (run.noteStep token s!"{described} → matched").pass token .matched now
        | true, some hold =>
          let heldFrom := holdingSince.getD now
          let done := plus heldFrom hold.millis
          if done ≤ now then
            (run.noteStep token s!"{described} → matched").pass token .matched now
          else
            { run := (run.setDoing token (.wait since timeout (some heldFrom) watch)).noteStep token
                s!"{described}: holding",
              timers := if holdingSince.isNone then [(done, .token run.record.runId token)] else [] }
        | false, _ =>
          let why := (outcome.error?.map (": " ++ ·)).getD ""
          { run := (run.setDoing token (.wait since timeout none watch)).noteStep token
              s!"{described}: waiting{why}" }
      { moved with evaluated := evaluated ++ moved.evaluated }
    | _, _ => { run }

def stepGate (run : Run) (token : Nat) (condition : Condition) (now : Timestamp) : Moved :=
  let snapshot := run.snapshot view now
  let outcome := evalCondition env view.place condition snapshot
  let what := marked env view.place condition snapshot
  let note := match outcome.result with
    | .ok holds => s!"{what} → {yesNo holds}"
    | .error error => s!"{what} → no: {error}"
  (run.noteReads token outcome.reads note).pass token (if outcome.holds then .yes else .no) now

/-- The first case that holds, with what was read and noted on the way. -/
def chooseCase (snapshot : Snapshot) : List Condition → Nat → List Read → List String →
    Port × List Read × List String
  | [], _, reads, notes => (.else, reads, notes)
  | case :: rest, i, reads, notes =>
    let outcome := evalCondition env view.place case snapshot
    let what := marked env view.place case snapshot
    let reads := mergeReads reads outcome.reads
    match outcome.result with
    | .ok true =>
      (.case (UInt8.ofNat (min (i + 1) 255)), reads, notes ++ [s!"case {i + 1}: {what} → yes"])
    | .ok false => chooseCase snapshot rest (i + 1) reads (notes ++ [s!"case {i + 1}: {what} → no"])
    | .error error =>
      chooseCase snapshot rest (i + 1) reads (notes ++ [s!"case {i + 1}: {error}"])

def stepSwitch (run : Run) (token : Nat) (cases : List Condition) (now : Timestamp) : Moved :=
  let (chosen, reads, notes) := chooseCase env view (run.snapshot view now) cases 0 [] []
  (run.noteReads token reads (String.intercalate "; " notes)).pass token chosen now

def evalSetting (snapshot : Snapshot) (expr : ExprString) : Outcome ℚ :=
  let outcome := evalValue env view.place expr snapshot
  { reads := outcome.reads,
    result := outcome.result.bind fun
      | .number n => .ok n.asF64
      | other => .error s!"`{expr.text}` gave {env.showJson other}, not a number" }

def callData (data : CallData) : Json := .object data.toList

def stepCall (run : Run) (token : Nat) (service : RuleService) (entity : EntityId)
    (data : Option FlowCallData) (now : Timestamp) : Moved :=
  -- Settings that are worked out are worked out now, from the home as it is.
  let resolved : Outcome (Option CallData × List String) := match data with
    | none => ⟨.ok (none, []), []⟩
    | some data =>
      let outcome := data.resolve env service (evalSetting env view (run.snapshot view now))
      ⟨outcome.result.map fun (data, notes) => (some data, notes), outcome.reads⟩
  let detail (data : Option Json) : CallDetail :=
    ⟨service.display, entity, data, none, view.dry⟩
  let moved : Moved := match resolved.result with
    | .error error =>
      (run.withStep token fun step =>
        { step with
          reads := resolved.reads, note := some s!"couldn't work out the settings: {error}",
          call := some (detail none) }).answerCall token (.error error) now
    | .ok (data, worked) =>
      let settings := String.intercalate ", " worked
      let note :=
        if worked.isEmpty then s!"{service.display} {entity.text}"
        else s!"{service.display} {entity.text} ({settings})"
      let run := (run.withStep token fun step =>
        { step with
          reads := resolved.reads, call := some (detail (data.map callData)),
          note := some note }).setDoing token (.call view.nextCall)
      if view.dry then run.answerCall token (.ok ()) now
      else
        { run,
          effects := [.call view.nextCall run.record.runId run.record.cause entity service data] }
  { moved with calls := moved.calls + 1 }

def stepSet (run : Run) (token : Nat) (node : NodeId) (name : ObjectId) (expr : ExprString)
    (now : Timestamp) : Moved :=
  let outcome := evalValue env view.place expr (run.snapshot view now)
  match outcome.result with
  | .ok value =>
    let run := { run with vars := run.vars.insert name.text value }
    (run.noteReads token outcome.reads s!"{name.text} = {words env value}").pass token .out now
  | .error error =>
    let run := run.noteReads token outcome.reads s!"couldn't work out {name.text}: {error}"
    { run := (run.setError node error).endToken token now }

def stepDelay (run : Run) (token : Nat) (hold : CompactDuration) (now : Timestamp) : Moved :=
  let until_ := plus now hold.millis
  { run := (run.setDoing token (.delay until_)).noteStep token s!"waiting {hold.text}",
    timers := [(until_, .token run.record.runId token)] }

def stepWait (run : Run) (token : Nat) (timeout : CompactDuration) (now : Timestamp) : Moved :=
  let deadline := plus now timeout.millis
  let waiting : Moved :=
    { run := run.setDoing token (.wait now deadline none ∅),
      timers := [(deadline, .token run.record.runId token)] }
  waiting.andThen (checkWait env view · token now)

def cutShort (run : Run) (token : Nat) (now : Timestamp) : Run :=
  (run.withStep token fun step =>
    { step with
      finishedAt := some now, note := some (step.note.getD "cut short by a stop") }).removeToken
    token

def stepStop (run : Run) (token : Nat) (node : NodeId) (reason : Option String)
    (now : Timestamp) : Moved :=
  let run := run.withStep token fun step =>
    { step with finishedAt := some now, note := some (reason.getD "stop") }
  let run := { run with stopped := some (node, reason) }.addEnding node none
  -- The whole run ends: every other path with it.
  { run := run.tokens.keys.foldl (fun run other =>
      if other = token then run.removeToken other else run.cutShort other now) run }

def stepNode (run : Run) (token : Nat) (node : NodeId) (kind : Node) (now : Timestamp) : Moved :=
  let moved := match kind with
    | .trigger _ => run.pass token .out now
    | .gate condition => run.stepGate env view token condition now
    | .switch cases => run.stepSwitch env view token cases now
    | .call service entity data => run.stepCall env view token service entity data now
    | .set name expr => run.stepSet env view token node name expr now
    | .delay hold => run.stepDelay token hold now
    | .wait _ timeout => run.stepWait env view token timeout now
    | .join mode timeout => run.arrive token node mode (timeout.map CompactDuration.millis) now
    | .stop reason => run.stepStop token node reason now
  { moved with evaluated := run.evaluation node :: moved.evaluated }

/-- The run has taken all the steps it may: every path of it ends. -/
def exhaust (run : Run) (node : NodeId) (now : Timestamp) : Run :=
  let run := { run with
    error := some (node, s!"the run took more than {maxSteps} steps; paths multiply too much") }
  run.tokens.keys.foldl (endToken · · now) run

def step (run : Run) (token : Nat) (now : Timestamp) : Moved :=
  match run.tokens[token]? with
  | none => { run }
  | some t =>
    if !t.doing.isReady then { run }
    else match run.flow.nodes[t.node]? with
      | none => { run := run.endToken token now }
      | some node =>
        if maxSteps ≤ run.record.steps.length then { run := run.exhaust t.node now }
        else (run.openStep token now).stepNode env view token t.node node now

def tokenDue (run : Run) (token : Nat) (now : Timestamp) : Moved :=
  match run.tokens[token]? with
  | none => { run }
  | some t =>
    match t.doing with
    | .delay until_ => if until_ ≤ now then run.pass token .out now else { run }
    | .wait _ timeout _ _ =>
      if timeout ≤ now then
        let text := match run.flow.nodes[t.node]? with
          | some (.wait _ timeout) => timeout.text
          | _ => ""
        (run.noteStep token s!"gave up waiting after {text}").pass token .timeout now
      else run.checkWait env view token now
    | _ => { run }

def joinDue (run : Run) (node : NodeId) (now : Timestamp) : Moved :=
  match run.joins[node]? with
  | none => { run }
  | some join =>
    if !join.passed ∧ join.deadline.any (· ≤ now) then
      match Map.lastValue? join.arrived with
      | some through =>
        run.completeJoin through node .timeout "timed out waiting for the other paths" now
      | none => { run }
    else { run }

end Steps

def idle (run : Run) : Bool := (Map.vals run.tokens).all fun token => token.doing.isJoined

def outcome (run : Run) : RunOutcome :=
  match run.stopped, run.error with
  | some (node, reason), _ => .stopped node reason
  | none, some (node, message) => .error node message
  | none, none => .completed

/-- The record of a run that ends: its outcome is `outcome` if given, which cuts its open steps
short, else what its paths came to. -/
def finalRecord (run : Run) (outcome : Option RunOutcome) (now : Timestamp) : RunRecord :=
  let close (step : Step) : Step :=
    match step.finishedAt with
    | some _ => step
    | none =>
      { step with
        finishedAt := some now,
        note := some (match step.note with
          | some note => s!"{note} (cut short)"
          | none => "cut short") }
  { run.record with
    steps := if outcome.isSome then run.record.steps.map close else run.record.steps,
    finishedAt := some now,
    outcome := some (outcome.getD run.outcome) }

end Run

end Irori
