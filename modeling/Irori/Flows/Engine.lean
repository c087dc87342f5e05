import Irori.Flows.Run

/-!
# The flow engine

It never awaits, sleeps or reads the clock. It's handed what happened and when, and hands back
the calls to make and the records to keep. Every operation that runs tokens or timers until there
are none takes fuel, and gives `none` where that runs out.
-/

namespace Irori

inductive Severity
  | warning
  | error
  deriving DecidableEq

structure Problem where
  severity : Severity
  node : Option NodeId
  /-- Index into the wires. -/
  wire : Option Nat
  field : Option String
  message : String

def Problem.isError (p : Problem) : Bool := p.severity = .error

structure Arm where
  flow : Flow
  problems : List Problem

inductive Armed
  | armed
  | disabled
  | unarmed (reason : String)
  deriving DecidableEq

structure Firing where
  trigger : NodeId
  cause : Option ContextId
  test : Option TestKind
  startedBy : Option UserId
  note : String
  reads : List Read
  /-- Which firing this is, for the ledger. -/
  serial : Nat

structure Loaded where
  flow : Flow
  version : String
  armed : Armed
  /-- `for` counting on a trigger: until when. -/
  holds : Map NodeId Timestamp
  queue : List Firing

/-- What the engine has done so far, written down for the proofs. Nothing reads it. -/
structure Ledger where
  handed : Nat
  started : List (Nat × RuleId × ContextId)
  dropped : List Nat
  discarded : List Nat
  taken : List Effect
  evaluated : List Evaluation
  /-- Joins a token came to over a wire that had already brought one. -/
  doubled : List NodeId
  /-- The runs begun, since the engine last looked for idle runs, by triggers with nothing
  wired. -/
  bare : List ContextId
  /-- Those of them that were begun while it was ending idle runs, with nothing left to run. -/
  stillborn : List ContextId
  /-- Moments something was done at while a timer due before them was still waiting. -/
  overtaken : List Timestamp

structure Engine where
  flows : Map RuleId Loaded
  states : Map EntityId EntityState
  runs : Map ContextId Run
  /-- Who a test started by hand is for, while it is being started. -/
  byHand : Option UserId
  /-- In the order they are due, and of those due together in the order they were scheduled. -/
  timers : List (Timestamp × Nat × Timer)
  ready : List (ContextId × Nat)
  effects : List Effect
  place : Option Place
  minted : Nat
  nextCall : Nat
  nextTimer : Nat
  dry : Bool
  ledger : Ledger

def Ledger.empty : Ledger := ⟨0, [], [], [], [], [], [], [], [], []⟩

def dueBefore (a b : Timestamp × Nat × Timer) : Prop :=
  a.1 < b.1 ∨ a.1 = b.1 ∧ a.2.1 ≤ b.2.1

instance (a b : Timestamp × Nat × Timer) : Decidable (dueBefore a b) := by
  unfold dueBefore; infer_instance

namespace Engine

def new (dry : Bool) : Engine :=
  { flows := ∅, states := ∅, runs := ∅, byHand := none, timers := [], ready := [], effects := [],
    place := none, minted := 0, nextCall := 0, nextTimer := 0, dry, ledger := .empty }

section

variable (env : Env)

def addEffect (e : Engine) (effect : Effect) : Engine := { e with effects := e.effects ++ [effect] }

def schedule (e : Engine) (at_ : Timestamp) (timer : Timer) : Engine :=
  { e with
    nextTimer := e.nextTimer + 1,
    timers := e.timers.orderedInsert dueBefore (at_, e.nextTimer + 1, timer) }

def scheduleAll (e : Engine) (timers : List (Timestamp × Timer)) : Engine :=
  timers.foldl (fun e (at_, timer) => e.schedule at_ timer) e

def view (e : Engine) : View := ⟨e.states, e.place, e.dry, e.nextCall⟩

def settle (e : Engine) (runId : ContextId) (m : Moved) : Engine :=
  { e with
    runs := e.runs.insert runId m.run,
    ready := e.ready ++ m.ready.map fun token => (runId, token),
    effects := e.effects ++ m.effects,
    nextCall := e.nextCall + m.calls,
    ledger := { e.ledger with
      evaluated := e.ledger.evaluated ++ m.evaluated,
      doubled := e.ledger.doubled ++ m.doubled } }.scheduleAll m.timers

def withRun (e : Engine) (runId : ContextId) (f : Run → Moved) : Engine :=
  match e.runs[runId]? with
  | none => e
  | some run => e.settle runId (f run)

def runsOf (e : Engine) (flow : RuleId) : List ContextId :=
  (e.runs.toList.filter fun (_, run) => run.record.flowId = flow).map Prod.fst

def setLoaded (e : Engine) (flow : RuleId) (loaded : Loaded) : Engine :=
  { e with flows := e.flows.insert flow loaded }

/-- Stops a trigger's `for` counting; whether it was. -/
def cancelHold (e : Engine) (flow : RuleId) (node : NodeId) : Bool × Engine :=
  match e.flows[flow]? with
  | none => (false, e)
  | some loaded =>
    ((loaded.holds[node]?).isSome,
      e.setLoaded flow { loaded with holds := loaded.holds.erase node })

def nearMiss (e : Engine) (flow : RuleId) (node : NodeId) (kind : NearMissKind) (message : String)
    (reads : List Read) (now : Timestamp) : Engine :=
  let version := ((e.flows[flow]?).map Loaded.version).getD ""
  e.addEffect (.nearMiss ⟨now, flow, version, node, kind, message, reads⟩)

def newRun (runId : ContextId) (flowId : RuleId) (loaded : Loaded) (firing : Firing)
    (now : Timestamp) : Run :=
  { flow := loaded.flow,
    record :=
      { runId, flowId, version := loaded.version, trigger := firing.trigger, cause := firing.cause,
        test := firing.test, startedBy := firing.startedBy, startedAt := now, finishedAt := none,
        outcome := none, endedAt := [],
        steps :=
          [{ seq := 0, node := firing.trigger, token := 0, via := none, at_ := now,
             finishedAt := some now, port := some .out, reads := firing.reads,
             note := some firing.note, call := none }],
        assumptions := [] },
    tokens := ∅, nextToken := 1, vars := ∅, joins := ∅, error := none, stopped := none }

def startRun (e : Engine) (flowId : RuleId) (firing : Firing) (now : Timestamp) :
    ContextId × Engine :=
  let runId := env.runId e.minted now
  let e := { e with minted := e.minted + 1 }
  match e.flows[flowId]? with
  | none => (runId, e)
  | some loaded =>
    let bare := (loaded.flow.wiresFrom firing.trigger .out).isEmpty
    let started := { e with
      runs := e.runs.insert runId (newRun runId flowId loaded firing now),
      ledger := { e.ledger with
        started := e.ledger.started ++ [(firing.serial, flowId, runId)],
        bare := e.ledger.bare ++ (if bare then [runId] else []) } }
    (runId, started.withRun runId (Run.leave · firing.trigger .out))

/-- Whether ending a run this way lets the next firing of its flow take its turn: not where the
flow itself was turned off, changed or removed, or the engine is stopping. -/
def letsNextStart (outcome : Option RunOutcome) : Bool :=
  match outcome with
  | some (.aborted .cancelled) => true
  | some (.aborted _) => false
  | _ => true

def startNext (e : Engine) (flow : RuleId) (now : Timestamp) : Engine :=
  match e.flows[flow]? with
  | none => e
  | some loaded =>
    match loaded.queue with
    | [] => e
    | next :: rest => ((e.setLoaded flow { loaded with queue := rest }).startRun env flow next now).2

/-- Ends a run: its outcome is `outcome` if given, else what its paths came to. -/
def finish (e : Engine) (runId : ContextId) (outcome : Option RunOutcome) (now : Timestamp) :
    Engine :=
  match e.runs[runId]? with
  | none => e
  | some run =>
    let ended := { e with
      runs := e.runs.erase runId,
      ready := e.ready.filter fun entry => entry.1 ≠ runId,
      effects := e.effects ++ [.finished (run.finalRecord outcome now)] }
    if letsNextStart outcome then ended.startNext env run.record.flowId now else ended

def finishAll (e : Engine) (runs : List ContextId) (outcome : RunOutcome) (now : Timestamp) :
    Engine :=
  runs.foldl (fun e run => e.finish env run (some outcome) now) e

def abortFlow (e : Engine) (flow : RuleId) (reason : AbortReason) (now : Timestamp) : Engine :=
  let e := e.finishAll env (e.runsOf flow) (.aborted reason) now
  match e.flows[flow]? with
  | none => e
  | some loaded =>
    { e.setLoaded flow { loaded with queue := [], holds := ∅ } with
      ledger := { e.ledger with
        discarded := e.ledger.discarded ++ loaded.queue.map Firing.serial } }

def drop (e : Engine) (flow : RuleId) (firing : Firing) (why : String) (now : Timestamp) : Engine :=
  let what := if firing.note.isEmpty then s!"{firing.trigger.text} fired" else firing.note
  let e := e.nearMiss flow firing.trigger .dropped s!"{what}, but {why}" firing.reads now
  { e with ledger := { e.ledger with dropped := e.ledger.dropped ++ [firing.serial] } }

def byMode (e : Engine) (flow : RuleId) (loaded : Loaded) (firing : Firing) (now : Timestamp) :
    Option ContextId × Engine :=
  let running := e.runsOf flow
  let start (e : Engine) : Option ContextId × Engine :=
    let (run, e) := e.startRun env flow firing now
    (some run, e)
  match loaded.flow.mode with
  | .named .single =>
    if !running.isEmpty then
      (none, e.drop flow firing "a run was already going and the mode is single" now)
    else start e
  | .named .restart => start (e.finishAll env running .superseded now)
  | .limited (.queued max) =>
    if !running.isEmpty then
      if loaded.queue.length < max.toNat then
        (none, e.setLoaded flow { loaded with queue := loaded.queue ++ [firing] })
      else
        (none, e.drop flow firing s!"{max.toNat} runs were already waiting their turn" now)
    else start e
  | .limited (.parallel max) =>
    if max.toNat ≤ running.length then
      (none, e.drop flow firing s!"{max.toNat} runs were already going at once" now)
    else start e

/-- A trigger fired: the mode decides whether it becomes a run. Answers the run's id if one
started now. -/
def fireNow (e : Engine) (flow : RuleId) (firing : Firing) (now : Timestamp) :
    Option ContextId × Engine :=
  match e.flows[flow]? with
  | none => (none, e)
  | some loaded =>
    let handed := e.ledger.handed
    { e with ledger := { e.ledger with handed := handed + 1 } }.byMode env flow loaded
      { firing with serial := handed } now

/-- A run with nothing left but tokens parked at joins: it gives those up, or ends. -/
def settleIdle (e : Engine) (runId : ContextId) (now : Timestamp) : Engine :=
  match e.runs[runId]? with
  | none => e
  | some run =>
    if !run.tokens.isEmpty then
      let e := e.withRun runId (Run.giveUpJoins · now)
      -- Giving up may have been the end of it: a `timeout` with nothing wired.
      let emptied := (e.runs[runId]?).any fun run => run.tokens.isEmpty
      if emptied ∧ e.ready.isEmpty then e.finish env runId none now else e
    else e.finish env runId none now

def idleRuns (e : Engine) : List ContextId :=
  (e.runs.toList.filter fun (_, run) => run.idle).map Prod.fst

def sweep (e : Engine) (now : Timestamp) : Engine :=
  e.idleRuns.foldl (fun e run => e.settleIdle env run now) e

def step (e : Engine) (runId : ContextId) (token : Nat) (now : Timestamp) : Engine :=
  e.withRun runId fun run => run.step env e.view token now

/-- Runs every token that's ready, then ends the runs that have nothing left. -/
def drive (e : Engine) (now : Timestamp) : Nat → Option Engine
  | 0 => none
  | fuel + 1 =>
    match e.ready with
    | (runId, token) :: rest =>
      ({ e with ready := rest }.step env runId token now).drive now fuel
    | [] =>
      let swept := { e with ledger := { e.ledger with bare := [] } }.sweep env now
      if swept.ready.isEmpty then
        some { swept with
          ledger := { swept.ledger with
            stillborn := swept.ledger.stillborn ++ swept.ledger.bare } }
      else swept.drive now fuel

def checkWait (e : Engine) (runId : ContextId) (token : Nat) (now : Timestamp) : Engine :=
  e.withRun runId fun run => run.checkWait env e.view token now

def firing (trigger : NodeId) (note : String) : Firing :=
  { trigger, cause := none, test := none, startedBy := none, note, reads := [], serial := 0 }

def armedTrigger (e : Engine) (flow : RuleId) (node : NodeId) : Option Trigger :=
  match e.flows[flow]? with
  | none => none
  | some loaded =>
    if loaded.armed = .armed then
      match loaded.flow.nodes[node]? with
      | some (.trigger trigger) => some trigger
      | _ => none
    else none

def clockDue (e : Engine) (flow : RuleId) (node : NodeId) (now : Timestamp) : Engine :=
  match e.place, e.armedTrigger flow node with
  | some place, some trigger =>
    -- The next one first, so a run that goes wrong can't stop the clock.
    let e := match nextMoment env place trigger now with
      | some at_ => e.schedule at_ (.clock flow node)
      | none => e
    (e.fireNow env flow (firing node (clockNote env place trigger now)) now).2
  | _, _ => e

def holdDue (e : Engine) (flow : RuleId) (node : NodeId) (now : Timestamp) : Engine :=
  match e.flows[flow]? with
  | none => e
  | some loaded =>
    if (loaded.holds[node]?).any (· ≤ now) then
      let e := (e.cancelHold flow node).2
      match loaded.flow.nodes[node]? with
      | some (.trigger (.state entity _ _ _ _ _ hold)) =>
        let read := Read.of entity e.states
        let hold := (hold.map CompactDuration.text).getD ""
        let note := s!"{entity.text} held {words env read.value} for {hold}"
        let cause := (e.states[entity]?).map EntityState.contextId
        (e.fireNow env flow { firing node note with cause, reads := [read] } now).2
      | _ => e
    else e

def timer (e : Engine) (timer : Timer) (now : Timestamp) : Engine :=
  match timer with
  | .clock flow node => e.clockDue env flow node now
  | .hold flow node => e.holdDue env flow node now
  | .token run token => e.withRun run fun r => r.tokenDue env e.view token now
  | .join run node => e.withRun run fun r => r.joinDue node now

/-- The moment a timer is acted on: the one it was due at, except that a time of day fires now,
once, however many of its moments went by. -/
def moment (timer : Timer) (at_ now : Timestamp) : Timestamp :=
  if timer.isClock then now else at_

def isBehind (e : Engine) (now : Timestamp) : Bool := e.timers.any fun entry => entry.1 < now

/-- Writes down that something is done at `now`, where a timer due before that is waiting. -/
def noteOvertaken (e : Engine) (now : Timestamp) : Engine :=
  if e.isBehind now then
    { e with ledger := { e.ledger with overtaken := e.ledger.overtaken ++ [now] } }
  else e

def advance (e : Engine) (now : Timestamp) : Nat → Option Engine
  | 0 => none
  | fuel + 1 =>
    match e.timers with
    | [] => some e
    | (at_, _, timer) :: rest =>
      if now < at_ then some e
      else
        let moment := moment timer at_ now
        match (({ e with timers := rest }.noteOvertaken moment).timer env timer moment).drive env
          moment (fuel + 1) with
        | none => none
        | some e => e.advance now fuel

/-- Replaces what the engine knows of the home, without firing anything. -/
def loadStates (e : Engine) (states : List EntityState) : Engine :=
  { e with states := Std.ExtTreeMap.ofList (states.map fun s => (s.entityId, s)) compare }

/-- The tokens that wait, or that wait for something `watched` says. -/
def waiting (e : Engine) (watched : OrdSet EntityId → Bool) : List (ContextId × Nat) :=
  e.runs.toList.flatMap fun (runId, run) =>
    (run.tokens.toList.filter fun (_, token) =>
      match token.doing with
      | .wait _ _ _ watch => watched watch
      | _ => false).map fun (tokenId, _) => (runId, tokenId)

def checkWaits (e : Engine) (waits : List (ContextId × Nat)) (now : Timestamp) : Engine :=
  waits.foldl (fun e (run, token) => e.checkWait env run token now) e

/-- Replaces what the engine knows of the home after it may have missed changes, and looks at
every wait again. Triggers don't fire. -/
def resync (e : Engine) (states : List EntityState) (now : Timestamp) (fuel : Nat) :
    Option Engine :=
  let e := (e.noteOvertaken now).loadStates states
  (e.checkWaits env (e.waiting fun _ => true) now).drive env now fuel

/-- Puts every armed flow's time and sun triggers on the clock again, from `now`. -/
def windClocks (e : Engine) (now : Timestamp) : Engine :=
  let e := { e with timers := e.timers.filter fun entry => !entry.2.2.isClock }
  match e.place with
  | none => e
  | some place =>
    let due := e.flows.toList.flatMap fun (id, loaded) =>
      if loaded.armed = .armed then
        loaded.flow.nodes.toList.filterMap fun (node, kind) =>
          match kind with
          | .trigger trigger =>
            (nextMoment env place trigger now).map fun at_ => (at_, Timer.clock id node)
          | _ => none
      else []
    e.scheduleAll due

/-- Says where the home is. Time and sun triggers are worked out again from here. -/
def setPlace (e : Engine) (place : Option Place) (now : Timestamp) (fuel : Nat) : Option Engine :=
  if e.place = place then some e
  else
    -- What was due in the old zone happens first.
    (e.advance env now fuel).map fun e => { e with place }.windClocks env now

/-- Whether a flow is to run, with what the checks found wrong with it. -/
def armedOf (arm : Arm) : Armed :=
  if !arm.flow.enabled then .disabled
  else match arm.problems.find? Problem.isError with
    | some problem =>
      .unarmed (match problem.node with
        | some node => s!"{node.text}: {problem.message}"
        | none => problem.message)
    | none => .armed

/-- One flow of a new set: its runs and its queue are kept if it is the same flow still. The
flows gathered so far are `next`; the engine's own are those of the old set not yet seen. -/
def arm (now : Timestamp) (next : Map RuleId Loaded) (e : Engine) (arm : Arm) :
    Map RuleId Loaded × Engine :=
  let version := arm.flow.version env
  let state := armedOf arm
  let id := arm.flow.id
  let removed := e.flows[id]?
  let e := { e with flows := e.flows.erase id }
  let kept := removed.filter fun old => old.version = version ∧ state = .armed ∧ old.armed = .armed
  let loaded (holds : Map NodeId Timestamp) (queue : List Firing) : Loaded :=
    { flow := arm.flow, version, armed := state, holds, queue }
  match kept with
  | some old => (next.insert id (loaded old.holds old.queue), e)
  | none =>
    let reason := if state = .disabled then .disabled else .changed
    let lost := (removed.map fun old => old.queue.map Firing.serial).getD [] ++
      ((next[id]?).map fun old => old.queue.map Firing.serial).getD []
    let e := e.abortFlow env id reason now
    (next.insert id (loaded ∅ []),
      { e with ledger := { e.ledger with discarded := e.ledger.discarded ++ lost } })

def replaceFlows (e : Engine) (arms : List Arm) (now : Timestamp) : Engine :=
  let (next, e) := arms.foldl (fun (next, e) a => arm env now next e a) (∅, e)
  let e := e.flows.keys.foldl (fun e id => e.abortFlow env id .removed now) e
  { e with flows := next }.windClocks env now

/-- The flows to run. A flow whose definition changed, that was turned off, or that now has
problems has its runs aborted; one that's the same keeps them. -/
def setFlows (e : Engine) (arms : List Arm) (now : Timestamp) (fuel : Nat) : Option Engine :=
  -- A time trigger that was due under the old set fires before the set changes.
  (e.advance env now fuel).map fun e => e.replaceFlows env arms now

def triggersWhere (e : Engine) (wanted : Trigger → Bool) : List (RuleId × NodeId × Trigger) :=
  e.flows.toList.flatMap fun (id, loaded) =>
    if loaded.armed = .armed then
      loaded.flow.nodes.toList.filterMap fun (node, kind) =>
        match kind with
        | .trigger trigger => if wanted trigger then some (id, node, trigger) else none
        | _ => none
    else []

/-- Fires every armed flow's `startup` triggers: the engine has just started. -/
def start (e : Engine) (now : Timestamp) (fuel : Nat) : Option Engine :=
  let isStartup (trigger : Trigger) : Bool := match trigger with
    | .startup => true
    | _ => false
  ((e.triggersWhere isStartup).foldl (fun e (flow, node, _) =>
    (e.fireNow env flow (firing node "Irori started") now).2) (e.noteOvertaken now)).drive env now
    fuel

def refusal (e : Engine) (flow : RuleId) (trigger : NodeId) : Option String :=
  match e.flows[flow]? with
  | none => some s!"there's no flow `{flow.text}`"
  | some loaded =>
    match loaded.flow.nodes[trigger]? with
    | some (.trigger _) =>
      match loaded.armed with
      | .armed => none
      | .disabled => some s!"`{flow.text}` is turned off"
      | .unarmed reason => some s!"`{flow.text}` can't run: {reason}"
    | _ => some s!"`{trigger.text}` isn't a trigger of `{flow.text}`"

/-- Fires `trigger` by hand, as if it just happened. Answers the run's id, or why it can't. -/
def fire (e : Engine) (flow : RuleId) (trigger : NodeId) (test : Option TestKind)
    (now : Timestamp) (fuel : Nat) : Option (Except String (Option ContextId) × Engine) :=
  match e.refusal flow trigger with
  | some why => some (.error why, e)
  | none =>
    let startedBy := e.byHand.filter fun _ => test.isSome
    let (run, e) := (e.noteOvertaken now).fireNow env flow
      { firing trigger "fired by hand" with test, startedBy } now
    (e.drive env now fuel).map fun e => (.ok run, e)

/-- As `fire`, for a test a regular user started: the run's record says who. -/
def fireBy (e : Engine) (flow : RuleId) (trigger : NodeId) (test : Option TestKind)
    (by_ : Option UserId) (now : Timestamp) (fuel : Nat) :
    Option (Except String (Option ContextId) × Engine) :=
  let e : Engine := { e with byHand := by_ }
  (e.fire env flow trigger test now fuel).map fun (started, e) =>
    (started, { e with byHand := none })

def cancel (e : Engine) (run : ContextId) (now : Timestamp) (fuel : Nat) : Option (Bool × Engine) :=
  let found := e.runs.contains run
  (((e.noteOvertaken now).finish env run (some (.aborted .cancelled)) now).drive env now
    fuel).map fun e => (found, e)

def shutdown (e : Engine) (now : Timestamp) : Engine :=
  (e.noteOvertaken now).finishAll env e.runs.keys (.aborted .shutdown) now

def callFinished (e : Engine) (callId : Nat) (result : Except String Unit) (now : Timestamp)
    (fuel : Nat) : Option Engine :=
  let found := e.runs.toList.findSome? fun (runId, run) =>
    run.tokens.toList.findSome? fun (tokenId, token) =>
      match token.doing with
      | .call asked => if asked = callId then some (runId, tokenId) else none
      | _ => none
  match found with
  | none => some e
  | some (runId, token) =>
    ((e.noteOvertaken now).withRun runId (Run.answerCall · token result now)).drive env now fuel

def takeEffects (e : Engine) : List Effect × Engine :=
  (e.effects,
    { e with effects := [], ledger := { e.ledger with taken := e.ledger.taken ++ e.effects } })

def anyMatches (wanted : Values) (value : Json) : Bool :=
  wanted.iter.any fun want => valueMatches want value

def insideLevel (above below : Option ℚ) (value : Json) : Bool :=
  match value.asF64 with
  | some n => above.all (· < n) && below.all (n < ·)
  | none => false

inductive Change
  | matched
  | ignored
  | left

def changeOf (from_ to_ : Option Values) (above below : Option ℚ) (old : Option EntityState)
    (oldValue newValue : Json) : Change :=
  if above.isSome ∨ below.isSome then
    -- A level: it has to come into the range from outside it (or from not knowing).
    let inside := insideLevel above below
    if inside newValue ∧ inside oldValue ∧ old.isSome then .ignored
    else if (!inside oldValue ∨ old.isNone) ∧ inside newValue then .matched
    else .left
  else
    let fromOk := from_.all (anyMatches · oldValue)
    let toOk := to_.all (anyMatches · newValue)
    if fromOk ∧ toOk then .matched
    -- It didn't come from where the trigger says, but it's still where the trigger wants it: a
    -- hold keeps going.
    else if toOk ∧ !(from_.any fun wanted => to_.isNone && anyMatches wanted newValue) then .ignored
    else .left

def triggerMatched (e : Engine) (flow : RuleId) (node : NodeId) (hold : Option CompactDuration)
    (new : EntityState) (note : String) (read : Read) (now : Timestamp) : Engine :=
  match hold with
  | some hold =>
    let until_ := plus now hold.millis
    let e := match e.flows[flow]? with
      | none => e
      | some loaded =>
        e.setLoaded flow { loaded with holds := loaded.holds.insert node until_ }
    e.schedule until_ (.hold flow node)
  | none =>
    (e.fireNow env flow { firing node note with cause := some new.contextId, reads := [read] }
      now).2

def stateTrigger (e : Engine) (flow : RuleId) (node : NodeId) (trigger : Trigger)
    (old : Option EntityState) (new : EntityState) (now : Timestamp) : Engine :=
  match trigger with
  | .state entity field from_ to_ above below hold =>
    let read := Read.ofField entity field e.states
    let oldValue := ((old.bind EntityState.state).map (readOf · field)).getD .null
    let newValue := read.value
    let wasAvailable := old.any fun state => state.availability = .available
    -- What the trigger watches, in a note: the entity, or one of its values by name.
    let watched := match field with
      | some field => s!"{entity.text}'s {field.text}"
      | none => entity.text
    let happening := entity.kind.countsEveryReport
    if new.availability = .unavailable ∨ new.state.isNone then
      let (hadHold, e) := e.cancelHold flow node
      if wasAvailable ∨ hadHold then
        let what :=
          if new.availability = .unavailable then "became unavailable"
          else "doesn't know its value"
        e.nearMiss flow node .unavailable
          s!"{entity.text} {what}, so this trigger can't fire until it's back" [read] now
      else e
    -- A value the entity has stopped saying is nothing to fire on, and nothing a hold can go on
    -- counting.
    else if field.isSome ∧ newValue.isNull then (e.cancelHold flow node).2
    -- Something that happens rather than a value that lasts: each one counts, as the core says
    -- by moving `lastChanged`.
    else if happening ∧ old.all (fun old => old.lastChanged = new.lastChanged) then e
    else if !happening ∧ old.isSome ∧ oldValue == newValue then
      if wasAvailable ∧ to_.any (anyMatches · newValue) then
        let said := words env newValue
        e.nearMiss flow node .sameValue
          s!"{watched} reported {said} again, but it already was, so a change to {said} didn't happen"
          [read] now
      else e
    else
      let note :=
        if happening then s!"{entity.text}: {words env newValue}"
        else s!"{watched} went {words env oldValue} → {words env newValue}"
      match changeOf from_ to_ above below old oldValue newValue with
      | .matched => e.triggerMatched env flow node hold new note read now
      | .ignored => e
      | .left =>
        let (hadHold, e) := e.cancelHold flow node
        if hadHold then
          let hold := (hold.map CompactDuration.text).getD ""
          e.nearMiss flow node .holdReset
            s!"{note} before the {hold} it had to hold for was up" [read] now
        else e
  | _ => e

def watches (entity : EntityId) (trigger : Trigger) : Bool :=
  match trigger with
  | .state watched .. => watched = entity
  | _ => false

def stateChanged (e : Engine) (old : Option EntityState) (new : EntityState) (now : Timestamp)
    (fuel : Nat) : Option Engine :=
  let entity := new.entityId
  let e := { e.noteOvertaken now with states := e.states.insert entity new }
  let e := (e.triggersWhere (watches entity)).foldl (fun e (flow, node, trigger) =>
    e.stateTrigger env flow node trigger old new now) e
  -- Waits that read it last time they looked.
  (e.checkWaits env (e.waiting fun watch => watch.contains entity) now).drive env now fuel

end

end Engine

end Irori
