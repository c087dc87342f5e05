import Irori.Home.System

/-!
# Service calls

What a request on an entity comes to, and the calls that are under way: each waits for its turn on
the entity, is worked out, recorded, sent to its protocol and answered, and can end at every wait.
The services of the kinds are a parameter. So is what happens to the calls: every step takes one of
them as far as its next lock or wait, and what protocols tell the core comes in between.
-/

namespace Irori.Core

variable {κ σ ς : Type}

structure Command where
  action : String
  data : List (String × Json)

def Command.toggle : String := "toggle"

inductive Care
  | skips
  | clearsSkipped
  | installs
  | sent
  deriving DecidableEq

structure Services (κ σ ς : Type) where
  hasServices : EntityKind → Bool
  toggle : EntityKind → Option Typed → Option String
  named : EntityKind → String → Option String
  ofData : String → List (String × Json) → Except String ς
  /-- The value a number is counted to. -/
  stepped : κ → Option ℚ → ς → Option (Except String ℚ)
  numberSetValue : ℚ → ς
  supports : κ → ς → Except String Unit
  asksFor : ς → Option Typed
  primary : State σ → Typed
  care : ς → Care

inductive CallError
  | unknownEntity (id : EntityId)
  | notSupported (what : String)
  | notRunning (protocol : ProtocolId)
  | timeout
  | unavailable (message : String)
  | failed (message : String)
  deriving DecidableEq

structure Resolved (ς : Type) where
  protocol : ProtocolId
  uniqueId : UniqueId
  service : ς

namespace Home

variable (services : Services κ σ ς) (home : Home κ σ)

def reported (id : EntityId) : Option Typed :=
  ((home.states[id]?).bind EntityState.state).map services.primary

def current (id : EntityId) : Option Typed := (home.commanded[id]?).or (home.reported services id)

def serviceName (current : Option Typed) (kind : EntityKind) (id : EntityId) (command : Command) :
    Except CallError String :=
  let refuse (what : String) : Except CallError String :=
    .error (.notSupported ("`" ++ id.text ++ "` " ++ what))
  if command.action = Command.toggle then
    if !command.data.isEmpty then
      .error (.notSupported ("`" ++ kind.domain ++ ".toggle` takes no data"))
    else
      match services.toggle kind current with
      | some name => .ok name
      | none => refuse ("is a " ++ kind.domain ++ "; it can't be toggled")
  else
    match services.named kind command.action with
    | some name => .ok name
    | none => refuse ("is a " ++ kind.domain ++ "; it has no `" ++ command.action ++ "`")

def resolveFrom (current : Option Typed) (id : EntityId) (command : Command) :
    Except CallError (Resolved ς) :=
  match home.entities[id]? with
  | none => .error (.unknownEntity id)
  | some entity =>
    let refuse (what : String) : Except CallError (Resolved ς) :=
      .error (.notSupported ("`" ++ id.text ++ "` " ++ what))
    let kind := entity.id.kind
    if !services.hasServices kind then
      refuse ("is a " ++ kind.domain ++ "; it has no services")
    else
      match serviceName services current kind id command with
      | .error e => .error e
      | .ok name =>
        match services.ofData name command.data with
        | .error e => .error (.notSupported e)
        | .ok service =>
          -- Counting a number up or down is the core's to work out.
          let number :=
            match current with
            | some (.number n) => some n
            | _ => none
          let service :=
            match services.stepped entity.capabilities number service with
            | some value => value.map services.numberSetValue
            | none => .ok service
          match service with
          | .error what => refuse what
          | .ok service =>
            match services.supports entity.capabilities service with
            | .error what => refuse what
            | .ok () => .ok ⟨entity.protocol, entity.uniqueId, service⟩

/-- Turns a request on an entity into the service call its protocol receives. -/
def resolve (id : EntityId) (command : Command) : Except CallError (Resolved ς) :=
  home.resolveFrom services (home.current services id) id command

def stillDispatchable (id : EntityId) (resolved : Resolved ς) : Bool :=
  match home.entities[id]? with
  | some entity =>
    entity.protocol == resolved.protocol && entity.uniqueId == resolved.uniqueId &&
      (services.supports entity.capabilities resolved.service).isOk
  | none => false

end Home

abbrev CallResult := Option (Except CallError Unit)

inductive CallPhase (ς : Type)
  | waits
  | turn
  | resolved (call : Resolved ς)
  /-- It is remembered, and forgotten again unless it is delivered. -/
  | recorded (call : Resolved ς)
  | sending (call : Resolved ς)
  | delivered (call : Resolved ς)
  /-- It has its result, and its turn still. -/
  | ending (result : CallResult)
  | over (result : CallResult)
  /-- It has seen to the lock, which it still shares. -/
  | released (result : CallResult)

def CallPhase.hasTurn : CallPhase ς → Bool
  | .turn => true
  | .resolved _ => true
  | .recorded _ => true
  | .sending _ => true
  | .delivered _ => true
  | .ending _ => true
  | _ => false

def CallPhase.isReleased : CallPhase ς → Bool
  | .released _ => true
  | _ => false

structure Call (ς : Type) where
  entity : EntityId
  command : Command
  context : Context
  lock : Nat
  phase : CallPhase ς

inductive CallAnswer
  | done
  | unavailable (message : String)
  | failed (message : String)
  | dropped
  | timeout
  | callerGone

def CallAnswer.result : CallAnswer → CallResult
  | .done => some (.ok ())
  | .unavailable message => some (.error (.unavailable message))
  | .failed message => some (.error (.failed message))
  | .dropped => some (.error (.failed "the protocol dropped the call without answering"))
  | .timeout => some (.error .timeout)
  | .callerGone => none

structure Calling (κ σ ς : Type) where
  home : Home κ σ
  busy : Map EntityId Nat
  nextLock : Nat
  calls : Map Nat (Call ς)
  nextCall : Nat

inductive CallStep (κ σ : Type)
  | told (op : HomeOp κ σ)
  | begins (entity : EntityId) (command : Command) (context : Context)
  | getsTurn (k : Nat)
  /-- It is out of time before its turn, or its caller goes away. -/
  | leaves (k : Nat) (result : CallResult)
  /-- An install may be refused or have to wait in line, which ends the call with `line`. -/
  | resolves (k : Nat) (line : Option (Except CallError Unit)) (stamp : Stamp)
  | dispatches (k : Nat) (isRunning : Bool) (now : Timestamp)
  | checks (k : Nat)
  /-- There was no room in time, the protocol is gone, or the caller is. -/
  | fails (k : Nat) (result : CallResult)
  | delivers (k : Nat) (now : Timestamp)
  | answered (k : Nat) (answer : CallAnswer)
  | givesTurn (k : Nat)
  | releases (k : Nat)
  | drops (k : Nat)

namespace Calling

def start (home : Home κ σ) : Calling κ σ ς where
  home
  busy := ∅
  nextLock := 0
  calls := ∅
  nextCall := 0

variable (s : Calling κ σ ς)

def isLocked (lock : Nat) : Bool :=
  (Map.vals s.calls).any fun call => call.lock == lock && call.phase.hasTurn

def shares (lock : Nat) : Nat :=
  ((Map.vals s.calls).filter fun call => call.lock == lock).length + 1

def withPhase (k : Nat) (call : Call ς) (phase : CallPhase ς) : Calling κ σ ς :=
  { s with calls := s.calls.insert k { call with phase } }

def lockFor (entity : EntityId) : Nat := (s.busy[entity]?).getD s.nextLock

def begin (entity : EntityId) (command : Command) (context : Context) : Calling κ σ ς :=
  { s with
    busy := s.busy.insert entity (s.lockFor entity)
    nextLock := if s.busy.contains entity then s.nextLock else s.nextLock + 1
    calls := s.calls.insert s.nextCall ⟨entity, command, context, s.lockFor entity, .waits⟩
    nextCall := s.nextCall + 1 }

/-- A call that wasn't delivered is forgotten, and what its entity was told with it. -/
def forget (k : Nat) (call : Call ς) (resolved : Resolved ς) (result : CallResult) :
    Calling κ σ ς :=
  let home := (s.home.forgetCall resolved.protocol call.context.id).forgetCommand call.entity
  { s with home }.withPhase k call (.ending result)

/-- The lock of an entity is dropped from the map once nobody else waits for it. -/
def release (call : Call ς) : Map EntityId Nat :=
  match s.busy[call.entity]? with
  | some lock => if s.shares lock ≤ 2 then s.busy.erase call.entity else s.busy
  | none => s.busy

def resolves (services : Services κ σ ς) (k : Nat) (call : Call ς)
    (line : Option (Except CallError Unit)) (stamp : Stamp) : Calling κ σ ς :=
  match s.home.resolve services call.entity call.command with
  | .error e => s.withPhase k call (.ending (some (.error e)))
  | .ok resolved =>
    match services.care resolved.service with
    | .skips =>
      let (result, home) := s.home.skipUpdate call.entity call.context stamp
      { s with home }.withPhase k call (.ending (some
        (match result with
          | .ok _ => .ok ()
          | .error e => .error (.notSupported e.text))))
    | .clearsSkipped =>
      let (_, home) := s.home.clearSkippedUpdate call.entity call.context stamp
      { s with home }.withPhase k call (.ending (some (.ok ())))
    | .installs =>
      match line with
      | none =>
        let (_, home) := s.home.beginUpdate call.entity stamp
        { s with home }.withPhase k call (.resolved resolved)
      | some result => s.withPhase k call (.ending (some result))
    | .sent => s.withPhase k call (.resolved resolved)

/-- Both recorded before sending, because the protocol may answer and report before this goes on. -/
def dispatches (services : Services κ σ ς) (k : Nat) (call : Call ς) (resolved : Resolved ς)
    (isRunning : Bool) (now : Timestamp) : Calling κ σ ς :=
  if isRunning then
    let home := (s.home.recordCall resolved.protocol call.context.id now).recordCommand call.entity
      (services.asksFor resolved.service)
    { s with home }.withPhase k call (.recorded resolved)
  else s.withPhase k call (.ending (some (.error (.notRunning resolved.protocol))))

def checks (services : Services κ σ ς) (k : Nat) (call : Call ς) (resolved : Resolved ς) :
    Calling κ σ ς :=
  if s.home.stillDispatchable services call.entity resolved then
    s.withPhase k call (.sending resolved)
  else
    s.forget k call resolved (some (.error (.notSupported ("`" ++ call.entity.text ++
      "` changed while the call was being prepared; try again"))))

def answered (k : Nat) (call : Call ς) (answer : CallAnswer) : Calling κ σ ς :=
  match answer.result with
  -- It didn't happen, so the entity is whatever it last reported.
  | some (.error e) =>
    { s with home := s.home.forgetCommand call.entity }.withPhase k call
      (.ending (some (.error e)))
  | result => s.withPhase k call (.ending result)

variable [DecidableEq κ] [DecidableEq σ]

def after (kinds : Kinds κ σ) (services : Services κ σ ς) : CallStep κ σ → Calling κ σ ς
  | .told op =>
    match op.sender, s.home.perform kinds op with
    | some _, some (_, home) => { s with home }
    | _, _ => s
  | .begins entity command context => s.begin entity command context
  | .getsTurn k =>
    match s.calls[k]? with
    | some call =>
      match call.phase with
      | .waits => if s.isLocked call.lock then s else s.withPhase k call .turn
      | _ => s
    | none => s
  | .leaves k result =>
    match s.calls[k]? with
    | some call =>
      match call.phase with
      | .waits => s.withPhase k call (.over result)
      | _ => s
    | none => s
  | .resolves k line stamp =>
    match s.calls[k]? with
    | some call =>
      match call.phase with
      | .turn => s.resolves services k call line stamp
      | _ => s
    | none => s
  | .dispatches k isRunning now =>
    match s.calls[k]? with
    | some call =>
      match call.phase with
      | .resolved resolved => s.dispatches services k call resolved isRunning now
      | _ => s
    | none => s
  | .checks k =>
    match s.calls[k]? with
    | some call =>
      match call.phase with
      | .recorded resolved => s.checks services k call resolved
      | _ => s
    | none => s
  | .fails k result =>
    match s.calls[k]? with
    | some call =>
      match call.phase with
      | .sending resolved => s.forget k call resolved result
      | _ => s
    | none => s
  -- The clock's reading is what a report is compared with later, and no part of sending.
  | .delivers k _ =>
    match s.calls[k]? with
    | some call =>
      match call.phase with
      | .sending resolved => s.withPhase k call (.delivered resolved)
      | _ => s
    | none => s
  | .answered k answer =>
    match s.calls[k]? with
    | some call =>
      match call.phase with
      | .delivered _ => s.answered k call answer
      | _ => s
    | none => s
  | .givesTurn k =>
    match s.calls[k]? with
    | some call =>
      match call.phase with
      | .ending result => s.withPhase k call (.over result)
      | _ => s
    | none => s
  | .releases k =>
    match s.calls[k]? with
    | some call =>
      match call.phase with
      | .over result => { s with busy := s.release call }.withPhase k call (.released result)
      | _ => s
    | none => s
  | .drops k =>
    match s.calls[k]? with
    | some call => if call.phase.isReleased then { s with calls := s.calls.erase k } else s
    | none => s

end Calling

end Irori.Core
