import Irori.Flows.Document

/-!
# What a run leaves behind

Its record, step by step; the near-misses of firings that didn't become runs; and the words its
notes are written in.
-/

namespace Irori

inductive TestKind
  | live
  /-- Calls recorded, not sent. -/
  | dry
  deriving DecidableEq

inductive AbortReason
  | disabled
  | changed
  | removed
  | cancelled
  | shutdown
  deriving DecidableEq

inductive RunOutcome
  | completed
  /-- A path ended at a failure nothing was wired to. -/
  | error (node : NodeId) (message : String)
  | stopped (node : NodeId) (reason : Option String)
  | superseded
  | aborted (reason : AbortReason)

structure Ending where
  node : NodeId
  port : Option Port

structure CallDetail where
  service : String
  entityId : EntityId
  data : Option Json
  result : Option (Except String Unit)
  simulated : Bool

structure Step where
  seq : Nat
  node : NodeId
  token : Nat
  via : Option Wire
  at_ : Timestamp
  finishedAt : Option Timestamp
  port : Option Port
  reads : List Read
  note : Option String
  call : Option CallDetail

structure RunRecord where
  runId : ContextId
  flowId : RuleId
  version : String
  trigger : NodeId
  cause : Option ContextId
  test : Option TestKind
  startedBy : Option UserId
  startedAt : Timestamp
  finishedAt : Option Timestamp
  outcome : Option RunOutcome
  endedAt : List Ending
  steps : List Step
  assumptions : List String

inductive NearMissKind
  | dropped
  /-- A `for` was counting and the value changed back. -/
  | holdReset
  /-- A watched entity became unavailable or unknown. -/
  | unavailable
  /-- Reported again with the value it already had. -/
  | sameValue
  deriving DecidableEq

structure NearMiss where
  at_ : Timestamp
  flowId : RuleId
  version : String
  node : NodeId
  kind : NearMissKind
  message : String
  reads : List Read

def yesNo (b : Bool) : String := if b then "yes" else "no"

section Words

variable (env : Env)

/-- A value the way a person says it: on, off, 42, "rinse", unknown. -/
def words (value : Json) : String :=
  match value with
  | .bool true => "on"
  | .bool false => "off"
  | .null => "unknown"
  | .string text => s!"\"{text}\""
  | .number n => env.showFloat n.asF64
  | other => env.showJson other

def typedWords (value : TypedValue) : String :=
  match value with
  | .bool true => "on"
  | .bool false => "off"
  | .number n => env.showFloat n
  | .text text => s!"\"{text}\""
  | .null => "unknown"

def sunWord : SunEvent → String
  | .sunrise => "sunrise"
  | .sunset => "sunset"
  | .dawn => "dawn"
  | .dusk => "dusk"
  | .noon => "solar noon"
  | .midnight => "solar midnight"

def AvailabilityWanted.word : AvailabilityWanted → String
  | .available => "available"
  | .unavailable => "unavailable"

def Weekday.word : Weekday → String
  | .mon => "mon"
  | .tue => "tue"
  | .wed => "wed"
  | .thu => "thu"
  | .fri => "fri"
  | .sat => "sat"
  | .sun => "sun"

/-- A window with two ends, one or none. -/
def windowWords (after before : Option String) : String :=
  match after, before with
  | some after, some before => s!"between {after} and {before}"
  | some after, none => s!"after {after}"
  | none, some before => s!"before {before}"
  | none, none => "any time"

mutual

def describe : Condition → String
  | .state entity field is availability =>
    match is, availability with
    | some is, _ =>
      match field with
      | some field => s!"{entity.text}'s {field.text} is {typedWords env is}"
      | none => s!"{entity.text} is {typedWords env is}"
    | none, some availability => s!"{entity.text} is {availability.word}"
    | none, none => entity.text
  | .expr expr => expr.text
  | .time after before weekday =>
    match weekday with
    | some days =>
      let on := String.intercalate ", " (days.map Weekday.word)
      s!"{windowWords after before} on {on}"
    | none => windowWords after before
  | .sun after before offset afterOffset beforeOffset =>
    -- "sunset -30m": the event, and how far its end of the window is moved.
    let edge (event : SunEvent) (own : Option CompactDuration) : String :=
      match own.or offset with
      | some moved => s!"{sunWord event} {moved.text}"
      | none => sunWord event
    windowWords (after.map (edge · afterOffset)) (before.map (edge · beforeOffset))
  | .all conditions => String.intercalate " and " (describeAll conditions)
  | .any conditions => String.intercalate " or " (describeAll conditions)
  | .not condition => s!"not ({describe condition})"

def describeAll : List Condition → List String
  | [] => []
  | condition :: rest => describe condition :: describeAll rest

end

def describeWait (waited : WaitUntil) : String :=
  match waited with
  | .state entity field is _ hold =>
    let entity := match field with
      | some field => s!"{entity.text}'s {field.text}"
      | none => entity.text
    let is := (is.map (typedWords env)).getD "available"
    match hold with
    | some hold => s!"{entity} is {is} for {hold.text}"
    | none => s!"{entity} is {is}"
  | .expr expr hold =>
    match hold with
    | some hold => s!"{expr.text} for {hold.text}"
    | none => expr.text

/-- A condition as a trace note. Several checks together are each marked with how they came out,
so a `no` says which one it was. -/
def marked (place : Option Place) (condition : Condition) (snapshot : Snapshot) : String :=
  let mark (child : Condition) : String :=
    let came := match (evalCondition env place child snapshot).result with
      | .ok true => "✓"
      | .ok false => "✗"
      | .error error => s!"✗ ({error})"
    s!"{describe env child} {came}"
  match condition with
  | .all conditions => String.intercalate " and " (conditions.map mark)
  | .any conditions => String.intercalate " or " (conditions.map mark)
  | _ => describe env condition

/-- When a time or sun trigger next fires after `after`. `none` for every other trigger, for the
sun without a location, and for a moment that never comes. -/
def nextMoment (place : Place) (trigger : Trigger) (after : Timestamp) : Option Timestamp :=
  match trigger with
  | .time (some at_) _ weekday => env.clock.nextTime place at_ weekday after
  | .time none (some cron) _ => env.clock.nextCron place cron after
  | .sun event offset =>
    env.clock.nextSun place event ((offset.map CompactDuration.millis).getD 0) after
  | _ => none

def clockNote (place : Place) (trigger : Trigger) (now : Timestamp) : String :=
  let wall := env.clock.wall place now
  match trigger with
  | .sun event (some offset) =>
    if offset.millis < 0 then
      let text := String.ofList (offset.text.toList.dropWhile (· = '-'))
      s!"{text} before {sunWord event} ({wall})"
    else if 0 < offset.millis then
      let text := String.ofList (offset.text.toList.dropWhile (· = '+'))
      s!"{text} after {sunWord event} ({wall})"
    else s!"{sunWord event} ({wall})"
  | .sun event none => s!"{sunWord event} ({wall})"
  | _ =>
    let days := ["Monday", "Tuesday", "Wednesday", "Thursday", "Friday", "Saturday", "Sunday"]
    let today := days.getD (env.clock.weekday place now % 7) "Monday"
    "it's " ++ s!"{wall} on {today}"

end Words

end Irori
