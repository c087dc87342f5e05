import Irori.Rules.Expr

/-!
# Evaluating

Expressions, conditions and wait matchers against a snapshot of the home, with what was read.
Unavailable and unknown never count as a value: `num()` of an unavailable sensor is an error, and
a condition whose expression errors doesn't hold.
-/

namespace Irori

structure Place where
  timeZone : String
  coordinates : Option (ℚ × ℚ)
  deriving DecidableEq

def Place.hasLocation (place : Place) : Bool := place.coordinates.isSome

structure Clock where
  inTimeWindow : Place → Option String → Option String → Option (List Weekday) → Timestamp → Bool
  inSunWindow : Place → Option SunEvent → Option SunEvent → Int → Int → Timestamp →
    Except String Bool
  hourAndMinute : Place → Timestamp → Int × Int
  nextTime : Place → String → Option (List Weekday) → Timestamp → Option Timestamp
  /-- `none` where the cron doesn't parse, too. -/
  nextCron : Place → String → Timestamp → Option Timestamp
  nextSun : Place → SunEvent → Int → Timestamp → Option Timestamp
  /-- The time on the wall, `18:42`. -/
  wall : Place → Timestamp → String
  /-- The day of the week, from Monday. -/
  weekday : Place → Timestamp → Nat
  cronProblem : String → Option String

/-- What the home's program takes from elsewhere: the `cel` package, the calendar, the service
catalogue, how numbers print, SHA-256 in hex, and the run ids it is given. -/
structure Env where
  cel : Cel
  clock : Clock
  numberField : RuleService → String → Option NumberField
  /-- A float as Rust's `to_string` writes it. -/
  showFloat : ℚ → String
  /-- A JSON number as `serde_json` writes it. -/
  showNumber : Number → String
  sha256 : String → String
  /-- The `n`th run id, asked for at a moment. -/
  runId : Nat → Timestamp → ContextId

def jsonChar (c : Char) : List Char :=
  match c with
  | '"' => ['\\', '"']
  | '\\' => ['\\', '\\']
  | '\x08' => ['\\', 'b']
  | '\x0c' => ['\\', 'f']
  | '\n' => ['\\', 'n']
  | '\r' => ['\\', 'r']
  | '\t' => ['\\', 't']
  | c =>
    if c.toNat < 0x20 then
      ['\\', 'u', '0', '0', Nat.digitChar (c.toNat / 16), Nat.digitChar (c.toNat % 16)]
    else [c]

def jsonString (text : String) : List Char := '"' :: text.toList.flatMap jsonChar ++ ['"']

mutual

def Json.write (showNumber : Number → String) : Json → List Char
  | .null => "null".toList
  | .bool b => (if b then "true" else "false").toList
  | .number n => (showNumber n).toList
  | .string s => jsonString s
  | .array items => '[' :: Json.writeItems showNumber items ++ [']']
  | .object entries => '{' :: Json.writeEntries showNumber entries ++ ['}']

def Json.writeItems (showNumber : Number → String) : List Json → List Char
  | [] => []
  | [item] => Json.write showNumber item
  | item :: items => Json.write showNumber item ++ ',' :: Json.writeItems showNumber items

def Json.writeEntries (showNumber : Number → String) : List (String × Json) → List Char
  | [] => []
  | [(key, value)] => jsonString key ++ ':' :: Json.write showNumber value
  | (key, value) :: entries =>
    jsonString key ++ ':' :: Json.write showNumber value ++
      ',' :: Json.writeEntries showNumber entries

end

def Env.showJson (env : Env) (value : Json) : String :=
  String.ofList (value.write env.showNumber)

structure Snapshot where
  states : Map EntityId EntityState
  vars : Map String Json
  now : Timestamp

/-- The plain value of a state's field, `null` while the entity hasn't said it; the main value
when no field is named. -/
def readOf (state : State) (field : Option ObjectId) : Json :=
  match field with
  | none => state.primary.toJson
  | some field => ((state.field field.text).map Typed.toJson).getD .null

/-- The entity's `field` as it is, or its main value when none is named. -/
def Read.ofField (entityId : EntityId) (field : Option ObjectId)
    (states : Map EntityId EntityState) : Read :=
  let state := states[entityId]?
  { entityId, field,
    availability := state.map EntityState.availability,
    value := ((state.bind EntityState.state).map (readOf · field)).getD .null }

def Read.of (entityId : EntityId) (states : Map EntityId EntityState) : Read :=
  Read.ofField entityId none states

structure Outcome (α : Type) where
  result : Except String α
  reads : List Read

def Outcome.holds (o : Outcome Bool) : Bool :=
  match o.result with
  | .ok holds => holds
  | .error _ => false

def Outcome.error? (o : Outcome Bool) : Option String :=
  match o.result with
  | .ok _ => none
  | .error e => some e

def addRead (into : List Read) (read : Read) : List Read :=
  if into.any (fun seen => seen.entityId = read.entityId) then into else into ++ [read]

def mergeReads (into reads : List Read) : List Read := reads.foldl addRead into

def epsilon : ℚ := 1 / 2 ^ 52

/-- Whether a value from a rule (`to: true`, `is: 21`) matches a state's plain value. -/
def valueMatches (wanted : TypedValue) (value : Json) : Bool :=
  match wanted, value with
  | .null, .null => true
  | .bool a, .bool b => a == b
  | .number a, .number b => |a - b.asF64| < epsilon
  | .text a, .string b => a == b
  | _, _ => false

def toJson (value : Value) (source : ExprString) : Except String Json :=
  match value with
  | .bool b => .ok (.bool b)
  | .int i => .ok (.number (.int i))
  | .uint u => .ok (.number (.int u))
  -- Every number is a decimal inside; a whole one reads as `45`.
  | .float f =>
    if f.den = 1 ∧ |f| < 9000000000000000 then .ok (.number (.int f.num))
    else .ok (.number (.float f))
  | .string s => .ok (.string s)
  | .null => .ok .null
  | .other shown => .error s!"`{source.text}` gave {shown}, not a plain value"

def fromJson (value : Json) : Value :=
  match value with
  | .bool b => .bool b
  | .number n => .float n.asF64
  | .string s => .string s
  | _ => .null

def look (states : Map EntityId EntityState) (id : String) (reads : List Read) :
    Except String (Option EntityState) × List Read :=
  match EntityId.parse id with
  | .error e => (.error e.display, reads)
  | .ok entity => (.ok states[entity]?, addRead reads (Read.of entity states))

/-- The entity's state, only if it's available and has a value. -/
def live (function : String) (states : Map EntityId EntityState) (id : String)
    (reads : List Read) : Except String State × List Read :=
  let (found, reads) := look states id reads
  let state : Except String State := do
    match ← found with
    | none => .error s!"{function}({debug id}): no such entity"
    | some state =>
      if state.availability = .unavailable then
        .error s!"{function}({debug id}): entity is unavailable"
      else match state.state with
        | none => .error s!"{function}({debug id}): entity has never reported a value"
        | some state => .ok state
  (state, reads)

def Typed.toValue : Typed → Value
  | .number n => .float n
  | .bool on => .bool on
  | .text said => .string said

/-- One of an entity's values beside its main one, read as `function` reads. -/
def readField (function : String) (shape : ValueShape) (state : State) (id field : String) :
    Except String Value :=
  match state.field field with
  | none =>
    .error s!"{function}({debug id}, {debug field}): the entity hasn't said its {field}"
  | some value =>
    if value.shape ≠ shape then
      let is := match value.shape with
        | .number => "a number — use num()"
        | .bool => "on/off — use on()"
        | .text => "text — use text()"
      .error s!"{function}({debug id}, {debug field}): {field} is {is}"
    else .ok value.toValue

def readNum (state : State) (id : String) : Except String Value :=
  match state.primary with
  | .number n => .ok (.float n)
  | .text _ => .error s!"num({debug id}): entity is text, not a number"
  | .bool _ =>
    .error s!"num({debug id}): entity is on/off, not a number — use on({debug id})"

def readOn (state : State) (id : String) : Except String Value :=
  match state.primary with
  | .bool on => .ok (.bool on)
  | .number _ => .error s!"on({debug id}): entity is a number, not on/off — use num({debug id})"
  | .text _ => .error s!"on({debug id}): entity is text, not on/off — use text({debug id})"

def readText (state : State) (id : String) : Except String Value :=
  match state.primary with
  | .text text => .ok (.string text)
  | .number _ => .error s!"text({debug id}): entity is a number"
  | .bool _ => .error s!"text({debug id}): entity is not a text sensor"

def readBrightness (state : State) (id : String) : Except String Value :=
  if state.kind = .light then
    match state.brightness with
    | some b => .ok (.float b.toNat)
    | none => .error s!"brightness({debug id}): the light hasn't said its brightness"
  else .error s!"brightness({debug id}): entity is not a light"

/-- `num(id)` reads the entity's main value; `num(id, 'position')` one of its others. -/
def valuedFn (name : String) (shape : ValueShape) (read : State → String → Except String Value)
    (states : Map EntityId EntityState) (args : List Value) (reads : List Read) :
    Except String Value × List Read :=
  match args with
  | [.string id] =>
    let (state, reads) := live name states id reads
    (state.bind (read · id), reads)
  | [.string id, .string field] =>
    let (state, reads) := live name states id reads
    (state.bind (readField name shape · id field), reads)
  | _ =>
    (.error (s!"{name}() takes an entity id, and the name of one of its values " ++
      "if not the main one"), reads)

/-- What `cel` says where a function that takes text is given something else, or nothing. -/
def textArgument (args : List Value) (i : Nat) : Except String String :=
  match args[i]? with
  | some (.string s) => .ok s
  | some other => .error s!"Unexpected type: got '{other.debug}', want 'String'"
  | none => .error s!"Invalid argument count: expected {i + 1}, got {args.length}"

def entityFn (args : List Value) (reads : List Read)
    (f : String → List Read → Except String Value × List Read) :
    Except String Value × List Read :=
  match textArgument args 0 with
  | .error e => (.error e, reads)
  | .ok id => f id reads

def numbers (name : String) (args : List Value) : Except String (List ℚ) :=
  args.mapM fun
    | .float f => .ok f
    | .int i => .ok i
    | .uint u => .ok u
    | other => .error s!"{name}() takes numbers, not {other.debug}"

def roundAway (q : ℚ) : ℚ :=
  if q < 0 then -(⌊-q + 1 / 2⌋ : ℤ) else (⌊q + 1 / 2⌋ : ℤ)

def attrOf (states : Map EntityId EntityState) (id key : String) (reads : List Read) :
    Except String Value × List Read :=
  let (found, reads) := look states id reads
  let value : Except String Value := do
    match ← found with
    | none => .error s!"attr({debug id}): no such entity"
    | some state =>
      if state.availability = .unavailable then
        .error s!"attr({debug id}): entity is unavailable"
      else match state.attributes.find? (fun entry => entry.1.text == key) with
        | some (_, value) => .ok (fromJson value)
        | none => .error s!"attr({debug id}, {debug key}): no such attribute"
  (value, reads)

def pureFn (snapshot : Snapshot) (clock : Clock) (place : Option Place) (name : String)
    (args : List Value) : Except String Value :=
  if name = varFn then do
    let name ← textArgument args 0
    match snapshot.vars[name]? with
    | some value => .ok (fromJson value)
    | none => .error s!"var({debug name}) hasn't been set on this path"
  else match name with
    | "now_ts" => .ok (.float (snapshot.now.tdiv 1000000000 : ℤ))
    | "min" => do
      match ← numbers "min" (args.take 2) with
      | [a, b] => .ok (.float (min a b))
      | _ => .error s!"Invalid argument count: expected 2, got {args.length}"
    | "max" => do
      match ← numbers "max" (args.take 2) with
      | [a, b] => .ok (.float (max a b))
      | _ => .error s!"Invalid argument count: expected 2, got {args.length}"
    | "round" => do
      match ← numbers "round" (args.take 1) with
      | [a] => .ok (.float (roundAway a))
      | _ => .error s!"Invalid argument count: expected 1, got {args.length}"
    | "clamp" => do
      match ← numbers "clamp" (args.take 3) with
      | [a, low, high] =>
        if low > high then
          .error s!"clamp(): the low end {low} is above the high end {high}"
        else .ok (.float (min (max a low) high))
      | _ => .error s!"Invalid argument count: expected 3, got {args.length}"
    | "hour" => match place with
      | some place => .ok (.int (clock.hourAndMinute place snapshot.now).1)
      | none => .error "hour() needs the home's time zone"
    | "minute" => match place with
      | some place => .ok (.int (clock.hourAndMinute place snapshot.now).2)
      | none => .error "minute() needs the home's time zone"
    | _ => .error s!"Undeclared reference to '{name}'"

def bind (clock : Clock) (place : Option Place) (snapshot : Snapshot) : Functions :=
  fun name args reads =>
    match name with
    | "num" => valuedFn "num" .number readNum snapshot.states args reads
    | "on" => valuedFn "on" .bool readOn snapshot.states args reads
    | "text" => valuedFn "text" .text readText snapshot.states args reads
    | "brightness" => entityFn args reads fun id reads =>
      let (state, reads) := live "brightness" snapshot.states id reads
      (state.bind (readBrightness · id), reads)
    | "available" => entityFn args reads fun id reads =>
      let (found, reads) := look snapshot.states id reads
      -- Gone at run time is "not available", not an error.
      (found.map fun state => .bool (state.any (·.availability = .available)), reads)
    | "unknown" => entityFn args reads fun id reads =>
      let (found, reads) := look snapshot.states id reads
      (found.map fun state => .bool (state.all (·.state.isNone)), reads)
    | "attr" => entityFn args reads fun id reads =>
      match textArgument args 1 with
      | .error e => (.error e, reads)
      | .ok key => attrOf snapshot.states id key reads
    | _ => (pureFn snapshot clock place name args, reads)

/-- What a window of time says when nobody has said what time zone the home is in. -/
def noZone : String := "time and sun windows need the home's time zone"

section Evaluator

variable (env : Env) (place : Option Place)

def evalValue (source : ExprString) (snapshot : Snapshot) : Outcome Json :=
  match env.cel.compile source with
  | .error e => ⟨.error e, []⟩
  | .ok expr =>
    let (result, reads) := env.cel.execute expr (bind env.clock place snapshot) []
    ⟨result.bind (toJson · source), reads⟩

def evalBoolean (source : ExprString) (snapshot : Snapshot) : Outcome Bool :=
  let outcome := evalValue env place source snapshot
  { reads := outcome.reads,
    result := outcome.result.bind fun
      | .bool b => .ok b
      | other => .error s!"`{source.text}` gave {env.showJson other}, not true or false" }

def stateHolds (entity : EntityId) (field : Option ObjectId) (is : Option TypedValue)
    (availability : Option AvailabilityWanted) (snapshot : Snapshot) : Outcome Bool :=
  let read := Read.ofField entity field snapshot.states
  let result : Except String Bool :=
    match snapshot.states[entity]? with
    | none => .error s!"{entity.text} isn't in the home"
    | some state =>
      let refused := availability.any fun wanted =>
        decide (state.availability = .available) != decide (wanted = .available)
      if refused then .ok false
      else match is with
        | none => .ok true
        | some is =>
          if state.availability = .unavailable then .error s!"{entity.text} is unavailable"
          else .ok (valueMatches is read.value)
  ⟨result, [read]⟩

/-- Every child is looked at, even once the answer is known, so the trace has each one's reading. -/
def combine (all : Bool) (children : List (Outcome Bool)) : Outcome Bool :=
  let decided := children.any fun child =>
    match child.result with
    | .ok holds => holds != all
    | .error _ => false
  let result : Except String Bool :=
    match decided, children.findSome? Outcome.error? with
    | true, _ => .ok (!all)
    -- In `all`, a child that can't be read can't be said to hold.
    | false, some error => if all then .error error else .ok all
    -- In `any`, it just isn't the one that holds.
    | false, none => .ok all
  ⟨result, children.foldl (fun reads child => mergeReads reads child.reads) []⟩

mutual

/-- Whether a condition holds now. An error (an unavailable sensor, say) counts as not holding. -/
def evalCondition : Condition → Snapshot → Outcome Bool
  | .state entity field is availability, snapshot =>
    stateHolds entity field is availability snapshot
  | .expr expr, snapshot => evalBoolean env place expr snapshot
  | .time after before weekday, snapshot =>
    ⟨match place with
      | some place => .ok (env.clock.inTimeWindow place after before weekday snapshot.now)
      | none => .error noZone, []⟩
  | .sun after before offset afterOffset beforeOffset, snapshot =>
    -- An end's own offset, or the one that moves both.
    let millis (own : Option CompactDuration) := ((own.or offset).map CompactDuration.millis).getD 0
    ⟨match place with
      | some place => env.clock.inSunWindow place after before (millis afterOffset)
          (millis beforeOffset) snapshot.now
      | none => .error noZone, []⟩
  | .all conditions, snapshot => combine true (evalConditions conditions snapshot)
  | .any conditions, snapshot => combine false (evalConditions conditions snapshot)
  | .not condition, snapshot =>
    let outcome := evalCondition condition snapshot
    ⟨outcome.result.map (!·), outcome.reads⟩

def evalConditions : List Condition → Snapshot → List (Outcome Bool)
  | [], _ => []
  | child :: rest, snapshot => evalCondition child snapshot :: evalConditions rest snapshot

end

/-- Whether a wait's level holds now (without its `for`, which the engine times). -/
def evalWait (waited : WaitUntil) (snapshot : Snapshot) : Outcome Bool :=
  match waited with
  | .state entity field is availability _ => stateHolds entity field is availability snapshot
  | .expr expr _ => evalBoolean env place expr snapshot

end Evaluator

lemma evalConditions_eq_map (env : Env) (place : Option Place) (snapshot : Snapshot)
    (conditions : List Condition) :
    evalConditions env place conditions snapshot =
      conditions.map (evalCondition env place · snapshot) := by
  induction conditions with
  | nil => simp [evalConditions]
  | cons child rest ih => simp [evalConditions, ih]

end Irori
