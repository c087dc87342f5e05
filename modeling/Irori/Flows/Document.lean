import Irori.Rules.Eval

/-!
# Flows

A flow is nodes joined by wires, drawn freely on a canvas: its document, the JSON that
identifies it, and the settings of its calls.
-/

namespace Irori

abbrev NodeId := ObjectId

inductive Port
  | out
  | yes
  | no
  | error
  | matched
  | timeout
  /-- A switch's case, from 1. -/
  | case (n : UInt8)
  | else
  deriving DecidableEq

namespace Port

def rank : Port → Nat
  | out => 0
  | yes => 1
  | no => 2
  | error => 3
  | matched => 4
  | timeout => 5
  | case n => 6 + n.toNat
  | «else» => 262

lemma rank_injective : Function.Injective rank := by
  intro a b h
  cases a <;> cases b <;> simp only [rank] at h <;> first
    | rfl
    | (rename_i n; have := n.toNat_lt; omega)
    | (rename_i n m; congr 1; apply UInt8.toNat_inj.mp; omega)
    | omega

instance : LinearOrder Port := LinearOrder.lift' rank rank_injective

def display : Port → String
  | out => "out"
  | yes => "yes"
  | no => "no"
  | error => "error"
  | matched => "matched"
  | timeout => "timeout"
  | case n => s!"case_{n.toNat}"
  | «else» => "else"

end Port

structure PortRef where
  node : NodeId
  port : Port

namespace PortRef

def key (p : PortRef) : NodeId ×ₗ Port := toLex (p.node, p.port)

lemma key_injective : Function.Injective key := by
  rintro ⟨a, p⟩ ⟨b, q⟩ h
  simpa [key] using h

instance : LinearOrder PortRef := LinearOrder.lift' key key_injective

/-- Written `node` for `out`, else `node:port`. -/
def display (p : PortRef) : String :=
  if p.port = .out then p.node.text else s!"{p.node.text}:{p.port.display}"

end PortRef

structure Wire where
  source : PortRef
  target : NodeId

namespace Wire

def key (w : Wire) : PortRef ×ₗ NodeId := toLex (w.source, w.target)

lemma key_injective : Function.Injective key := by
  rintro ⟨a, p⟩ ⟨b, q⟩ h
  simpa [key] using h

instance : LinearOrder Wire := LinearOrder.lift' key key_injective

instance transCmp : Std.TransCmp (compare : Wire → Wire → Ordering) := inferInstance

def display (w : Wire) : String := s!"{w.source.display} → {w.target.text}"

end Wire

inductive Amount
  | worked (expr : ExprString)
  | fixed (value : Json)

/-- A call's settings, by the service's own field names. -/
abbrev FlowCallData := Map String Amount

inductive JoinMode
  | all
  /-- Let the first through; the rest end here. -/
  | first
  deriving DecidableEq

inductive Node
  | trigger (trigger : Trigger)
  | gate (condition : Condition)
  | switch (cases : List Condition)
  | call (service : RuleService) (entity : EntityId) (data : Option FlowCallData)
  | set (name : ObjectId) (expr : ExprString)
  | delay (hold : CompactDuration)
  /-- Waits for a level to hold: `matched`, or `timeout`. -/
  | wait (level : WaitUntil) (timeout : CompactDuration)
  /-- Brings paths of one run back together. -/
  | join (mode : JoinMode) (timeout : Option CompactDuration)
  | stop (reason : Option String)

namespace Node

def ports : Node → List Port
  | trigger _ => [.out]
  | set _ _ => [.out]
  | delay _ => [.out]
  | gate _ => [.yes, .no]
  | switch cases =>
    ((List.range cases.length).filterMap fun i =>
      if i + 1 < 256 then some (.case (UInt8.ofNat (i + 1))) else none) ++ [.else]
  | call .. => [.out, .error]
  | wait .. => [.matched, .timeout]
  | join .all _ => [.out, .timeout]
  | join .first _ => [.out]
  | stop _ => []

def isTrigger : Node → Bool
  | trigger _ => true
  | _ => false

def isJoin : Node → Bool
  | join .. => true
  | _ => false

def kind : Node → String
  | trigger _ => "trigger"
  | gate _ => "gate"
  | switch _ => "switch"
  | call .. => "call"
  | set .. => "set"
  | delay _ => "delay"
  | wait .. => "wait"
  | join .. => "join"
  | stop _ => "stop"

end Node

/-- One flow, as stored, less where its nodes sit on the canvas. -/
structure Flow where
  id : RuleId
  name : String
  description : Option String
  /-- Whose it is; absent means the home's own. Not part of the version. -/
  owner : Option UserId
  /-- Off keeps the file and its history, but nothing runs. Not part of the version. -/
  enabled : Bool
  mode : Mode
  nodes : Map NodeId Node
  wires : List Wire

namespace Flow

def wiresFrom (flow : Flow) (node : NodeId) (port : Port) : List Wire :=
  flow.wires.filter fun wire => wire.source.node = node ∧ wire.source.port = port

def wiresInto (flow : Flow) (node : NodeId) : List Wire :=
  flow.wires.filter fun wire => wire.target = node

@[simp] lemma mem_wiresFrom {flow : Flow} {node : NodeId} {port : Port} {w : Wire} :
    w ∈ flow.wiresFrom node port ↔ w ∈ flow.wires ∧ w.source = ⟨node, port⟩ := by
  obtain ⟨⟨a, p⟩, b⟩ := w
  simp [wiresFrom]

end Flow

def CompactDuration.positive (d : CompactDuration) : Bool := 0 < d.millis

/-- What reading a node checks of its durations: every one of them is positive. -/
def Node.durationsPositive : Node → Bool
  | .trigger (.state _ _ _ _ _ _ hold) => hold.all CompactDuration.positive
  | .delay hold => hold.positive
  | .wait level timeout => level.hold.all CompactDuration.positive && timeout.positive
  | .join _ timeout => timeout.all CompactDuration.positive
  | _ => true

def Flow.durationsPositive (flow : Flow) : Prop :=
  ∀ (id : NodeId) (node : Node), flow.nodes[id]? = some node → node.durationsPositive = true

section ToJson

def optional (key : String) (value : Option Json) : List (String × Json) :=
  (value.map fun value => (key, value)).toList

def AvailabilityWanted.toJson : AvailabilityWanted → Json
  | .available => .string "available"
  | .unavailable => .string "unavailable"

def TypedValue.toJson : TypedValue → Json
  | .bool b => .bool b
  | .number n => .number (.float n)
  | .text said => .string said
  | .null => .null

def Values.toJson : Values → Json
  | .one value => value.toJson
  | .any values => .array (values.map TypedValue.toJson)

def Weekday.toJson : Weekday → Json
  | .mon => .string "mon"
  | .tue => .string "tue"
  | .wed => .string "wed"
  | .thu => .string "thu"
  | .fri => .string "fri"
  | .sat => .string "sat"
  | .sun => .string "sun"

def SunEvent.text : SunEvent → String
  | .sunrise => "sunrise"
  | .sunset => "sunset"
  | .dawn => "dawn"
  | .dusk => "dusk"
  | .noon => "noon"
  | .midnight => "midnight"

def CompactDuration.toJson (d : CompactDuration) : Json := .string d.text

def ExprString.toJson (e : ExprString) : Json := .string e.text

def jsonText (text : String) : Json := .string text

def jsonFloat (n : ℚ) : Json := .number (.float n)

def Trigger.toJson : Trigger → Json
  | .state entity field from_ to_ above below hold =>
    .object ([("type", .string "state"), ("entity", .string entity.text)] ++
      optional "field" (field.map (jsonText ·.text)) ++ optional "from" (from_.map Values.toJson) ++
      optional "to" (to_.map Values.toJson) ++ optional "above" (above.map jsonFloat) ++
      optional "below" (below.map jsonFloat) ++ optional "for" (hold.map CompactDuration.toJson))
  | .time at_ cron weekday =>
    .object ([("type", .string "time")] ++ optional "at" (at_.map jsonText) ++
      optional "cron" (cron.map jsonText) ++
      optional "weekday" (weekday.map fun days => .array (days.map Weekday.toJson)))
  | .sun moment offset =>
    .object ([("type", .string "sun"), ("event", .string moment.text)] ++
      optional "offset" (offset.map CompactDuration.toJson))
  | .event name data =>
    .object ([("type", .string "event"), ("event", .string name)] ++
      optional "data" (data.map fun data => .object (data.map fun (k, v) => (k.text, v))))
  | .startup => .object [("type", .string "startup")]

mutual

def Condition.toJson : Condition → Json
  | .state entity field is availability =>
    .object ([("type", .string "state"), ("entity", .string entity.text)] ++
      optional "field" (field.map (jsonText ·.text)) ++ optional "is" (is.map TypedValue.toJson) ++
      optional "availability" (availability.map AvailabilityWanted.toJson))
  | .expr source => .object [("type", .string "expr"), ("expr", source.toJson)]
  | .time after before weekday =>
    .object ([("type", .string "time")] ++ optional "after" (after.map jsonText) ++
      optional "before" (before.map jsonText) ++
      optional "weekday" (weekday.map fun days => .array (days.map Weekday.toJson)))
  | .sun after before offset afterOffset beforeOffset =>
    .object ([("type", .string "sun")] ++ optional "after" (after.map (jsonText ·.text)) ++
      optional "before" (before.map (jsonText ·.text)) ++
      optional "offset" (offset.map CompactDuration.toJson) ++
      optional "after_offset" (afterOffset.map CompactDuration.toJson) ++
      optional "before_offset" (beforeOffset.map CompactDuration.toJson))
  | .all conditions =>
    .object [("type", .string "all"), ("conditions", .array (Condition.toJsons conditions))]
  | .any conditions =>
    .object [("type", .string "any"), ("conditions", .array (Condition.toJsons conditions))]
  | .not condition =>
    .object [("type", .string "not"), ("condition", Condition.toJson condition)]

def Condition.toJsons : List Condition → List Json
  | [] => []
  | condition :: rest => Condition.toJson condition :: Condition.toJsons rest

end

def WaitUntil.toJson : WaitUntil → Json
  | .state entity field is availability hold =>
    .object ([("type", .string "state"), ("entity", .string entity.text)] ++
      optional "field" (field.map (jsonText ·.text)) ++ optional "is" (is.map TypedValue.toJson) ++
      optional "availability" (availability.map AvailabilityWanted.toJson) ++
      optional "for" (hold.map CompactDuration.toJson))
  | .expr source hold =>
    .object ([("type", .string "expr"), ("expr", source.toJson)] ++
      optional "for" (hold.map CompactDuration.toJson))

def Amount.toJson : Amount → Json
  | .worked expr => .object [("expr", expr.toJson)]
  | .fixed value => value

def Node.toJson : Node → Json
  | .trigger t => .object [("type", .string "trigger"), ("trigger", t.toJson)]
  | .gate condition => .object [("type", .string "gate"), ("condition", condition.toJson)]
  | .switch cases =>
    .object [("type", .string "switch"), ("cases", .array (Condition.toJsons cases))]
  | .call service entity data =>
    .object ([("type", .string "call"), ("service", .string service.display),
      ("entity", .string entity.text)] ++
      optional "data" (data.map fun data => .object (data.toList.map fun (k, v) => (k, v.toJson))))
  | .set name expr =>
    .object [("type", .string "set"), ("name", .string name.text), ("expr", expr.toJson)]
  | .delay hold => .object [("type", .string "delay"), ("for", hold.toJson)]
  | .wait level timeout =>
    .object [("type", .string "wait"), ("until", level.toJson), ("timeout", timeout.toJson)]
  | .join mode timeout =>
    .object ([("type", .string "join"),
      ("mode", .string (match mode with | .all => "all" | .first => "first"))] ++
      optional "timeout" (timeout.map CompactDuration.toJson))
  | .stop reason =>
    .object ([("type", .string "stop")] ++ optional "reason" (reason.map jsonText))

def Mode.toJson : Mode → Json
  | .named .single => .string "single"
  | .named .restart => .string "restart"
  | .limited (.queued max) =>
    .object [("type", .string "queued"), ("max", .number (.int max.toNat))]
  | .limited (.parallel max) =>
    .object [("type", .string "parallel"), ("max", .number (.int max.toNat))]

def Wire.toJson (w : Wire) : Json :=
  .array [.string w.source.display, .string w.target.text]

/-- The fields of a flow's object that are part of its version; the rest are taken out before it
is hashed. -/
def Flow.entries (flow : Flow) (wires : List Json) : List (String × Json) :=
  [("id", .string flow.id.text), ("name", .string flow.name)] ++
    optional "description" (flow.description.map jsonText) ++
    (if flow.mode.isSingle then [] else [("mode", flow.mode.toJson)]) ++
    [("nodes", .object (flow.nodes.toList.map fun (id, node) => (id.text, node.toJson)))] ++
    (if wires.isEmpty then [] else [("wires", .array wires)])

end ToJson

mutual

def Json.sortKeys : Json → Json
  | .object entries =>
    .object ((Json.sortKeysEntries entries).insertionSort fun a b => a.1 ≤ b.1)
  | .array items => .array (Json.sortKeysItems items)
  | value => value

def Json.sortKeysItems : List Json → List Json
  | [] => []
  | item :: items => Json.sortKeys item :: Json.sortKeysItems items

def Json.sortKeysEntries : List (String × Json) → List (String × Json)
  | [] => []
  | (key, value) :: entries => (key, Json.sortKeys value) :: Json.sortKeysEntries entries

end

/-- The canonical JSON the version is the hash of: keys sorted, wires sorted, no whitespace. -/
def Flow.canonicalJson (env : Env) (flow : Flow) : String :=
  let wires := (flow.wires.map Wire.toJson).insertionSort
    fun a b => env.showJson a ≤ env.showJson b
  env.showJson (Json.object (flow.entries wires)).sortKeys

/-- Which definition this is: lowercase hex SHA-256 of the canonical JSON. -/
def Flow.version (env : Env) (flow : Flow) : String := env.sha256 (flow.canonicalJson env)

/-- A number as JSON: whole when it is, so a field that takes whole numbers reads it. -/
def jsonNumber (n : ℚ) : Json :=
  if n.den = 1 ∧ |n| < 1000000000000000 then .number (.int n.num) else .number (.float n)

/-- `value` rounded if its field takes whole numbers, and brought into the field's range. -/
def bringIn (value : ℚ) (field : Option NumberField) : ℚ :=
  match field with
  | none => value
  | some field =>
    let value := if field.integer then roundAway value else value
    let value := (field.min.map fun low => max value low).getD value
    (field.max.map fun high => min value high).getD value

/-- A number from a field's range, `along` of the way from its low end to its high end. Where the
range has no far end to go towards, a different number for each `along` all the same. -/
def standIn (field : Option NumberField) (along : ℚ) : Json :=
  let value := match field.bind NumberField.min, field.bind NumberField.max with
    | some low, some high => if low < high then low + (high - low) * along else low + along * 2
    | some low, none => low + along * 2
    | none, some high => high + along * 2
    | none, none => 1 + along * 2
  jsonNumber (bringIn value field)

/-- A number as a person writes it: `58`, `57.5`. -/
def trim (env : Env) (n : ℚ) : String :=
  if n.den = 1 then toString n.num else env.showFloat (roundAway (n * 100) / 100)

namespace FlowCallData

def exprs (data : FlowCallData) : List (String × ExprString) :=
  data.toList.filterMap fun
    | (field, .worked expr) => some (field, expr)
    | (_, .fixed _) => none

/-- The settings with every worked-out number standing in as one `along` its field's range. -/
def shape (env : Env) (data : FlowCallData) (service : RuleService) (along : ℚ) : CallData :=
  Std.ExtTreeMap.ofList (data.toList.map fun
    | (field, .worked _) => (field, standIn (env.numberField service field) along)
    | (field, .fixed value) => (field, value)) compare

/-- The settings from `fields` on worked out by `eval`, with a note for each worked-out one and
what was read on the way. -/
def resolveFields (env : Env) (service : RuleService) (eval : ExprString → Outcome ℚ) :
    List (String × Amount) → Outcome (List (String × Json) × List String)
  | [] => ⟨.ok ([], []), []⟩
  | (field, .fixed value) :: rest =>
    let others := resolveFields env service eval rest
    ⟨others.result.map fun (data, notes) => ((field, value) :: data, notes), others.reads⟩
  | (field, .worked expr) :: rest =>
    let outcome := eval expr
    match outcome.result with
    | .error e => ⟨.error s!"{field}: {e}", outcome.reads⟩
    | .ok value =>
      let kept := bringIn value (env.numberField service field)
      let note :=
        if kept = value then s!"{field} {trim env kept}"
        else s!"{field} {trim env value} → {trim env kept}"
      let others := resolveFields env service eval rest
      ⟨others.result.map fun (data, notes) => ((field, jsonNumber kept) :: data, note :: notes),
        outcome.reads ++ others.reads⟩

/-- The settings with every expression worked out by `eval`, rounded and brought into each field's
range, and a note for each worked-out one. -/
def resolve (env : Env) (data : FlowCallData) (service : RuleService)
    (eval : ExprString → Outcome ℚ) : Outcome (CallData × List String) :=
  let fields := resolveFields env service eval data.toList
  ⟨fields.result.map fun (data, notes) => (Std.ExtTreeMap.ofList data compare, notes),
    fields.reads⟩

end FlowCallData

end Irori
