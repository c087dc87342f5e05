import Irori.Rules.Eval

/-!
# Checking rules against the home

The parse, the allow-list over syntax trees, and the type check against the registry.
-/

namespace Irori

/-- What the checks ask of an entity the home has: its kind, the shape of its main value, its
other values, the texts it can be, and what it refuses to do. -/
structure Entity where
  id : EntityId
  kind : EntityKind
  /-- `none` for an entity with no value, a button. -/
  primaryShape : Option ValueShape
  fields : List (String × ValueShape)
  /-- Every text its main value can be, when that's a fixed list. -/
  textOptions : Option (List String)
  brightness : Bool
  refuses : RuleService → Option CallData → Option String

def Entity.fieldShape (entity : Entity) (name : String) : Option ValueShape :=
  entity.fields.lookup name

structure RegistryView where
  entity : EntityId → Option Entity
  hasTimezone : Bool
  hasLocation : Bool

inductive VarKind
  | bool
  | number
  | string
  /-- `attr()`: whatever the protocol put there. -/
  | scalar
  deriving DecidableEq

structure RuleProblem where
  path : String
  reason : String
  deriving DecidableEq

def startsWith (text start : String) : Bool := start.toList.isPrefixOf text.toList

def entityFns : List String :=
  ["num", "on", "text", "brightness", "available", "unknown", "attr"]

def clockFns : List String := ["hour", "minute", "now_ts"]

/-- Maths on numbers: `min(a, b)`, `max(a, b)`, `round(x)`, `clamp(x, low, high)`. -/
def mathFns : List String := ["min", "max", "round", "clamp"]

def ops : List String :=
  ["_&&_", "_||_", "!_", "_+_", "_-_", "_*_", "_/_", "_==_", "_!=_", "_>=_", "_<=_", "_>_", "_<_",
    "-_", "_?_:_"]

/-- How many arguments a function takes, where it takes a fixed number. -/
def arity (name : String) (n : Nat) : Option Nat :=
  if name ∈ ["num", "on", "text"] ∧ n = 2 then some 2
  else if name ∈ ["num", "on", "text", "brightness", "available", "unknown", "var"] then some 1
  else if name ∈ ["attr", "min", "max"] then some 2
  else if name = "round" then some 1
  else if name = "clamp" then some 3
  else if name ∈ ["hour", "minute", "now_ts"] then some 0
  else if name ∈ ["!_", "-_"] then some 1
  else if name ∈ ["_&&_", "_||_", "_+_", "_-_", "_*_", "_/_", "_==_", "_!=_", "_>=_", "_<=_",
    "_>_", "_<_"] then some 2
  else if name = "_?_:_" then some 3
  else none

def checkArity (name : String) (n : Nat) : Except String Unit :=
  match arity name n with
  | some expected =>
    if n ≠ expected then .error s!"{name}() takes {expected} argument(s), not {n}" else .ok ()
  | none => .ok ()

/-- Whether `entity` can ever report `text`: always, unless it lists its options. -/
def textCanBe (entity : Entity) (text : String) : Except String Unit :=
  match entity.textOptions with
  | some options =>
    let known := String.intercalate ", " options
    if !options.contains text then
      .error s!"{entity.id.text} is never {debug text}; it is one of: {known}"
    else .ok ()
  | none => .ok ()

/-- The entity id in `text('id')`, if `expr` is that call. -/
def textOf : Expr → Option String
  | .call funcName [arg] => if authorName funcName = "text" then arg.stringLiteral else none
  | .memberCall _ funcName [arg] =>
    if authorName funcName = "text" then arg.stringLiteral else none
  | _ => none

/-- `text('id') == 'x'` (either way round, or `!=`): `x` must be something the entity can say. -/
def checkTextComparison (args : List Expr) (registry : RegistryView) : Except String Unit :=
  match args with
  | [left, right] =>
    let compared := match textOf left, right.stringLiteral with
      | some id, some literal => some (id, literal)
      | _, _ => match textOf right, left.stringLiteral with
        | some id, some literal => some (id, literal)
        | _, _ => none
    match compared with
    | none => .ok ()
    | some (id, literal) =>
      match (EntityId.parse id).toOption.bind registry.entity with
      | some entity => textCanBe entity literal
      | none => .ok ()
  | _ => .ok ()

def checkFnAgainstRegistry (name : String) (id : EntityId) (registry : RegistryView) :
    Except String Unit :=
  match registry.entity id with
  | none => .error s!"{name}(\"{id.text}\"): no such entity — check the entity id"
  | some entity =>
    match entity.primaryShape with
    | none =>
      -- `available()` and `unknown()` are about the entity, not a value, so they still apply.
      if name ∈ ["num", "text", "on", "brightness"] then
        .error (s!"{name}(\"{id.text}\"): entity is a {entity.kind.domain}, " ++
          "which has no value to read")
      else .ok ()
    | some shape =>
      if name = "num" then
        if shape = .number then .ok ()
        else
          let instead := if shape = .text then "text" else "on"
          .error (s!"num(\"{id.text}\"): entity is {entity.kind.domain}, " ++
            s!"not a numeric sensor — use {instead}(\"{id.text}\")")
      else if name = "text" then
        if shape = .text then .ok ()
        else .error s!"text(\"{id.text}\"): entity is not a text sensor"
      else if name = "on" then
        match shape with
        | .bool => .ok ()
        | .text =>
          .error (s!"on(\"{id.text}\"): entity is text, not on/off — " ++
            s!"use text(\"{id.text}\")")
        | .number =>
          .error (s!"on(\"{id.text}\"): entity is a number, not on/off — " ++
            s!"use num(\"{id.text}\")")
      else if name = "brightness" then
        if entity.kind = .light then
          if entity.brightness then .ok ()
          else .error s!"brightness(\"{id.text}\"): this light is not dimmable"
        else .error s!"brightness(\"{id.text}\"): entity is not a light"
      else .ok ()

def shapeWords : ValueShape → String
  | .number => "a number"
  | .bool => "on/off"
  | .text => "text"

def shapeFn : ValueShape → String
  | .number => "num"
  | .bool => "on"
  | .text => "text"

/-- `num(id, 'position')`: the entity has to have a value by that name, of the shape the function
reads. -/
def checkFieldAgainstRegistry (name : String) (id : EntityId) (field : String)
    (registry : RegistryView) : Except String Unit :=
  let here := s!"{name}(\"{id.text}\", \"{field}\")"
  match registry.entity id with
  | none => .error s!"{here}: no such entity — check the entity id"
  | some entity =>
    let wanted := if name = "num" then ValueShape.number else if name = "on" then .bool else .text
    match entity.fieldShape field with
    | some shape =>
      if shape = wanted then .ok ()
      else .error (s!"{here}: {field} is {shapeWords shape} — use " ++
        s!"{shapeFn shape}(\"{id.text}\", \"{field}\")")
    | none =>
      if entity.fields.isEmpty then
        .error (s!"{here}: a {entity.kind.domain} has only its main value — " ++
          s!"use {name}(\"{id.text}\")")
      else .error (s!"{here}: it has no {field}; it has: " ++
        String.intercalate ", " (entity.fields.map Prod.fst))

/-- A call that reads an entity: the entity it names. -/
def checkEntityFn (name : String) (args : List Expr) (registry : RegistryView) :
    Except String EntityId :=
  match args with
  | [] => .error s!"{name}() needs a string literal entity id"
  | first :: rest =>
    match first.stringLiteral with
    | none => .error s!"{name}() needs a string literal entity id, not an expression"
    | some id =>
      match EntityId.parse id with
      | .error e => .error e.display
      | .ok entityId =>
        if name ≠ "attr" then
          match rest with
          | [] => (checkFnAgainstRegistry name entityId registry).map fun _ => entityId
          | second :: _ =>
            match second.stringLiteral with
            | none => .error s!"{name}() needs a string literal field name, not an expression"
            | some field =>
              (checkFieldAgainstRegistry name entityId field registry).map fun _ => entityId
        else if (registry.entity entityId).isNone then
          .error s!"{name}({debug id}): no such entity — check the entity id"
        else match rest.head?.bind Expr.stringLiteral with
          | none => .error "attr() needs a string literal key, not an expression"
          | some key =>
            match (Slug.parse "attribute key" key : Except IdError AttributeKey) with
            | .error e => .error e.display
            | .ok _ => .ok entityId

/-- A `var()`: it has to name, in a string literal, a variable that has a type. -/
def checkVarFn (args : List Expr) (sets : Map String VarKind) : Except String Unit :=
  match args with
  | [] => .error "var() needs a string literal name"
  | first :: _ =>
    match first.stringLiteral with
    | none => .error "var() needs a string literal name, not an expression"
    | some varName =>
      match (Slug.parse "object id" varName : Except IdError ObjectId) with
      | .error e => .error e.display
      | .ok _ =>
        if (sets[varName]?).isNone then
          .error s!"var({debug varName}): no set for this name in the rule"
        else .ok ()

/-- What a walk over an expression found: the entities it reads, whether it reads the clock. -/
structure Walked where
  ids : List EntityId
  usesClock : Bool

def Walked.none : Walked := ⟨[], false⟩

def Walked.and (a b : Walked) : Walked := ⟨a.ids ++ b.ids, a.usesClock || b.usesClock⟩

def checkComparison (name : String) (args : List Expr) (registry : RegistryView) :
    Except String Unit :=
  if name = "_==_" ∨ name = "_!=_" then checkTextComparison args registry else .ok ()

/-- The function a call names, on its arguments: the entity it reads, if it reads one. -/
def checkCallee (name : String) (args : List Expr) (registry : RegistryView)
    (sets : Map String VarKind) : Except String (List EntityId) :=
  if name ∈ entityFns then (checkEntityFn name args registry).map fun id => [id]
  else if name = "var" then (checkVarFn args sets).map fun _ => []
  else if name ∈ ops ∨ name ∈ clockFns ∨ name ∈ mathFns then .ok []
  else .error s!"unknown function {name}()"

def checkCallExpr (registry : RegistryView) (sets : Map String VarKind) (call : CallExpr) :
    Except String Walked :=
  let name := authorName call.funcName
  if name ∈ ["has", "duration", "timestamp"] then
    .error s!"{name}() isn't allowed in rule expressions"
  else if name ∈ ["map", "filter", "exists", "exists_one", "all"] then
    .error "macros like map/filter/exists aren't allowed"
  else do
    checkArity name call.args.length
    checkComparison name call.args registry
    let ids ← checkCallee name call.args registry sets
    return ⟨ids, clockFns.contains name⟩

mutual

/-- The walk over an expression; it stops at the first thing it refuses. -/
def walkAst (registry : RegistryView) (sets : Map String VarKind) : Expr → Except String Walked
  | .unspecified => .ok .none
  | .literal _ => .ok .none
  | .ident name =>
    .error s!"unknown name {debug name}; use num/on/… with a string literal entity id"
  | .list _ => .error "lists, maps, and structs aren't allowed in rule expressions"
  | .map _ _ => .error "lists, maps, and structs aren't allowed in rule expressions"
  | .struct _ _ _ => .error "lists, maps, and structs aren't allowed in rule expressions"
  | .select _ _ => .error "field access isn't allowed; use num/on/text/…"
  | .comprehension .. => .error "macros like map/filter/exists aren't allowed"
  | .call funcName args => do
    let here ← checkCallExpr registry sets ⟨funcName, args⟩
    let inside ← walkArgs registry sets args
    return here.and inside
  | .memberCall target funcName args => do
    let here ← checkCallExpr registry sets ⟨funcName, args⟩
    let inside ← walkArgs registry sets args
    let on ← walkAst registry sets target
    return (here.and inside).and on

def walkArgs (registry : RegistryView) (sets : Map String VarKind) :
    List Expr → Except String Walked
  | [] => .ok .none
  | arg :: args => do
    let first ← walkAst registry sets arg
    let others ← walkArgs registry sets args
    return first.and others

end

def inferCall (sets : Map String VarKind) (call : CallExpr)
    (args : List (Except String VarKind)) : Except String VarKind :=
  let name := authorName call.funcName
  if name ∈ ["num", "brightness", "hour", "minute", "now_ts", "_+_", "_-_", "_*_", "_/_", "-_"] then
    .ok .number
  else if name ∈ ["min", "max", "round", "clamp"] then do
    for arg in args do
      let kind ← arg
      if kind ≠ .number ∧ kind ≠ .scalar then .error s!"{name}() takes numbers"
    return .number
  else if name ∈ ["on", "available", "unknown", "_&&_", "_||_", "!_", "_==_", "_!=_", "_>=_",
    "_<=_", "_>_", "_<_"] then .ok .bool
  else if name = "text" then .ok .string
  else if name = "attr" then .ok .scalar
  else if name = "var" then
    match call.args.head?.bind Expr.stringLiteral with
    | none => .error "var() needs a string literal name"
    | some varName =>
      match sets[varName]? with
      | some kind => .ok kind
      | none => .error s!"var({debug varName}): no set for this name in the rule"
  else if name = "_?_:_" then do
    let left ← args[1]?.getD (.error "ternary needs two branches")
    let right ← args[2]?.getD (.error "ternary needs two branches")
    if left = right then return left
    else if left = .scalar then return right
    else if right = .scalar then return left
    else .error "ternary branches must be the same type"
  -- Operators already handled; unknown names are rejected by the walk.
  else args.head?.getD (.error "this expression shape isn't allowed")

mutual

def inferType (sets : Map String VarKind) : Expr → Except String VarKind
  | .literal (.boolean _) => .ok .bool
  | .literal (.int _) => .ok .number
  | .literal (.uint _) => .ok .number
  | .literal (.double _) => .ok .number
  | .literal (.string _) => .ok .string
  | .literal .null => .error "null and bytes literals aren't allowed in rule expressions"
  | .literal (.bytes _) => .error "null and bytes literals aren't allowed in rule expressions"
  | .call funcName args => inferCall sets ⟨funcName, args⟩ (inferArgs sets args)
  | .memberCall _ funcName args => inferCall sets ⟨funcName, args⟩ (inferArgs sets args)
  | .unspecified => .error "empty expression"
  | _ => .error "this expression shape isn't allowed"

def inferArgs (sets : Map String VarKind) : List Expr → List (Except String VarKind)
  | [] => []
  | arg :: args => inferType sets arg :: inferArgs sets args

end

structure Inspected where
  ids : List EntityId
  usesClock : Bool
  kind : VarKind

/-- Parses an expression inside the allowed surface and type-checks it against the registry, with
`vars` the run variables it may read. -/
def inspect (cel : Cel) (expr : ExprString) (registry : RegistryView)
    (vars : Map String VarKind) : Except String Inspected := do
  let ast ← cel.compile expr
  let walked ← walkAst registry vars ast
  let kind ← inferType vars ast
  return ⟨walked.ids, walked.usesClock, kind⟩

mutual

/-- The variables the calls of an expression name; what isn't a call isn't looked into. -/
def varsIn : Expr → List String
  | .call funcName args =>
    (if authorName funcName = "var" then (args.head?.bind Expr.stringLiteral).toList else []) ++
      varsInArgs args
  | .memberCall target funcName args =>
    (if authorName funcName = "var" then (args.head?.bind Expr.stringLiteral).toList else []) ++
      (varsInArgs args ++ varsIn target)
  | _ => []

def varsInArgs : List Expr → List String
  | [] => []
  | arg :: args => varsIn arg ++ varsInArgs args

end

/-- The run variables an expression reads (`var('name')`). Empty if it doesn't parse. -/
def varsRead (cel : Cel) (expr : ExprString) : List String :=
  match cel.compile expr with
  | .ok ast => varsIn ast
  | .error _ => []

def zoneProblem : String :=
  "time triggers need the home's time zone; set the time zone in Settings → Location and time zone"

def checkSunGate (path : String) (registry : RegistryView) : List RuleProblem :=
  (if registry.hasTimezone then [] else
    [⟨path, "the sun needs the home's time zone; set the time zone in Settings → " ++
      "Location and time zone"⟩]) ++
  (if registry.hasLocation then [] else
    [⟨path, "the sun needs to know where the home is; set the location in Settings → " ++
      "Location and time zone"⟩])

/-- The entity has to have a value by the name a trigger, condition or wait reads. -/
def checkField (path : String) (id : EntityId) (field : Option ObjectId)
    (registry : RegistryView) : List RuleProblem :=
  match field, registry.entity id with
  | some field, some entity =>
    if (entity.fieldShape field.text).isSome then []
    else if entity.fields.isEmpty then
      [⟨s!"{path}/field", s!"{id.text} is a {entity.kind.domain}, which has only its main value; " ++
        "leave `field` out"⟩]
    else
      [⟨s!"{path}/field", s!"{id.text} has no {field.text}; it has: " ++
        String.intercalate ", " (entity.fields.map Prod.fst)⟩]
  | _, _ => []

/-- The shape of what a trigger, condition or wait reads: the named field's, or the main value's.
`none` for a field the entity doesn't have. -/
def readShape (entity : Entity) (field : Option ObjectId) : Option (Option ValueShape) :=
  match field with
  | some field => (entity.fieldShape field.text).map some
  | none => some entity.primaryShape

def typedValueFits (value : TypedValue) (entity : Entity) (field : Option ObjectId) :
    Except String Unit :=
  let fits (shape : ValueShape) (what : String) : Except String Unit :=
    match readShape entity field with
    | none => .ok ()
    | some none =>
      .error s!"{entity.id.text} is a {entity.kind.domain}, which has no value to compare"
    | some (some has) =>
      if has = shape then
        match field, value with
        | none, .text text => textCanBe entity text
        | _, _ => .ok ()
      else match field with
        | some field =>
          .error s!"`is` is {what}, but {entity.id.text}'s {field.text} is {shapeWords has}"
        | none => .error s!"`is` is {what}, but {entity.id.text} is a {entity.kind.domain}"
  match value with
  | .null => .ok ()
  | .bool _ => fits .bool "a boolean"
  | .number _ => fits .number "a number"
  | .text _ => fits .text "a string"

def problemOf (path : String) (fits : Except String Unit) : List RuleProblem :=
  match fits with
  | .ok () => []
  | .error reason => [⟨path, reason⟩]

/-- The values a trigger, condition or wait compares an entity with. `toField` is given where the
entity is asked what it *is*, not what it changes to. -/
def checkStateMatch (path : String) (id : EntityId) (field : Option ObjectId)
    (from_ to_ : Option TypedValue) (toField : Option String) (registry : RegistryView) :
    List RuleProblem :=
  match registry.entity id with
  | none => [⟨path, s!"no such entity {id.text} — check the entity id"⟩]
  | some entity =>
    let what := entity.kind.domain
    if entity.kind.countsEveryReport ∧ toField.isSome then
      [⟨path, s!"{id.text} is a {what}: each one happens and is over, so there's nothing it " ++
        "stays at to check. Start the flow from it with a trigger instead"⟩]
    else if entity.kind.countsEveryReport ∧ from_.isSome then
      [⟨s!"{path}/from", s!"{id.text} is a {what}: it has no value to have changed from"⟩]
    else
      (match from_ with
        | some value => problemOf s!"{path}/from" (typedValueFits value entity field)
        | none => []) ++
      (match to_ with
        | some value =>
          let field_ := toField.getD "to"
          problemOf s!"{path}/{field_}" (typedValueFits value entity field)
        | none => [])

/-- Checks one trigger against the home; problems are reported at `here`. -/
def checkTrigger (clock : Clock) (here : String) (trigger : Trigger) (registry : RegistryView) :
    List RuleProblem :=
  match trigger with
  | .state entity field from_ to_ above below hold =>
    let happens := match registry.entity entity with
      | some found =>
        if found.kind.countsEveryReport then
          let why (given : Bool) (at_ reason : String) : List RuleProblem :=
            if given then
              [⟨s!"{here}/{at_}", s!"{entity.text} is a {found.kind.domain}: {reason}"⟩]
            else []
          why hold.isSome "for" "it happens and is over, so it can't hold for a time" ++
            why above.isSome "above" "it isn't a number" ++
            why below.isSome "below" "it isn't a number"
        else []
      | none => []
    let fromValues := (from_.map Values.iter).getD []
    let toValues := (to_.map Values.iter).getD []
    let same := match from_.isSome && to_.isSome, fromValues, toValues with
      | true, [was], [becomes] =>
        if was = becomes then
          [⟨s!"{here}/from", "`from` and `to` are the same value, and a change is to something " ++
            "else, so this never fires"⟩]
        else []
      | _, _, _ => []
    let level := match registry.entity entity with
      | some found =>
        if above.isSome ∨ below.isSome then
          match readShape found field with
          | some shape =>
            if shape ≠ some .number then
              [⟨here, match field with
                | some field =>
                  s!"above and below are for a number, and {entity.text}'s {field.text} isn't one"
                | none => "above and below are for a sensor with numbers, and " ++
                  s!"{entity.text} is a {found.kind.domain}"⟩]
            else []
          | none => []
        else []
      | none => []
    checkField here entity field registry ++ happens ++
      fromValues.flatMap (fun value =>
        checkStateMatch here entity field (some value) none none registry) ++
      toValues.flatMap (fun value =>
        checkStateMatch here entity field none (some value) none registry) ++
      same ++ level
  | .time _ cron _ =>
    (match cron.bind clock.cronProblem with
      | some why => [⟨here, why⟩]
      | none => []) ++
    (if registry.hasTimezone then [] else [⟨here, zoneProblem⟩])
  | .sun _ _ => checkSunGate here registry
  | .event _ _ => []
  | .startup => []

inductive ExprRole
  | bool
  | wait
  | value
  deriving DecidableEq

section Checks

variable (cel : Cel) (registry : RegistryView) (vars : Map String VarKind)

def checkExpr (path : String) (expr : ExprString) (role : ExprRole) : List RuleProblem :=
  match inspect cel expr registry vars with
  | .error reason => [⟨path, reason⟩]
  | .ok inspected =>
    let clock : List RuleProblem :=
      if inspected.usesClock ∧ !registry.hasTimezone then [⟨path, zoneProblem⟩] else []
    match role with
    | .wait =>
      (if inspected.usesClock then
        [⟨path, "hour() cannot drive a wait; use a time trigger"⟩] else []) ++
      (if inspected.ids.isEmpty then
        [⟨path, "a wait expression has to read at least one entity (num/on/…); use a delay or a " ++
          "time trigger otherwise"⟩] else []) ++
      (if inspected.kind ≠ .bool then [⟨path, "a wait expression must be a boolean"⟩] else [])
    | .bool =>
      clock ++
      (if inspected.kind ≠ .bool then [⟨path, "a condition expression must be a boolean"⟩] else [])
    | .value => clock

mutual

def checkCondition (path : String) : Condition → List RuleProblem
  | .expr expr => checkExpr cel registry vars path expr .bool
  | .state entity field is _ =>
    checkField path entity field registry ++
      checkStateMatch path entity field none is (some "is") registry
  | .time _ _ _ =>
    if registry.hasTimezone then [] else
      [⟨path, "time windows need the home's time zone; set the time zone in Settings → " ++
        "Location and time zone"⟩]
  | .sun .. => checkSunGate path registry
  | .all conditions => checkConditions s!"{path}/conditions" 0 conditions
  | .any conditions => checkConditions s!"{path}/conditions" 0 conditions
  | .not condition => checkCondition s!"{path}/condition" condition

def checkConditions (path : String) (i : Nat) : List Condition → List RuleProblem
  | [] => []
  | condition :: rest =>
    checkCondition s!"{path}/{i}" condition ++ checkConditions path (i + 1) rest

end

def checkWaitUntil (path : String) (waited : WaitUntil) : List RuleProblem :=
  match waited with
  | .state entity field is _ _ =>
    checkField path entity field registry ++
      checkStateMatch path entity field none is (some "is") registry
  | .expr expr _ => checkExpr cel registry vars path expr .wait

end Checks

def checkCall (path : String) (service : RuleService) (target : EntityId) (data : Option CallData)
    (registry : RegistryView) : List RuleProblem :=
  match registry.entity target with
  | none => [⟨path, s!"no such entity {target.text} — check the entity id"⟩]
  | some entity =>
    if entity.kind ≠ service.kind then
      [⟨path, s!"{service.display} acts on a {service.kind.domain}, not {entity.id.text}"⟩]
    else match entity.refuses service data with
      | some why => [⟨path, s!"{entity.id.text} {why}"⟩]
      | none => []

end Irori
