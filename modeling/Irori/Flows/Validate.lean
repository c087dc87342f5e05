import Irori.Rules.Validate
import Irori.Flows.Engine

/-!
# Checking flows

The graph, and the flow against the home.
-/

namespace Irori

def errorProblem (node : Option NodeId) (wire : Option Nat) (message : String) : Problem :=
  ⟨.error, node, wire, none, message⟩

def warningProblem (node : Option NodeId) (wire : Option Nat) (message : String) : Problem :=
  ⟨.warning, node, wire, none, message⟩

namespace Flow

variable (flow : Flow)

def checkPort (i : Nat) (wire : Wire) (source : Node) : List Problem :=
  if source.ports.contains wire.source.port then []
  else
    let message :=
      if source.ports.isEmpty then
        s!"a {source.kind} has no way out, so nothing can be wired from it"
      else
        s!"a {source.kind} has no `{wire.source.port.display}` port; it has " ++
          String.intercalate ", " (source.ports.map Port.display)
    [errorProblem (some wire.source.node) (some i) message]

def checkTarget (i : Nat) (wire : Wire) : List Problem :=
  match flow.nodes[wire.target]? with
  | none => [errorProblem none (some i) s!"a wire goes to `{wire.target.text}`, which isn't a node"]
  | some target =>
    if target.isTrigger then
      [errorProblem (some wire.target) (some i)
        "nothing can be wired into a trigger: it only starts runs"]
    else []

def checkWiresFrom : Nat → List Wire → List Wire → List Problem
  | _, _, [] => []
  | i, seen, wire :: rest =>
    match flow.nodes[wire.source.node]? with
    | none =>
      errorProblem none (some i)
          s!"a wire starts at `{wire.source.node.text}`, which isn't a node" ::
        checkWiresFrom (i + 1) seen rest
    | some source =>
      checkPort i wire source ++ flow.checkTarget i wire ++
        (if seen.contains wire then
          [errorProblem (some wire.source.node) (some i)
            s!"the wire {wire.display} is there twice"]
        else []) ++
        checkWiresFrom (i + 1) (wire :: seen) rest

def checkWires : List Problem := flow.checkWiresFrom 0 [] flow.wires

def incomingCounts : Map NodeId Nat :=
  flow.wires.foldl (fun counts wire =>
    match counts[wire.target]? with
    | none => counts
    | some count => counts.insert wire.target (count + 1))
    (Std.ExtTreeMap.ofList (flow.nodes.keys.map fun id => (id, 0)) compare)

def release (s : Map NodeId Nat × List NodeId) (wire : Wire) : Map NodeId Nat × List NodeId :=
  match s.1[wire.target]? with
  | none => s
  | some count =>
    (s.1.insert wire.target (count - 1), if count - 1 = 0 then s.2 ++ [wire.target] else s.2)

/-- Takes the nodes that wait for nothing, one after another. Every node is taken at most once, so
the number of nodes is fuel enough. -/
def takeReady : Nat → Map NodeId Nat → List NodeId → List NodeId
  | 0, _, _ => []
  | _ + 1, _, [] => []
  | fuel + 1, incoming, id :: ready =>
    let (incoming, ready) :=
      (flow.wires.filter fun wire => wire.source.node = id).foldl release (incoming, ready)
    id :: takeReady fuel incoming ready

/-- The nodes in an order where every wire goes forward, or `none` if the wires make a circle. -/
def topological : Option (List NodeId) :=
  let incoming := flow.incomingCounts
  let ready := (incoming.toList.filter fun (_, count) => count = 0).map Prod.fst
  let order := flow.takeReady flow.nodes.size incoming ready
  if order.length = flow.nodes.size then some order else none

def follow (s : List NodeId × List NodeId) (wire : Wire) : List NodeId × List NodeId :=
  if s.1.contains wire.target then s else (wire.target :: s.1, s.2 ++ [wire.target])

/-- The nodes seen once the queue has been visited. Every node but the first is queued by a wire
of its own, so one more than the wires is fuel enough. -/
def visit : Nat → List NodeId → List NodeId → List NodeId
  | 0, seen, _ => seen
  | _ + 1, seen, [] => seen
  | fuel + 1, seen, id :: queue =>
    let (seen, queue) :=
      (flow.wires.filter fun wire => wire.source.node = id).foldl follow (seen, queue)
    visit fuel seen queue

def reach (start : NodeId) : List NodeId := flow.visit (flow.wires.length + 1) [start] [start]

def checkReachable : List Problem :=
  let reached := flow.nodes.toList.flatMap fun (id, node) =>
    if node.isTrigger then flow.reach id else []
  (flow.nodes.keys.filter fun id => !reached.contains id).map fun id =>
    warningProblem (some id) none "no trigger leads here, so this never runs"

def checkJoins : List Problem :=
  (flow.nodes.toList.filter fun (id, node) =>
    node.isJoin ∧ (flow.wiresInto id).length < 2).map fun (id, _) =>
      warningProblem (some id) none
        "a join brings paths together, but fewer than two come in here"

/-- Whether a token on `lead` can go on to travel `wire`. -/
def leadsTo (lead wire : Wire) : Bool :=
  lead = wire ∨ (flow.nodes.contains lead.target ∧ (flow.reach lead.target).contains wire.source.node)

def anyPair {α : Type} (related : α → α → Bool) : List α → Bool
  | [] => false
  | a :: rest => rest.any (related a) || anyPair related rest

def forks : List (List Wire) :=
  ((flow.wires.map Wire.source).dedup.map fun source =>
    flow.wiresFrom source.node source.port).filter fun wires => 1 < wires.length

/-- Whether two paths that parted at a fork can come in by `a` and by `b`. -/
def meet (a b : Wire) : Bool :=
  flow.forks.any fun fork => anyPair (fun left right =>
    (flow.leadsTo left a && flow.leadsTo right b) ||
      (flow.leadsTo right a && flow.leadsTo left b)) fork

/-- Two paths of one run that forked meet again at a node other than a join. Paths that part at
different ports of one node never both run, and paths from different triggers are different runs;
neither counts. -/
def checkMerges : List Problem :=
  (flow.nodes.toList.filter fun (id, node) =>
    !node.isJoin && anyPair flow.meet (flow.wiresInto id)).map fun (id, _) =>
      warningProblem (some id) none ("paths that split earlier meet again here, so this can run " ++
        "more than once per run; put a join in front of it to run it once")

end Flow

mutual

def Condition.exprs : Condition → List ExprString
  | .expr source => [source]
  | .all conditions => Condition.exprsIn conditions
  | .any conditions => Condition.exprsIn conditions
  | .not condition => condition.exprs
  | _ => []

def Condition.exprsIn : List Condition → List ExprString
  | [] => []
  | condition :: rest => condition.exprs ++ Condition.exprsIn rest

end

def nodeExprs : Node → List ExprString
  | .gate condition => condition.exprs
  | .switch cases => Condition.exprsIn cases
  | .set _ expr => [expr]
  | .wait (.expr expr _) _ => [expr]
  | .call _ _ (some data) => data.exprs.map Prod.snd
  | _ => []

def kindWord : VarKind → String
  | .bool => "true/false"
  | .number => "a number"
  | .string => "text"
  | .scalar => "an attribute"

namespace Flow

variable (flow : Flow)

section

variable (env : Env) (registry : RegistryView)

def typeVar (s : Map String VarKind × List Problem) (id : NodeId) :
    Map String VarKind × List Problem :=
  match flow.nodes[id]? with
  | some (.set name expr) =>
    match inspect env.cel expr registry s.1 with
    | .error _ => s
    | .ok inspected =>
      match s.1[name.text]? with
      | some kind =>
        if kind ≠ inspected.kind ∧ kind ≠ .scalar ∧ inspected.kind ≠ .scalar then
          (s.1, s.2 ++ [errorProblem (some id) none
            (s!"`{name.text}` is set as {kindWord inspected.kind} here but as " ++
              s!"{kindWord kind} elsewhere; a variable has one type")])
        else (s.1.insert name.text inspected.kind, s.2)
      | none => (s.1.insert name.text inspected.kind, s.2)
  | _ => s

/-- The variables' types, in an order where each set's own expression can use the variables set
before it. -/
def varKinds (order : List NodeId) : Map String VarKind × List Problem :=
  order.foldl (flow.typeVar env registry) (∅, [])

end

def setOn (before : Map NodeId (List String)) (wire : Wire) : List String :=
  let set := (before[wire.source.node]?).getD []
  match flow.nodes[wire.source.node]? with
  | some (.set name _) => name.text :: set
  | _ => set

def setOnAll (before : Map NodeId (List String)) : List Wire → List String
  | [] => []
  | wire :: rest =>
    rest.foldl (fun all wire => all.filter (flow.setOn before wire).contains)
      (flow.setOn before wire)

/-- What's set on every path to each node: the intersection over the paths coming in. -/
def setBefore (order : List NodeId) : Map NodeId (List String) :=
  order.foldl (fun before id => before.insert id (flow.setOnAll before (flow.wiresInto id))) ∅

def unsetProblems (kinds : Map String VarKind) (id : NodeId) (before : List String)
    (names : List String) : List Problem :=
  ((Std.ExtTreeSet.ofList names compare).toList.filter fun name => !before.contains name).map
    fun name => errorProblem (some id) none
      (if kinds.contains name then
        s!"var('{name}') isn't set on every path that reaches here; set it earlier on each of them"
      else s!"var('{name}') is never set in this flow")

section

variable (env : Env) (registry : RegistryView)

/-- Types every variable from its `set`s, and checks each `var()` is set on every path that
reaches it. Answers the types, for the home check. -/
def checkVars (order : List NodeId) : Map String VarKind × List Problem :=
  let (kinds, clashes) := flow.varKinds env registry order
  let before := flow.setBefore order
  let unset := order.flatMap fun id =>
    match flow.nodes[id]? with
    | none => []
    | some node => (nodeExprs node).flatMap fun expr =>
      unsetProblems kinds id ((before[id]?).getD []) (varsRead env.cel expr)
  (kinds, clashes ++ unset)

def checkRole (id : NodeId) (node : Node) : List Problem :=
  match node with
  | .trigger (.event _ _) =>
    [errorProblem (some id) none
      "only an owner's flow can wait for an event: events are not about any one room"]
  | .call _ entity _ =>
    if entity.kind.commandsNeedOwner then
      [errorProblem (some id) none
        (s!"only an owner can send commands to {entity.text}: it changes how the " ++
          "home is set up")]
    else []
  | _ => []

def checkSettings (vars : Map String VarKind) (service : RuleService) (entity : EntityId)
    (data : FlowCallData) : List RuleProblem :=
  -- A worked-out number stands in as three different ones from its field's range. What all three
  -- are told alike is real.
  let at_ (along : ℚ) : List RuleProblem :=
    checkCall "call" service entity (some (data.shape env service along)) registry
  let middle := at_ (1 / 2)
  let high := at_ 1
  let found := (at_ 0).filter fun problem => middle.contains problem ∧ high.contains problem
  found ++ data.exprs.filterMap fun (field, expr) =>
    match inspect env.cel expr registry vars with
    | .ok inspected =>
      if inspected.kind = .number ∨ inspected.kind = .scalar then none
      else some ⟨s!"data/{field}",
        s!"{field} has to work out to a number, but this gives {kindWord inspected.kind}"⟩
    | .error reason => some ⟨s!"data/{field}", reason⟩

def checkNode (vars : Map String VarKind) (node : Node) : List RuleProblem :=
  match node with
  | .trigger trigger => checkTrigger env.clock "trigger" trigger registry
  | .gate condition => checkCondition env.cel registry vars "condition" condition
  | .switch cases => checkConditions env.cel registry vars "cases" 0 cases
  | .call service entity none => checkCall "call" service entity none registry
  | .call service entity (some data) => checkSettings env registry vars service entity data
  | .set _ expr =>
    match inspect env.cel expr registry vars with
    | .ok _ => []
    | .error reason => [⟨"expr", reason⟩]
  | .wait level _ => checkWaitUntil env.cel registry vars "until" level
  | .delay _ => []
  | .join _ _ => []
  | .stop _ => []

def eventWarning (id : NodeId) (node : Node) : List Problem :=
  match node with
  | .trigger (.event _ _) =>
    [warningProblem (some id) none
      "nothing sends events yet, so this trigger won't fire until protocols do"]
  | _ => []

/-- Each node against the home. Variables are checked with the paths; what is said of them here
is left out, not to say it twice. -/
def checkHome (vars : Map String VarKind) (runsTheHome : Bool) : List Problem :=
  flow.nodes.toList.flatMap fun (id, node) =>
    (if runsTheHome then [] else checkRole id node) ++ eventWarning id node ++
      ((checkNode env registry vars node).filter fun problem =>
        !startsWith problem.reason "var(").map fun problem =>
          ⟨.error, some id, none, some problem.path, problem.reason⟩

/-- As `check`, for a flow whose owner may run the home or not. What the owner can see is the
`registry` handed in. -/
def checkFor (runsTheHome : Bool) : List Problem :=
  let wires := flow.checkWires
  let trigger :=
    if (Map.vals flow.nodes).any Node.isTrigger then []
    else [errorProblem none none "a flow needs a trigger: nothing would ever start it"]
  -- The rest walks the graph, which only makes sense once every wire joins real ports.
  let graph :=
    if wires.isEmpty then
      match flow.topological with
      | some order =>
        let (vars, unset) := flow.checkVars env registry order
        flow.checkReachable ++ flow.checkJoins ++ flow.checkMerges ++ unset ++
          flow.checkHome env registry vars runsTheHome
      | none =>
        [errorProblem none none
          "the wires go round in a circle; a flow has to run one way, from its triggers"]
    else []
  let problems := wires ++ trigger ++ graph
  -- Errors first, each kind in the order it was found.
  problems.filter Problem.isError ++ problems.filter fun problem => !problem.isError

/-- Everything wrong with `flow`, errors first, where it may send and watch anything. -/
def check : List Problem := flow.checkFor env registry true

end

end Flow

end Irori
