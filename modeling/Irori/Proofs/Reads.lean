import Irori.Proofs.Checks

/-!
# What running a flow reads

Nothing outside the registry a flow was checked against, as long as its expressions name what they
read. The checks see to that up to the first `var()` of an expression, and for every node but a
state trigger that compares its entity with no value.
-/

namespace Irori.Proofs

open Irori

def InHome (registry : RegistryView) (reads : List Read) : Prop :=
  ∀ r ∈ reads, (registry.entity r.entityId).isSome

/-- Whether what a call was given fits how it stands in an expression: a value for each argument,
and for a string literal that string. -/
def Fits (c : CallExpr) (args : List Value) : Prop :=
  args.length = c.args.length ∧ ∀ (i : Nat) (text : String),
    (c.args[i]?).bind Expr.stringLiteral = some text → args[i]? = some (.string text)

/-- How the interpreter calls functions: only by the calls that stand in the expression, each on
the values of its arguments. Whatever all these calls keep, so does working out the expression. -/
def CallsByName (cel : Cel) : Prop :=
  ∀ (ast : Expr) (functions : Functions) (P : List Read → Prop),
    (∀ c ∈ ast.calls, ∀ (args : List Value) (reads : List Read), Fits c args → P reads →
      P (functions c.funcName args reads).2) →
    ∀ reads : List Read, P reads → P (cel.execute ast functions reads).2

section

variable {registry : RegistryView} {states : Map EntityId EntityState} {reads : List Read}

lemma inHome_nil : InHome registry [] := by
  intro r hr
  simp at hr

lemma inHome_append {a b : List Read} (ha : InHome registry a) (hb : InHome registry b) :
    InHome registry (a ++ b) := by
  intro r hr
  rcases List.mem_append.mp hr with hr | hr
  · exact ha r hr
  · exact hb r hr

lemma inHome_singleton {read : Read} (h : (registry.entity read.entityId).isSome) :
    InHome registry [read] := by
  intro r hr
  rw [List.mem_singleton.mp hr]
  exact h

lemma addRead_inHome {read : Read} (h : InHome registry reads)
    (hread : (registry.entity read.entityId).isSome) : InHome registry (addRead reads read) := by
  unfold addRead
  split
  · exact h
  · exact inHome_append h (inHome_singleton hread)

lemma mergeReads_inHome {more : List Read} (h : InHome registry reads)
    (hmore : InHome registry more) : InHome registry (mergeReads reads more) := by
  unfold mergeReads
  induction more generalizing reads with
  | nil => exact h
  | cons read more ih =>
    exact ih (addRead_inHome h (hmore read List.mem_cons_self)) fun r hr =>
      hmore r (List.mem_cons_of_mem _ hr)

lemma look_inHome {id : String} {entityId : EntityId} (hid : EntityId.parse id = .ok entityId)
    (hhome : (registry.entity entityId).isSome) (h : InHome registry reads) :
    InHome registry (look states id reads).2 := by
  unfold look
  rw [hid]
  exact addRead_inHome h hhome

lemma valuedFn_inHome {name : String} {shape : ValueShape}
    {read : State → String → Except String Value} {id : String} {entityId : EntityId}
    {args : List Value} (harg : args[0]? = some (.string id))
    (hid : EntityId.parse id = .ok entityId) (hhome : (registry.entity entityId).isSome)
    (h : InHome registry reads) :
    InHome registry (valuedFn name shape read states args reads).2 := by
  unfold valuedFn
  split
  · next first =>
    obtain rfl : first = id := by simpa using harg
    exact look_inHome hid hhome h
  · next first field =>
    obtain rfl : first = id := by simpa using harg
    exact look_inHome hid hhome h
  · exact h

lemma entityFn_inHome {f : String → List Read → Except String Value × List Read} {id : String}
    {args : List Value} (harg : args[0]? = some (.string id))
    (hf : InHome registry (f id reads).2) : InHome registry (entityFn args reads f).2 := by
  unfold entityFn textArgument
  rw [harg]
  exact hf

lemma bind_inHome {c : CallExpr} {args : List Value} {clock : Clock} {place : Option Place}
    {snapshot : Snapshot} (hnames : NamesHome registry c) (hfits : Fits c args)
    (h : InHome registry reads) :
    InHome registry (bind clock place snapshot c.funcName args reads).2 := by
  have hnamed : ∀ name : String, c.funcName = name → authorName name ∈ entityFns →
      ∃ (id : String) (entityId : EntityId), args[0]? = some (.string id) ∧
        EntityId.parse id = .ok entityId ∧ (registry.entity entityId).isSome := by
    intro name hname hmem
    obtain ⟨id, entityId, hliteral, hid, hhome⟩ := hnames.1 (by rw [fnName, hname]; exact hmem)
    refine ⟨id, entityId, hfits.2 0 id ?_, hid, hhome⟩
    rwa [← List.head?_eq_getElem?]
  unfold bind
  split
  · next hname =>
    obtain ⟨id, entityId, harg, hid, hhome⟩ := hnamed _ hname (by decide)
    exact valuedFn_inHome harg hid hhome h
  · next hname =>
    obtain ⟨id, entityId, harg, hid, hhome⟩ := hnamed _ hname (by decide)
    exact valuedFn_inHome harg hid hhome h
  · next hname =>
    obtain ⟨id, entityId, harg, hid, hhome⟩ := hnamed _ hname (by decide)
    exact valuedFn_inHome harg hid hhome h
  · next hname =>
    obtain ⟨id, entityId, harg, hid, hhome⟩ := hnamed _ hname (by decide)
    exact entityFn_inHome harg (look_inHome hid hhome h)
  · next hname =>
    obtain ⟨id, entityId, harg, hid, hhome⟩ := hnamed _ hname (by decide)
    exact entityFn_inHome harg (look_inHome hid hhome h)
  · next hname =>
    obtain ⟨id, entityId, harg, hid, hhome⟩ := hnamed _ hname (by decide)
    exact entityFn_inHome harg (look_inHome hid hhome h)
  · next hname =>
    obtain ⟨id, entityId, harg, hid, hhome⟩ := hnamed _ hname (by decide)
    refine entityFn_inHome harg ?_
    split
    · exact h
    · exact look_inHome hid hhome h
  · exact h

end

section

variable {env : Env} {registry : RegistryView} {place : Option Place} {snapshot : Snapshot}

def NamesAll (cel : Cel) (registry : RegistryView) (expr : ExprString) : Prop :=
  ∀ ast : Expr, cel.compile expr = .ok ast → ∀ c ∈ ast.calls, NamesHome registry c

lemma evalValue_inHome (hcel : CallsByName env.cel) {expr : ExprString}
    (h : NamesAll env.cel registry expr) :
    InHome registry (evalValue env place expr snapshot).reads := by
  unfold evalValue
  cases hast : env.cel.compile expr with
  | error e => exact inHome_nil
  | ok ast =>
    exact hcel ast _ (InHome registry)
      (fun c hc args reads hfits hreads => bind_inHome (h ast hast c hc) hfits hreads) [] inHome_nil

lemma evalBoolean_inHome (hcel : CallsByName env.cel) {expr : ExprString}
    (h : NamesAll env.cel registry expr) :
    InHome registry (evalBoolean env place expr snapshot).reads :=
  evalValue_inHome hcel h

lemma stateHolds_inHome {entity : EntityId} {field : Option ObjectId} {is : Option TypedValue}
    {availability : Option AvailabilityWanted} (h : (registry.entity entity).isSome) :
    InHome registry (stateHolds entity field is availability snapshot).reads :=
  inHome_singleton h

lemma combine_inHome {all : Bool} {children : List (Outcome Bool)}
    (h : ∀ child ∈ children, InHome registry child.reads) :
    InHome registry (combine all children).reads := by
  have hfold : ∀ reads : List Read, InHome registry reads →
      InHome registry (children.foldl (fun reads child => mergeReads reads child.reads) reads) := by
    induction children with
    | nil => exact fun _ hreads => hreads
    | cons child children ih =>
      intro reads hreads
      exact ih (fun c hc => h c (List.mem_cons_of_mem _ hc)) _
        (mergeReads_inHome hreads (h child List.mem_cons_self))
  exact hfold [] inHome_nil

mutual

/-- The entities a condition asks about itself, outside its expressions. -/
def asked : Condition → List EntityId
  | .state entity _ _ _ => [entity]
  | .all conditions => askedIn conditions
  | .any conditions => askedIn conditions
  | .not condition => asked condition
  | _ => []

def askedIn : List Condition → List EntityId
  | [] => []
  | condition :: rest => asked condition ++ askedIn rest

end

lemma mem_askedIn {cs : List Condition} {entity : EntityId} :
    entity ∈ askedIn cs ↔ ∃ c ∈ cs, entity ∈ asked c := by
  induction cs with
  | nil => simp [askedIn]
  | cons c cs ih => simp [askedIn, ih]

lemma evalCondition_inHome (hcel : CallsByName env.cel) (c : Condition)
    (hasked : ∀ entity ∈ asked c, (registry.entity entity).isSome)
    (hexprs : ∀ expr ∈ c.exprs, NamesAll env.cel registry expr) :
    InHome registry (evalCondition env place c snapshot).reads := by
  induction c using Condition.induct with
  | state entity field is availability =>
    rw [evalCondition]
    exact stateHolds_inHome (hasked entity (by simp [asked]))
  | expr source =>
    rw [evalCondition]
    exact evalBoolean_inHome hcel (hexprs source (by simp [Condition.exprs]))
  | time after before weekday =>
    simp only [evalCondition]
    exact inHome_nil
  | sun after before offset afterOffset beforeOffset =>
    simp only [evalCondition]
    exact inHome_nil
  | all cs ih =>
    rw [evalCondition, evalConditions_eq_map]
    refine combine_inHome fun child hchild => ?_
    obtain ⟨c, hc, rfl⟩ := List.mem_map.mp hchild
    exact ih c hc (fun entity he => hasked entity (by rw [asked]; exact mem_askedIn.mpr ⟨c, hc, he⟩))
      fun expr he => hexprs expr (by rw [Condition.exprs]; exact mem_exprsIn.mpr ⟨c, hc, he⟩)
  | any cs ih =>
    rw [evalCondition, evalConditions_eq_map]
    refine combine_inHome fun child hchild => ?_
    obtain ⟨c, hc, rfl⟩ := List.mem_map.mp hchild
    exact ih c hc (fun entity he => hasked entity (by rw [asked]; exact mem_askedIn.mpr ⟨c, hc, he⟩))
      fun expr he => hexprs expr (by rw [Condition.exprs]; exact mem_exprsIn.mpr ⟨c, hc, he⟩)
  | not c ih =>
    rw [evalCondition]
    exact ih (fun entity he => hasked entity (by rwa [asked]))
      fun expr he => hexprs expr (by rwa [Condition.exprs])

lemma chooseCase_inHome (hcel : CallsByName env.cel) {view : View} (cases : List Condition)
    (hasked : ∀ entity ∈ askedIn cases, (registry.entity entity).isSome)
    (hexprs : ∀ expr ∈ Condition.exprsIn cases, NamesAll env.cel registry expr) :
    ∀ (i : Nat) (reads : List Read) (notes : List String), InHome registry reads →
      InHome registry (Run.chooseCase env view snapshot cases i reads notes).2.1 := by
  induction cases with
  | nil => exact fun _ _ _ h => h
  | cons case rest ih =>
    intro i reads notes h
    have hcase : InHome registry (evalCondition env view.place case snapshot).reads :=
      evalCondition_inHome hcel case
        (fun entity he => hasked entity (mem_askedIn.mpr ⟨case, List.mem_cons_self, he⟩))
        fun expr he => hexprs expr (mem_exprsIn.mpr ⟨case, List.mem_cons_self, he⟩)
    have hboth := mergeReads_inHome h hcase
    have hrest := ih
      (fun entity he => hasked entity (by rw [askedIn]; exact List.mem_append_right _ he))
      fun expr he => hexprs expr (by rw [Condition.exprsIn]; exact List.mem_append_right _ he)
    rw [Run.chooseCase]
    split
    · exact hboth
    · exact hrest _ _ _ hboth
    · exact hrest _ _ _ hboth

lemma resolveFields_inHome {service : RuleService} {eval : ExprString → Outcome ℚ}
    (fields : List (String × Amount))
    (h : ∀ (field : String) (expr : ExprString), (field, .worked expr) ∈ fields →
      InHome registry (eval expr).reads) :
    InHome registry (FlowCallData.resolveFields env service eval fields).reads := by
  induction fields with
  | nil => exact inHome_nil
  | cons entry rest ih =>
    have hrest := ih fun field expr hmem => h field expr (List.mem_cons_of_mem _ hmem)
    obtain ⟨field, worked | fixed⟩ := entry
    · have hhere := h field worked List.mem_cons_self
      rw [FlowCallData.resolveFields]
      dsimp only
      split
      · exact hhere
      · exact inHome_append hhere hrest
    · exact hrest

end

section

variable {functions : Functions} {P : List Read → Prop}

mutual

theorem interpret_keeps : ∀ (e : Expr)
    (_ : ∀ c ∈ e.calls, ∀ (args : List Value) (reads : List Read), Fits c args → P reads →
      P (functions c.funcName args reads).2) (reads : List Read), P reads →
    P (Sample.interpret functions e reads).2
  | .literal _, _, _, h => by rw [Sample.interpret]; exact h
  | .call funcName args, hcalls, reads, h => by
    have hargs := interpretArgs_keeps args
      (fun c hc => hcalls c (by rw [Expr.calls]; exact List.mem_cons_of_mem _ hc)) reads h
    rw [Sample.interpret]
    split
    · next hresult => rw [hresult] at hargs; exact hargs.1
    · next values more hresult =>
      rw [hresult] at hargs
      split
      · exact hargs.1
      · exact hcalls ⟨funcName, args⟩ (by rw [Expr.calls]; exact List.mem_cons_self) values more
          (hargs.2 values rfl) hargs.1
  | .unspecified, _, _, h => by simpa only [Sample.interpret] using h
  | .ident _, _, _, h => by simpa only [Sample.interpret] using h
  | .list _, _, _, h => by simpa only [Sample.interpret] using h
  | .map _ _, _, _, h => by simpa only [Sample.interpret] using h
  | .struct _ _ _, _, _, h => by simpa only [Sample.interpret] using h
  | .select _ _, _, _, h => by simpa only [Sample.interpret] using h
  | .comprehension .., _, _, h => by simpa only [Sample.interpret] using h
  | .memberCall _ _ _, _, _, h => by simpa only [Sample.interpret] using h

theorem interpretArgs_keeps : ∀ (es : List Expr)
    (_ : ∀ c ∈ Expr.callsIn es, ∀ (args : List Value) (reads : List Read), Fits c args → P reads →
      P (functions c.funcName args reads).2) (reads : List Read), P reads →
    P (Sample.interpretArgs functions es reads).2 ∧
      ∀ values : List Value, (Sample.interpretArgs functions es reads).1 = .ok values →
        Fits ⟨"", es⟩ values
  | [], _, _, h => by
    rw [Sample.interpretArgs]
    refine ⟨h, fun values hvalues => ?_⟩
    obtain rfl : [] = values := by simpa using hvalues
    exact ⟨rfl, by simp⟩
  | e :: es, hcalls, reads, h => by
    have hfirst := interpret_keeps e
      (fun c hc => hcalls c (by rw [Expr.callsIn]; exact List.mem_append_left _ hc)) reads h
    rw [Sample.interpretArgs]
    split
    · next hresult => rw [hresult] at hfirst; exact ⟨hfirst, by simp⟩
    · next value more hresult =>
      rw [hresult] at hfirst
      have hothers := interpretArgs_keeps es
        (fun c hc => hcalls c (by rw [Expr.callsIn]; exact List.mem_append_right _ hc)) more hfirst
      split
      · next hrest => rw [hrest] at hothers; exact ⟨hothers.1, by simp⟩
      · next values others hrest =>
        rw [hrest] at hothers
        refine ⟨hothers.1, fun all hall => ?_⟩
        obtain rfl : value :: values = all := by simpa using hall
        obtain ⟨hlength, hliteral⟩ := hothers.2 values rfl
        refine ⟨by simpa using hlength, fun i text htext => ?_⟩
        cases i with
        | succ i => simpa using hliteral i text (by simpa using htext)
        | zero =>
          -- A string literal is worth the string it is.
          have hhead : e.stringLiteral = some text := by simpa using htext
          unfold Expr.stringLiteral at hhead
          split at hhead
          · next s =>
            rw [Sample.interpret] at hresult
            simp only [Prod.mk.injEq, Except.ok.injEq] at hresult
            simp only [Option.some.injEq] at hhead
            simp [← hresult.1, ← hhead, Sample.literalValue]
          · simp at hhead

end

end

lemma sample_callsByName (known : List (String × Expr)) : CallsByName (Sample.cel known) :=
  fun ast _ _ hcalls reads h => interpret_keeps ast hcalls reads h

lemma sample_compile {known : List (String × Expr)} {source : String} {ast : Expr}
    (h : known.lookup (renameReserved Sample.unicode source) = some ast) :
    (Sample.cel known).compile ⟨source⟩ = .ok ast := by
  simp only [Cel.compile, Sample.cel, h]

lemma sample_node {mode : Mode} {nodes : List (NodeId × Node)} {wires : List Wire} {id : NodeId}
    {node : Node} (hdistinct : nodes.Pairwise fun a b => a.1 ≠ b.1) (h : (id, node) ∈ nodes) :
    (Sample.flow mode nodes wires).nodes[id]? = some node := by
  refine Std.ExtTreeMap.getElem?_ofList_of_mem (k := id) (by simp) ?_ h
  exact hdistinct.imp fun hne => by simpa using hne

section

variable {env : Env} {flow : Flow} {registry : RegistryView}

/-- What a node reads of the home when it runs, or for a trigger when it is looked at. -/
def nodeReads (env : Env) (view : View) (snapshot : Snapshot) : Node → List Read
  | .trigger (.state entity field _ _ _ _ _) => [Read.ofField entity field snapshot.states]
  | .gate condition => (evalCondition env view.place condition snapshot).reads
  | .switch cases => (Run.chooseCase env view snapshot cases 0 [] []).2.1
  | .set _ expr => (evalValue env view.place expr snapshot).reads
  | .wait level _ => (evalWait env view.place level snapshot).reads
  | .call service _ (some data) =>
    (data.resolve env service (Run.evalSetting env view snapshot)).reads
  | _ => []

/-- The entity of a state trigger that compares it with no value. -/
def uncompared : Node → Option EntityId
  | .trigger (.state entity _ from_ to_ _ _ _) =>
    if (from_.map Values.iter).getD [] = [] ∧ (to_.map Values.iter).getD [] = [] then some entity
    else none
  | _ => none

lemma checkStateMatch_home {path : String} {entity : EntityId} {field : Option ObjectId}
    {from_ to_ : Option TypedValue} {toField : Option String}
    (h : OnlyVars (checkStateMatch path entity field from_ to_ toField registry)) :
    (registry.entity entity).isSome := by
  cases hentity : registry.entity entity with
  | some found => rfl
  | none =>
    unfold checkStateMatch at h
    rw [hentity] at h
    have hvar := h _ (List.mem_singleton.mpr rfl)
    rw [not_startsWith_of_head (c := 'n') (by decide)] at hvar
    · exact absurd hvar (by decide)
    · repeat with_reducible apply head_append
      rfl

lemma checkCondition_asked {vars : Map String VarKind} (c : Condition) : ∀ path : String,
    OnlyVars (checkCondition env.cel registry vars path c) →
      ∀ entity ∈ asked c, (registry.entity entity).isSome := by
  induction c using Condition.induct with
  | state entity field is availability =>
    intro path h other hother
    rw [checkCondition, onlyVars_append] at h
    rw [asked, List.mem_singleton] at hother
    exact hother ▸ checkStateMatch_home h.2
  | expr source => simp [asked]
  | time after before weekday => simp [asked]
  | sun after before offset afterOffset beforeOffset => simp [asked]
  | all cs ih =>
    intro path h entity hentity
    rw [checkCondition] at h
    rw [asked] at hentity
    obtain ⟨c, hc, hentity⟩ := mem_askedIn.mp hentity
    obtain ⟨at_, hat⟩ := checkConditions_onlyVars h c hc
    exact ih c hc at_ hat entity hentity
  | any cs ih =>
    intro path h entity hentity
    rw [checkCondition] at h
    rw [asked] at hentity
    obtain ⟨c, hc, hentity⟩ := mem_askedIn.mp hentity
    obtain ⟨at_, hat⟩ := checkConditions_onlyVars h c hc
    exact ih c hc at_ hat entity hentity
  | not c ih =>
    intro path h entity hentity
    rw [checkCondition] at h
    rw [asked] at hentity
    exact ih _ h entity hentity

lemma checkTrigger_home {clock : Clock} {here : String} {entity : EntityId}
    {field : Option ObjectId} {from_ to_ : Option Values} {above below : Option ℚ}
    {hold : Option CompactDuration}
    (h : OnlyVars (checkTrigger clock here (.state entity field from_ to_ above below hold)
      registry))
    (hcompares : uncompared (.trigger (.state entity field from_ to_ above below hold)) = none) :
    (registry.entity entity).isSome := by
  unfold checkTrigger at h
  dsimp only at h
  simp only [onlyVars_append] at h
  obtain ⟨⟨⟨⟨-, hfrom⟩, hto⟩, -⟩, -⟩ := h
  by_contra hnone
  have hempty : ∀ (values : List TypedValue) (check : TypedValue → List RuleProblem),
      OnlyVars (values.flatMap check) →
      (∀ value ∈ values, OnlyVars (check value) → (registry.entity entity).isSome) →
        values = [] := by
    intro values check hall hhome
    refine List.eq_nil_iff_forall_not_mem.mpr fun value hvalue => hnone (hhome value hvalue ?_)
    exact fun p hp => hall p (List.mem_flatMap.mpr ⟨value, hvalue, hp⟩)
  have hboth := And.intro
    (hempty _ _ hfrom fun _ _ hcheck => checkStateMatch_home hcheck)
    (hempty _ _ hto fun _ _ hcheck => checkStateMatch_home hcheck)
  simp only [uncompared] at hcompares
  rw [if_pos hboth] at hcompares
  exact absurd hcompares (by simp)

/-- A node without errors reads nothing outside the registry, where its expressions name what they
read and, for a state trigger that compares nothing, its entity is there. -/
lemma nodeReads_inHome (hcel : CallsByName env.cel) {vars : Map String VarKind} {node : Node}
    (h : OnlyVars (Flow.checkNode env registry vars node))
    (hexprs : ∀ expr ∈ nodeExprs node, NamesAll env.cel registry expr)
    (hbare : ∀ entity : EntityId, uncompared node = some entity →
      (registry.entity entity).isSome) (view : View) (snapshot : Snapshot) :
    InHome registry (nodeReads env view snapshot node) := by
  cases node with
  | trigger trigger =>
    cases trigger with
    | state entity field from_ to_ above below hold =>
      refine inHome_singleton ?_
      change (registry.entity entity).isSome
      cases huncompared : uncompared (.trigger (.state entity field from_ to_ above below hold)) with
      | none =>
        rw [Flow.checkNode] at h
        exact checkTrigger_home h huncompared
      | some other =>
        have hother := hbare other huncompared
        simp only [uncompared] at huncompared
        split at huncompared
        · rw [Option.some.injEq] at huncompared
          rwa [huncompared]
        · simp at huncompared
    | time _ _ _ => exact inHome_nil
    | sun _ _ => exact inHome_nil
    | event _ _ => exact inHome_nil
    | startup => exact inHome_nil
  | gate condition =>
    rw [Flow.checkNode] at h
    exact evalCondition_inHome hcel condition (checkCondition_asked condition _ h) hexprs
  | switch cases =>
    rw [Flow.checkNode] at h
    refine chooseCase_inHome hcel cases (fun entity hentity => ?_) hexprs 0 [] [] inHome_nil
    obtain ⟨c, hc, hentity⟩ := mem_askedIn.mp hentity
    obtain ⟨at_, hat⟩ := checkConditions_onlyVars h c hc
    exact checkCondition_asked c at_ hat entity hentity
  | set name source =>
    exact evalValue_inHome hcel (hexprs source (List.mem_singleton.mpr rfl))
  | wait level timeout =>
    cases level with
    | state entity field is availability hold =>
      rw [Flow.checkNode, checkWaitUntil, onlyVars_append] at h
      exact stateHolds_inHome (checkStateMatch_home h.2)
    | expr source hold =>
      exact evalBoolean_inHome hcel (hexprs source (List.mem_singleton.mpr rfl))
  | call service entity data =>
    cases data with
    | none => exact inHome_nil
    | some data =>
      refine resolveFields_inHome _ fun field expr hmem => ?_
      refine evalValue_inHome hcel (hexprs expr ?_)
      rw [nodeExprs, List.mem_map]
      exact ⟨(field, expr), List.mem_filterMap.mpr ⟨_, hmem, rfl⟩, rfl⟩
  | delay _ => exact inHome_nil
  | join _ _ => exact inHome_nil
  | stop _ => exact inHome_nil

/-- Every call of every expression of the flow names what it reads, and running the flow reads
nothing outside the registry. -/
def ReadsHome (env : Env) (registry : RegistryView) (flow : Flow) : Prop :=
  ∀ (id : NodeId) (node : Node), flow.nodes[id]? = some node →
    (∀ expr ∈ nodeExprs node, NamesAll env.cel registry expr) ∧
    ∀ (view : View) (snapshot : Snapshot), InHome registry (nodeReads env view snapshot node)

/-- What the checks leave to the author: from the first `var()` of an expression on, its calls name
what they read; and a state trigger that compares its entity with nothing watches one the home
has. -/
def ReadsHomeUnchecked (cel : Cel) (registry : RegistryView) (flow : Flow) : Prop :=
  ∀ (id : NodeId) (node : Node), flow.nodes[id]? = some node →
    (∀ expr ∈ nodeExprs node, ∀ ast : Expr, cel.compile expr = .ok ast →
      ∀ c ∈ ast.calls.dropWhile (fun c => !isVarCall c), NamesHome registry c) ∧
    ∀ entity : EntityId, uncompared node = some entity → (registry.entity entity).isSome

lemma mem_of_mem_dropWhile {α : Type} {p : α → Bool} {a : α} {as : List α}
    (h : a ∈ as.dropWhile p) : a ∈ as :=
  (List.dropWhile_sublist p).mem h

/-- The flow that starts with Irori and asks `source` at its only gate. -/
def asking (source : String) : Flow :=
  Sample.flow (.named .single)
    [(Sample.started, .trigger .startup), (Sample.dark, .gate (.expr ⟨source⟩))]
    [Sample.wire Sample.started .out Sample.dark]

def darkExpr : Expr :=
  .call "_<_" [.call "num" [.literal (.string "sensor.lux")], .literal (.double 50)]

def secretExpr : Expr :=
  .call "_>_" [.call varFn [.call "num" [.literal (.string "sensor.secret")]],
    .literal (.double 1)]

/-- A flow in which the checks find no error reads nothing outside the registry exactly where it
keeps to what they leave to the author. -/
theorem readsHome_iff (hcel : CallsByName env.cel) {runsTheHome : Bool}
    (h : NoErrors (flow.checkFor env registry runsTheHome)) :
    ReadsHome env registry flow ↔ ReadsHomeUnchecked env.cel registry flow := by
  obtain ⟨-, order, -, -, hhome⟩ := checkFor_noErrors h
  constructor
  · intro hreads id node hnode
    obtain ⟨hnames, hinHome⟩ := hreads id node hnode
    refine ⟨fun expr hexpr ast hast c hc => hnames expr hexpr ast hast c (mem_of_mem_dropWhile hc),
      fun entity huncompared => ?_⟩
    -- A trigger reads its entity whatever the home is like.
    unfold uncompared at huncompared
    split at huncompared
    · next found field from_ to_ above below hold =>
      split at huncompared
      · rw [Option.some.injEq] at huncompared
        subst huncompared
        exact hinHome ⟨∅, none, false, 0⟩ ⟨∅, ∅, 0⟩ _ (List.mem_singleton.mpr rfl)
      · simp at huncompared
    · simp at huncompared
  · intro hunchecked id node hnode
    obtain ⟨hrest, hbare⟩ := hunchecked id node hnode
    have honly := checkHome_noErrors hhome hnode
    have hnames : ∀ expr ∈ nodeExprs node, NamesAll env.cel registry expr :=
      fun expr hexpr ast hast =>
        inspects_names (checkNode_inspects honly expr hexpr) hast (hrest expr hexpr ast hast)
    exact ⟨hnames, nodeReads_inHome hcel honly hnames hbare⟩

theorem readsHome_iff_dark :
    ReadsHome (Sample.env [("num('sensor.lux') < 50.0", darkExpr)]) (Sample.registry [Sample.meter])
        (asking "num('sensor.lux') < 50") ↔
      ReadsHomeUnchecked (Sample.cel [("num('sensor.lux') < 50.0", darkExpr)])
        (Sample.registry [Sample.meter]) (asking "num('sensor.lux') < 50") :=
  @readsHome_iff (Sample.env [("num('sensor.lux') < 50.0", darkExpr)]) _ _
    (sample_callsByName _) false (by decide)

/-- `var()` of something read from another room: nothing is found wrong with it. -/
theorem readsHome_refuted :
    ¬ ∀ (env : Env) (registry : RegistryView) (flow : Flow) (runsTheHome : Bool),
      NoErrors (flow.checkFor env registry runsTheHome) →
        ∀ (id : NodeId) (node : Node), flow.nodes[id]? = some node →
          ∀ expr ∈ nodeExprs node, NamesAll env.cel registry expr := by
  intro h
  have hreads := h (Sample.env [("irori_var(num('sensor.secret')) > 1.0", secretExpr)])
    (Sample.registry [Sample.meter]) (asking "var(num('sensor.secret')) > 1") false
    (by decide)
  have hgate : (asking "var(num('sensor.secret')) > 1").nodes[Sample.dark]? =
      some (.gate (.expr ⟨"var(num('sensor.secret')) > 1"⟩)) :=
    sample_node (by decide) (by simp)
  have hcompile : (Sample.cel [("irori_var(num('sensor.secret')) > 1.0", secretExpr)]).compile
      ⟨"var(num('sensor.secret')) > 1"⟩ = .ok secretExpr := by
    refine sample_compile ?_
    rw [show renameReserved Sample.unicode "var(num('sensor.secret')) > 1" =
      "irori_var(num('sensor.secret')) > 1.0" by decide]
    simp
  have hnames := hreads Sample.dark _ hgate _ (by simp [nodeExprs, Condition.exprs]) secretExpr
    hcompile ⟨"num", [.literal (.string "sensor.secret")]⟩
    (by simp [secretExpr, Expr.calls, Expr.callsIn])
  obtain ⟨id, entityId, hliteral, hid, hhome⟩ := hnames.1 (by decide)
  obtain rfl : "sensor.secret" = id := by
    simpa [firstLiteral, Expr.stringLiteral] using hliteral
  -- The registry has the light meter only.
  have hnone : ((EntityId.parse "sensor.secret").toOption.bind
      (Sample.registry [Sample.meter]).entity).isSome = false := by decide
  rw [hid] at hnone
  simp only [Except.toOption, Option.bind_some] at hnone
  rw [hnone] at hhome
  exact absurd hhome (by decide)

end

end Irori.Proofs
