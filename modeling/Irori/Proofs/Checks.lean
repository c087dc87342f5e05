import Irori.Sample
import Irori.Proofs.Conditions
import Irori.Proofs.Expressions

/-!
# What a flow without errors may read

A flow in which the checks find no error has no error in any part of them, except that what is
said of an expression is left out where it begins with `var(`. So the expressions were walked over
up to their first `var()`, and only those where nothing after it reads what it may not are safe.
-/

namespace Irori.Proofs

open Irori

def NoErrors (problems : List Problem) : Prop := ∀ p ∈ problems, p.isError = false

instance (problems : List Problem) : Decidable (NoErrors problems) :=
  inferInstanceAs (Decidable (∀ p ∈ problems, p.isError = false))

lemma noErrors_append {a b : List Problem} : NoErrors (a ++ b) ↔ NoErrors a ∧ NoErrors b := by
  simp only [NoErrors, List.mem_append]
  exact ⟨fun h => ⟨fun p hp => h p (.inl hp), fun p hp => h p (.inr hp)⟩,
    fun h p hp => hp.elim (h.1 p) (h.2 p)⟩

lemma eq_nil_of_noErrors {problems : List Problem} (h : NoErrors problems)
    (hall : ∀ p ∈ problems, p.isError = true) : problems = [] := by
  refine List.eq_nil_iff_forall_not_mem.mpr fun p hp => ?_
  have := h p hp
  rw [hall p hp] at this
  exact absurd this (by decide)

section

variable {flow : Flow}

lemma checkPort_isError {i : Nat} {wire : Wire} {source : Node} :
    ∀ p ∈ Flow.checkPort i wire source, p.isError = true := by
  intro p hp
  unfold Flow.checkPort at hp
  split at hp
  · simp at hp
  · rw [List.mem_singleton.mp hp]
    rfl

lemma checkTarget_isError {i : Nat} {wire : Wire} :
    ∀ p ∈ flow.checkTarget i wire, p.isError = true := by
  intro p hp
  unfold Flow.checkTarget at hp
  split at hp
  · rw [List.mem_singleton.mp hp]
    rfl
  split at hp
  · rw [List.mem_singleton.mp hp]
    rfl
  · simp at hp

lemma checkWiresFrom_isError (wires : List Wire) : ∀ (i : Nat) (seen : List Wire),
    ∀ p ∈ flow.checkWiresFrom i seen wires, p.isError = true := by
  induction wires with
  | nil =>
    intro i seen p hp
    simp [Flow.checkWiresFrom] at hp
  | cons wire wires ih =>
    intro i seen p hp
    rw [Flow.checkWiresFrom] at hp
    split at hp
    · rcases List.mem_cons.mp hp with rfl | hp
      · rfl
      · exact ih _ _ p hp
    · simp only [List.mem_append] at hp
      rcases hp with ((hp | hp) | hp) | hp
      · exact checkPort_isError p hp
      · exact checkTarget_isError p hp
      · split at hp
        · rw [List.mem_singleton.mp hp]
          rfl
        · simp at hp
      · exact ih _ _ p hp

variable {env : Env} {registry : RegistryView} {runsTheHome : Bool}

/-- A flow without errors: its wires are right, they make no circle, and neither the variables nor
the home has an error in it. -/
lemma checkFor_noErrors (h : NoErrors (flow.checkFor env registry runsTheHome)) :
    flow.checkWires = [] ∧ ∃ order : List NodeId, flow.topological = some order ∧
      NoErrors (flow.checkVars env registry order).2 ∧
      NoErrors (flow.checkHome env registry (flow.checkVars env registry order).1
        runsTheHome) := by
  unfold Flow.checkFor at h
  dsimp only at h
  rw [noErrors_append] at h
  have hall := h.1
  have hsplit : ∀ problems : List Problem, NoErrors (problems.filter Problem.isError) →
      NoErrors problems := by
    intro problems hp p hmem
    by_contra hp'
    rw [Bool.not_eq_false] at hp'
    have := hp p (List.mem_filter.mpr ⟨hmem, hp'⟩)
    rw [hp'] at this
    exact absurd this (by decide)
  have hgraph := hsplit _ hall
  rw [noErrors_append, noErrors_append] at hgraph
  obtain ⟨⟨hwires, -⟩, hgraph⟩ := hgraph
  have hnil := eq_nil_of_noErrors hwires (checkWiresFrom_isError _ _ _)
  refine ⟨hnil, ?_⟩
  rw [if_pos (by simp [hnil])] at hgraph
  split at hgraph
  · next order horder =>
    refine ⟨order, horder, ?_⟩
    rw [noErrors_append, noErrors_append] at hgraph
    exact ⟨hgraph.1.2, hgraph.2⟩
  · have := hgraph _ (List.mem_singleton.mpr rfl)
    exact absurd this (by decide)

/-- What is said of a node against the home, where no error was found: it is about variables. -/
def OnlyVars (problems : List RuleProblem) : Prop :=
  ∀ p ∈ problems, startsWith p.reason "var(" = true

lemma onlyVars_append {a b : List RuleProblem} :
    OnlyVars (a ++ b) ↔ OnlyVars a ∧ OnlyVars b := by
  simp only [OnlyVars, List.mem_append]
  exact ⟨fun h => ⟨fun p hp => h p (.inl hp), fun p hp => h p (.inr hp)⟩,
    fun h p hp => hp.elim (h.1 p) (h.2 p)⟩

lemma checkHome_noErrors {vars : Map String VarKind}
    (h : NoErrors (flow.checkHome env registry vars runsTheHome)) {id : NodeId} {node : Node}
    (hnode : flow.nodes[id]? = some node) : OnlyVars (Flow.checkNode env registry vars node) := by
  intro p hp
  by_contra hvar
  rw [Bool.not_eq_true] at hvar
  have hmem : (⟨.error, some id, none, some p.path, p.reason⟩ : Problem) ∈
      flow.checkHome env registry vars runsTheHome := by
    unfold Flow.checkHome
    refine List.mem_flatMap.mpr
      ⟨(id, node), Std.ExtTreeMap.mem_toList_iff_getElem?_eq_some.mpr hnode, ?_⟩
    refine List.mem_append_right _ (List.mem_map.mpr ⟨p, List.mem_filter.mpr ⟨hp, ?_⟩, rfl⟩)
    rw [hvar]
    rfl
  exact Bool.noConfusion (h _ hmem)

/-- The expression is let through, or what stops it begins with `var(`. -/
def Inspects (cel : Cel) (registry : RegistryView) (vars : Map String VarKind)
    (expr : ExprString) : Prop :=
  ∀ reason : String, inspect cel expr registry vars = .error reason →
    startsWith reason "var(" = true

variable {vars : Map String VarKind}

lemma checkExpr_inspects {path : String} {expr : ExprString} {role : ExprRole}
    (h : OnlyVars (checkExpr env.cel registry vars path expr role)) :
    Inspects env.cel registry vars expr := by
  intro reason hreason
  unfold checkExpr at h
  rw [hreason] at h
  exact h ⟨path, reason⟩ (List.mem_singleton.mpr rfl)

lemma mem_exprsIn {cs : List Condition} {expr : ExprString} :
    expr ∈ Condition.exprsIn cs ↔ ∃ c ∈ cs, expr ∈ c.exprs := by
  induction cs with
  | nil => simp [Condition.exprsIn]
  | cons c cs ih => simp [Condition.exprsIn, ih]

lemma checkConditions_onlyVars {path : String} {cs : List Condition} {i : Nat}
    (h : OnlyVars (checkConditions env.cel registry vars path i cs)) :
    ∀ c ∈ cs, ∃ at_ : String, OnlyVars (checkCondition env.cel registry vars at_ c) := by
  induction cs generalizing i with
  | nil => simp
  | cons c cs ih =>
    rw [checkConditions, onlyVars_append] at h
    intro d hd
    rcases List.mem_cons.mp hd with rfl | hd
    · exact ⟨_, h.1⟩
    · exact ih h.2 d hd

lemma checkCondition_inspects (c : Condition) : ∀ path : String,
    OnlyVars (checkCondition env.cel registry vars path c) →
      ∀ expr ∈ c.exprs, Inspects env.cel registry vars expr := by
  induction c using Condition.induct with
  | state entity field is availability => simp [Condition.exprs]
  | time after before weekday => simp [Condition.exprs]
  | sun after before offset afterOffset beforeOffset => simp [Condition.exprs]
  | expr source =>
    intro path h expr hexpr
    rw [checkCondition] at h
    rw [Condition.exprs, List.mem_singleton] at hexpr
    exact hexpr ▸ checkExpr_inspects h
  | all cs ih =>
    intro path h expr hexpr
    rw [checkCondition] at h
    obtain ⟨c, hc, hexpr⟩ := mem_exprsIn.mp (by simpa [Condition.exprs] using hexpr)
    obtain ⟨at_, hat⟩ := checkConditions_onlyVars h c hc
    exact ih c hc at_ hat expr hexpr
  | any cs ih =>
    intro path h expr hexpr
    rw [checkCondition] at h
    obtain ⟨c, hc, hexpr⟩ := mem_exprsIn.mp (by simpa [Condition.exprs] using hexpr)
    obtain ⟨at_, hat⟩ := checkConditions_onlyVars h c hc
    exact ih c hc at_ hat expr hexpr
  | not c ih =>
    intro path h expr hexpr
    rw [checkCondition] at h
    exact ih _ h expr (by simpa [Condition.exprs] using hexpr)

lemma checkSettings_inspects {service : RuleService} {entity : EntityId} {data : FlowCallData}
    (h : OnlyVars (Flow.checkSettings env registry vars service entity data)) :
    ∀ expr ∈ data.exprs.map Prod.snd, Inspects env.cel registry vars expr := by
  intro expr hexpr reason hreason
  obtain ⟨⟨field, _⟩, hmem, rfl⟩ := List.mem_map.mp hexpr
  unfold Flow.checkSettings at h
  rw [onlyVars_append] at h
  refine h.2 ⟨s!"data/{field}", reason⟩ (List.mem_filterMap.mpr ⟨_, hmem, ?_⟩)
  simp only at hreason ⊢
  rw [hreason]

/-- Every expression of a node without errors is let through, or stopped by what begins with
`var(`. -/
lemma checkNode_inspects {node : Node} (h : OnlyVars (Flow.checkNode env registry vars node)) :
    ∀ expr ∈ nodeExprs node, Inspects env.cel registry vars expr := by
  intro expr hexpr
  cases node with
  | gate condition =>
    rw [Flow.checkNode] at h
    exact checkCondition_inspects condition _ h expr hexpr
  | switch cases =>
    rw [Flow.checkNode] at h
    obtain ⟨c, hc, hexpr⟩ := mem_exprsIn.mp hexpr
    obtain ⟨at_, hat⟩ := checkConditions_onlyVars h c hc
    exact checkCondition_inspects c at_ hat expr hexpr
  | call service entity data =>
    cases data with
    | none => simp [nodeExprs] at hexpr
    | some data =>
      rw [Flow.checkNode] at h
      exact checkSettings_inspects h expr hexpr
  | set name source =>
    rw [nodeExprs, List.mem_singleton] at hexpr
    subst hexpr
    intro reason hreason
    rw [Flow.checkNode, hreason] at h
    exact h ⟨"expr", reason⟩ (List.mem_singleton.mpr rfl)
  | wait level timeout =>
    cases level with
    | state entity field is availability hold => simp [nodeExprs] at hexpr
    | expr source hold =>
      rw [nodeExprs, List.mem_singleton] at hexpr
      subst hexpr
      rw [Flow.checkNode, checkWaitUntil] at h
      exact checkExpr_inspects h
  | trigger _ => simp [nodeExprs] at hexpr
  | delay _ => simp [nodeExprs] at hexpr
  | join _ _ => simp [nodeExprs] at hexpr
  | stop _ => simp [nodeExprs] at hexpr

/-- What is known of the calls of an expression that is let through or stopped at a `var()`: those
before the first `var()` name what they read, and so do all of them if those from it on do. -/
lemma inspects_names {expr : ExprString} (h : Inspects env.cel registry vars expr) {ast : Expr}
    (hast : env.cel.compile expr = .ok ast)
    (hrest : ∀ c ∈ ast.calls.dropWhile (fun c => !isVarCall c), NamesHome registry c) :
    ∀ c ∈ ast.calls, NamesHome registry c := by
  have hseen := walkAst_seen registry vars ast
  cases hwalk : walkAst registry vars ast with
  | ok walked => exact hseen.1 walked hwalk
  | error reason =>
    have hreason : inspect env.cel expr registry vars = .error reason := by
      unfold inspect
      rw [hast]
      change walkAst registry vars ast >>= _ = _
      rw [hwalk]
      rfl
    obtain ⟨before, v, rest, hcalls, hv, hbefore⟩ := hseen.2 reason hwalk (h reason hreason)
    intro c hc
    by_cases hdrop : c ∈ ast.calls.dropWhile (fun c => !isVarCall c)
    · exact hrest c hdrop
    -- What isn't dropped stands before the first `var()`, and `v` is one.
    have htake : c ∈ ast.calls.takeWhile (fun c => !isVarCall c) := by
      rw [← List.takeWhile_append_dropWhile (p := fun c => !isVarCall c) (l := ast.calls)] at hc
      exact (List.mem_append.mp hc).resolve_right hdrop
    rw [hcalls] at htake
    have hsub : (before ++ v :: rest).takeWhile (fun c => !isVarCall c) =
        before.takeWhile (fun c => !isVarCall c) := by
      rw [List.takeWhile_append]
      split
      · rw [List.takeWhile_cons, if_neg (by simp [hv]), List.append_nil]
        next hlength =>
        exact ((List.takeWhile_prefix _).eq_of_length hlength).symm
      · rfl
    rw [hsub] at htake
    exact hbefore c (List.takeWhile_sublist _ |>.mem htake)

end

end Irori.Proofs
