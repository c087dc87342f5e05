import Mathlib.Data.List.TakeWhile
import Irori.Rules.Validate

/-!
# What the walk over an expression has seen

The walk stops at the first thing it refuses. Where it goes through, every call of the expression
names its entity in a literal and the home has it. Where it stops at a `var()`, that is known of
the calls before that `var()` and of no others.
-/

namespace Irori.Proofs

open Irori

lemma not_startsWith_of_head {text : String} {c : Char} (hc : c ≠ 'v')
    (h : text.toList.head? = some c) : startsWith text "var(" = false := by
  unfold startsWith
  cases htext : text.toList with
  | nil => simp [htext] at h
  | cons d rest =>
    rw [htext, List.head?_cons, Option.some.injEq] at h
    have hne : ('v' == d) = false := by simpa [h] using Ne.symm hc
    have htoList : "var(".toList = ['v', 'a', 'r', '('] := by decide
    rw [htoList, List.isPrefixOf, hne, Bool.false_and]

lemma head_append {a b : String} {c : Char} (h : a.toList.head? = some c) :
    (a ++ b).toList.head? = some c := by
  rw [String.toList_append, List.head?_append, h]
  rfl

lemma domain_not_var (kind : EntityKind) : startsWith kind.domain "var(" = false := by
  cases kind <;> decide

lemma prefix_before_dot {d tail : List Char} (h : "var(".toList <+: d ++ '.' :: tail) :
    "var(".toList <+: d := by
  have htoList : "var(".toList = ['v', 'a', 'r', '('] := by decide
  rw [htoList] at h ⊢
  match d with
  | [] => simp [List.cons_prefix_cons] at h
  | [a] => simp [List.cons_prefix_cons] at h
  | [a, b] => simp [List.cons_prefix_cons] at h
  | [a, b, c] => simp [List.cons_prefix_cons] at h
  | a :: b :: c :: e :: rest => simpa [List.cons_prefix_cons] using h

lemma entityId_not_var (id : EntityId) (rest : String) :
    startsWith (id.text ++ rest) "var(" = false := by
  by_contra hvar
  rw [Bool.not_eq_false, startsWith, List.isPrefixOf_iff_prefix, String.toList_append] at hvar
  have hform := id.wellFormed
  unfold checkEntityId splitOnce at hform
  dsimp only at hform
  by_cases hdot : id.text.toList.contains '.' = true
  · rw [if_pos hdot] at hform
    dsimp only at hform
    cases hkind : EntityKind.fromDomain
        (String.ofList (id.text.toList.takeWhile (· != '.'))) with
    | none => simp [hkind] at hform
    | some kind =>
      have hdomain : kind.domain.toList = id.text.toList.takeWhile (· != '.') := by
        have := List.find?_some hkind
        rw [beq_iff_eq] at this
        rw [this, String.toList_ofList]
      have hnot := domain_not_var kind
      rw [startsWith, Bool.eq_false_iff, ne_eq, List.isPrefixOf_iff_prefix, hdomain] at hnot
      have hmem : '.' ∈ id.text.toList := by simpa using hdot
      have hsplit := List.takeWhile_append_dropWhile (p := (· != '.')) (l := id.text.toList)
      cases hdrop : id.text.toList.dropWhile (· != '.') with
      | nil =>
        have := List.dropWhile_eq_nil_iff.mp hdrop '.' hmem
        simp at this
      | cons c tail =>
        have hc : c = '.' := by
          have := List.head?_dropWhile_not (· != '.') id.text.toList
          simpa [hdrop] using this
        rw [hdrop, hc] at hsplit
        rw [← hsplit, List.append_assoc] at hvar
        exact hnot (prefix_before_dot hvar)
  · rw [if_neg hdot] at hform
    simp at hform

def fnName (c : CallExpr) : String := authorName c.funcName

def isVarCall (c : CallExpr) : Bool := fnName c = "var"

def firstLiteral (c : CallExpr) : Option String := c.args.head?.bind Expr.stringLiteral

/-- A call that reads an entity names, in a literal, one that the registry has; a `var()` names
its variable in a literal. -/
def NamesHome (registry : RegistryView) (c : CallExpr) : Prop :=
  (fnName c ∈ entityFns → ∃ (id : String) (entityId : EntityId), firstLiteral c = some id ∧
    EntityId.parse id = .ok entityId ∧ (registry.entity entityId).isSome) ∧
  (isVarCall c = true → (firstLiteral c).isSome)

/-- The error of a check doesn't begin with `var(`. -/
def Plain {α : Type} (result : Except String α) : Prop :=
  ∀ reason : String, result = .error reason → startsWith reason "var(" = false

lemma plain_ok {α : Type} (a : α) : Plain (.ok a : Except String α) := by
  intro reason h
  simp at h

lemma plain_error {α : Type} {reason : String} (h : startsWith reason "var(" = false) :
    Plain (.error reason : Except String α) := by
  intro other hother
  simp only [Except.error.injEq] at hother
  rwa [← hother]

lemma plain_map {α β : Type} {result : Except String α} {f : α → β} (h : Plain result) :
    Plain (result.map f) := by
  cases result with
  | ok a => exact plain_ok _
  | error reason => exact plain_error (h reason rfl)

lemma plain_of_head {α : Type} {text : String} {c : Char} (hc : c ≠ 'v')
    (h : text.toList.head? = some c) : Plain (.error text : Except String α) :=
  plain_error (not_startsWith_of_head hc h)

lemma idError_plain {α : Type} (e : IdError) : Plain (.error e.display : Except String α) := by
  refine plain_of_head (c := 'i') (by decide) ?_
  unfold IdError.display
  repeat with_reducible apply head_append
  rfl

/-- The names of functions that don't begin with a `v`. -/
def NoV (name : String) : Prop := ∃ c : Char, c ≠ 'v' ∧ name.toList.head? = some c

lemma noV_of_mem {name : String} {names : List String} (h : name ∈ names)
    (hall : ∀ n ∈ names, (n.toList.head?.any fun c => c ≠ 'v') = true) : NoV name := by
  have := hall name h
  cases hhead : name.toList.head? with
  | none => simp [hhead] at this
  | some c => exact ⟨c, by simpa [hhead] using this, hhead⟩

lemma entityFns_noV {name : String} (h : name ∈ entityFns) : NoV name :=
  noV_of_mem h (by decide)

lemma checkArity_plain {name : String} (n : Nat) (h : name ≠ "var") :
    Plain (checkArity name n) := by
  unfold checkArity
  cases harity : arity name n with
  | none => exact plain_ok _
  | some expected =>
    have hno : NoV name := by
      unfold arity at harity
      split_ifs at harity with h1 h2 h3 h4 h5 h6 h7 h8 h9
      · exact noV_of_mem h1.1 (by decide)
      · have h2' : name ∈ ["num", "on", "text", "brightness", "available", "unknown"] := by
          simpa [h] using h2
        exact noV_of_mem h2' (by decide)
      · exact noV_of_mem h3 (by decide)
      · exact ⟨'r', by decide, by rw [h4]; rfl⟩
      · exact ⟨'c', by decide, by rw [h5]; rfl⟩
      · exact noV_of_mem h6 (by decide)
      · exact noV_of_mem h7 (by decide)
      · exact noV_of_mem h8 (by decide)
      · exact ⟨'_', by decide, by rw [h9]; rfl⟩
    obtain ⟨c, hc, hhead⟩ := hno
    dsimp only
    split
    · refine plain_of_head hc ?_
      repeat with_reducible apply head_append
      exact hhead
    · exact plain_ok _

lemma textCanBe_plain (entity : Entity) (text : String) : Plain (textCanBe entity text) := by
  unfold textCanBe
  cases entity.textOptions with
  | none => exact plain_ok _
  | some options =>
    dsimp only
    split
    · simp only [String.append_assoc]
      exact plain_error (entityId_not_var entity.id _)
    · exact plain_ok _

lemma checkTextComparison_plain (args : List Expr) (registry : RegistryView) :
    Plain (checkTextComparison args registry) := by
  unfold checkTextComparison
  split
  · dsimp only
    split
    · exact plain_ok _
    · split
      · exact textCanBe_plain _ _
      · exact plain_ok _
  · exact plain_ok _

lemma checkFnAgainstRegistry_plain {name : String} (h : NoV name) (id : EntityId)
    (registry : RegistryView) : Plain (checkFnAgainstRegistry name id registry) := by
  obtain ⟨c, hc, hhead⟩ := h
  unfold checkFnAgainstRegistry
  repeat' split
  all_goals first
    | exact plain_ok _
    | (refine plain_of_head hc ?_; (repeat with_reducible apply head_append); exact hhead)
    | (refine plain_of_head (c := 'n') (by decide) ?_; (repeat with_reducible apply head_append); rfl)
    | (refine plain_of_head (c := 't') (by decide) ?_; (repeat with_reducible apply head_append); rfl)
    | (refine plain_of_head (c := 'o') (by decide) ?_; (repeat with_reducible apply head_append); rfl)
    | (refine plain_of_head (c := 'b') (by decide) ?_; (repeat with_reducible apply head_append); rfl)

lemma checkFieldAgainstRegistry_plain {name : String} (h : NoV name) (id : EntityId)
    (field : String) (registry : RegistryView) :
    Plain (checkFieldAgainstRegistry name id field registry) := by
  obtain ⟨c, hc, hhead⟩ := h
  unfold checkFieldAgainstRegistry
  dsimp only [toString]
  repeat' split
  all_goals first
    | exact plain_ok _
    | (refine plain_of_head hc ?_; (repeat with_reducible apply head_append); exact hhead)

lemma checkEntityFn_plain {name : String} (h : NoV name) (args : List Expr)
    (registry : RegistryView) : Plain (checkEntityFn name args registry) := by
  have hnamed := h
  obtain ⟨c, hc, hhead⟩ := hnamed
  unfold checkEntityFn
  split
  · exact plain_of_head hc (head_append hhead)
  split
  · exact plain_of_head hc (head_append hhead)
  split
  · exact idError_plain _
  split
  · split
    · exact plain_map (checkFnAgainstRegistry_plain h _ _)
    · split
      · exact plain_of_head hc (head_append hhead)
      · exact plain_map (checkFieldAgainstRegistry_plain h _ _ _)
  split
  · refine plain_of_head hc ?_
    repeat with_reducible apply head_append
    exact hhead
  split
  · exact plain_of_head (c := 'a') (by decide) rfl
  split
  · exact idError_plain _
  · exact plain_ok _

lemma bind_ok {α β : Type} {x : Except String α} {f : α → Except String β} {b : β}
    (h : x >>= f = .ok b) : ∃ a : α, x = .ok a ∧ f a = .ok b := by
  cases x with
  | error e => cases h
  | ok a => exact ⟨a, rfl, h⟩

lemma bind_plain {α β : Type} {x : Except String α} {f : α → Except String β} (hx : Plain x)
    (hf : ∀ a : α, Plain (f a)) : Plain (x >>= f) := by
  cases x with
  | error e => exact plain_error (hx e rfl)
  | ok a => exact hf a

section

variable {registry : RegistryView} {sets : Map String VarKind} {c : CallExpr}

lemma checkEntityFn_names {name : String} {args : List Expr} {id : EntityId}
    (h : checkEntityFn name args registry = .ok id) :
    ∃ (text : String) (entityId : EntityId), args.head?.bind Expr.stringLiteral = some text ∧
      EntityId.parse text = .ok entityId ∧ (registry.entity entityId).isSome := by
  unfold checkEntityFn at h
  split at h
  · simp at h
  next first rest =>
  split at h
  · simp at h
  next text htext =>
  split at h
  · simp at h
  next entityId hid =>
  refine ⟨text, entityId, htext, hid, ?_⟩
  cases hentity : registry.entity entityId with
  | some entity => rfl
  | none =>
    split at h
    · split at h
      · simp [checkFnAgainstRegistry, hentity, Except.map] at h
      · split at h
        · simp at h
        · simp [checkFieldAgainstRegistry, hentity, Except.map] at h
    · simp [hentity] at h

lemma checkVarFn_names {args : List Expr} (h : checkVarFn args sets = .ok ()) :
    (args.head?.bind Expr.stringLiteral).isSome := by
  unfold checkVarFn at h
  split at h
  · simp at h
  next first rest =>
  split at h
  · simp at h
  next text htext => simp [htext]

lemma checkCallExpr_names {w : Walked} (h : checkCallExpr registry sets c = .ok w) :
    NamesHome registry c := by
  unfold checkCallExpr at h
  dsimp only at h
  split at h
  · simp at h
  split at h
  · simp at h
  obtain ⟨-, -, h⟩ := bind_ok h
  obtain ⟨-, -, h⟩ := bind_ok h
  obtain ⟨ids, hcallee, -⟩ := bind_ok h
  unfold checkCallee at hcallee
  constructor
  · intro hentity
    have hmem : authorName c.funcName ∈ entityFns := hentity
    rw [if_pos hmem] at hcallee
    cases hid : checkEntityFn (authorName c.funcName) c.args registry with
    | error e => simp [hid, Except.map] at hcallee
    | ok id => exact checkEntityFn_names hid
  · intro hvar
    have hname : authorName c.funcName = "var" := of_decide_eq_true hvar
    rw [hname, if_neg (by decide), if_pos rfl] at hcallee
    cases hok : checkVarFn c.args sets with
    | error e => simp [hok, Except.map] at hcallee
    | ok u => exact checkVarFn_names hok

lemma checkCallExpr_plain (h : isVarCall c = false) : Plain (checkCallExpr registry sets c) := by
  have hname : authorName c.funcName ≠ "var" := of_decide_eq_false h
  unfold checkCallExpr
  dsimp only
  split
  · next hmem =>
    obtain ⟨d, hd, hhead⟩ := noV_of_mem hmem (by decide)
    exact plain_of_head hd (head_append hhead)
  split
  · exact plain_of_head (c := 'm') (by decide) rfl
  refine bind_plain (checkArity_plain _ hname) fun _ => bind_plain ?_ fun _ => bind_plain ?_ fun _ =>
    plain_ok _
  · unfold checkComparison
    split
    · exact checkTextComparison_plain _ _
    · exact plain_ok _
  · unfold checkCallee
    split
    · next hmem => exact plain_map (checkEntityFn_plain (entityFns_noV hmem) _ _)
    split
    · exact plain_ok _
    · refine plain_of_head (c := 'u') (by decide) ?_
      repeat with_reducible apply head_append
      rfl

end

/-- The walk stopped at a `var()`: what is known of the calls before it. -/
def StopsAtVar (registry : RegistryView) (calls : List CallExpr) : Prop :=
  ∃ (before : List CallExpr) (v : CallExpr) (rest : List CallExpr),
    calls = before ++ v :: rest ∧ isVarCall v = true ∧ ∀ c ∈ before, NamesHome registry c

lemma stopsAtVar_append {registry : RegistryView} {before calls : List CallExpr}
    (hbefore : ∀ c ∈ before, NamesHome registry c) (h : StopsAtVar registry calls)
    (rest : List CallExpr) : StopsAtVar registry (before ++ (calls ++ rest)) := by
  obtain ⟨first, v, others, rfl, hv, hfirst⟩ := h
  refine ⟨before ++ first, v, others ++ rest, by simp, hv, ?_⟩
  intro c hc
  rcases List.mem_append.mp hc with hc | hc
  · exact hbefore c hc
  · exact hfirst c hc

def Seen {α : Type} (registry : RegistryView) (calls : List CallExpr)
    (result : Except String α) : Prop :=
  (∀ a : α, result = .ok a → ∀ c ∈ calls, NamesHome registry c) ∧
    ∀ reason : String, result = .error reason → startsWith reason "var(" = true →
      StopsAtVar registry calls

lemma seen_ok {α : Type} {registry : RegistryView} (a : α) :
    Seen registry [] (.ok a : Except String α) :=
  ⟨by simp, by simp⟩

lemma seen_plain {α : Type} {registry : RegistryView} {calls : List CallExpr} {reason : String}
    (h : startsWith reason "var(" = false) :
    Seen registry calls (.error reason : Except String α) := by
  refine ⟨by simp, ?_⟩
  intro other hother hvar
  simp only [Except.error.injEq] at hother
  rw [← hother, h] at hvar
  simp at hvar

lemma seen_bind {α β : Type} {registry : RegistryView} {calls more : List CallExpr}
    {x : Except String α} {f : α → Except String β} (hx : Seen registry calls x)
    (hf : ∀ a : α, x = .ok a → Seen registry more (f a)) :
    Seen registry (calls ++ more) (x >>= f) := by
  cases x with
  | error e =>
    refine ⟨fun b hb => (by cases hb), fun reason hreason hvar => ?_⟩
    have he : (.error e : Except String α) = .error reason := by
      cases hreason
      rfl
    have hnone : ∀ c ∈ ([] : List CallExpr), NamesHome registry c := by simp
    exact stopsAtVar_append hnone (hx.2 reason he hvar) more
  | ok a =>
    refine ⟨fun b hb c hc => ?_, fun reason hreason hvar => ?_⟩
    · rcases List.mem_append.mp hc with hc | hc
      · exact hx.1 a rfl c hc
      · exact (hf a rfl).1 b hb c hc
    · have := stopsAtVar_append (hx.1 a rfl) ((hf a rfl).2 reason hreason hvar) []
      simpa using this

lemma seen_return {α β : Type} {registry : RegistryView} {calls : List CallExpr}
    {x : Except String α} (f : α → β) (hx : Seen registry calls x) :
    Seen registry calls (x >>= fun a => .ok (f a)) := by
  have h : Seen registry (calls ++ []) (x >>= fun a => .ok (f a)) :=
    seen_bind hx fun a _ => seen_ok (f a)
  rwa [List.append_nil] at h

lemma seen_call {registry : RegistryView} {sets : Map String VarKind} (c : CallExpr) :
    Seen registry [c] (checkCallExpr registry sets c) := by
  refine ⟨fun w hw d hd => ?_, fun reason hreason hvar => ?_⟩
  · rw [List.mem_singleton.mp hd]
    exact checkCallExpr_names hw
  · refine ⟨[], c, [], rfl, ?_, by simp⟩
    by_contra hnot
    rw [checkCallExpr_plain (Bool.not_eq_true _ ▸ hnot) reason hreason] at hvar
    simp at hvar

section

variable (registry : RegistryView) (sets : Map String VarKind)

mutual

/-- Where the walk goes through, every call names what it reads; where it stops with an error that
begins with `var(`, it stopped at a `var()`, and every call before that one does. -/
theorem walkAst_seen : ∀ e : Expr, Seen registry e.calls (walkAst registry sets e)
  | .unspecified => by rw [walkAst, Expr.calls]; exact seen_ok _
  | .literal _ => by rw [walkAst, Expr.calls]; exact seen_ok _
  | .ident _ => by
    rw [walkAst]
    refine seen_plain (not_startsWith_of_head (c := 'u') (by decide) ?_)
    repeat with_reducible apply head_append
    rfl
  | .list _ => by rw [walkAst]; exact seen_plain (by decide)
  | .map _ _ => by rw [walkAst]; exact seen_plain (by decide)
  | .struct _ _ _ => by rw [walkAst]; exact seen_plain (by decide)
  | .select _ _ => by rw [walkAst]; exact seen_plain (by decide)
  | .comprehension .. => by rw [walkAst]; exact seen_plain (by decide)
  | .call funcName args => by
    rw [walkAst, Expr.calls]
    exact seen_bind (seen_call ⟨funcName, args⟩) fun _ _ => seen_return _ (walkArgs_seen args)
  | .memberCall target funcName args => by
    rw [walkAst, Expr.calls]
    exact seen_bind (seen_call ⟨funcName, args⟩) fun _ _ =>
      seen_bind (walkArgs_seen args) fun _ _ => seen_return _ (walkAst_seen target)

theorem walkArgs_seen : ∀ args : List Expr,
    Seen registry (Expr.callsIn args) (walkArgs registry sets args)
  | [] => by rw [walkArgs, Expr.callsIn]; exact seen_ok _
  | arg :: args => by
    rw [walkArgs, Expr.callsIn]
    exact seen_bind (walkAst_seen arg) fun _ _ => seen_return _ (walkArgs_seen args)

end

end

end Irori.Proofs
