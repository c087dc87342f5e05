import Irori.Proofs.Expressions
import Irori.Sample

/-!
# What an expression works out to

The checks give an expression a kind, and working it out gives a value of that kind or an error.
They don't look at the operands of an operator, nor know what an attribute will turn out to be.
-/

namespace Irori

/-! ### Kinds of values -/

def VarKind.has : VarKind → Value → Bool
  | .scalar, _ => true
  | .bool, .bool _ => true
  | .number, .int _ => true
  | .number, .uint _ => true
  | .number, .float _ => true
  | .string, .string _ => true
  | _, _ => false

def VarKind.hasJson : VarKind → Json → Bool
  | .scalar, _ => true
  | .bool, .bool _ => true
  | .number, .number _ => true
  | .string, .string _ => true
  | _, _ => false

def Snapshot.VarsMatch (snapshot : Snapshot) (kinds : Map String VarKind) : Prop :=
  ∀ (name : String) (kind : VarKind) (value : Json), kinds[name]? = some kind →
    snapshot.vars[name]? = some value → kind.hasJson value = true

/-- What the entities are doing is what the registry says they can. -/
def Snapshot.StatesMatch (snapshot : Snapshot) (registry : RegistryView) : Prop :=
  ∀ id found state, snapshot.states[id]? = some found → found.state = some state →
    ∃ entity, registry.entity id = some entity ∧ entity.kind = state.kind ∧
      entity.primaryShape = some state.primary.shape ∧
      ∀ field value, state.field field = some value → entity.fieldShape field = some value.shape

/-! ### What CEL says of itself -/

def LiteralValue.toValue : LiteralValue → Value
  | .boolean b => .bool b
  | .bytes content => .other s!"Bytes({content})"
  | .double q => .float q
  | .int i => .int i
  | .null => .null
  | .string s => .string s
  | .uint u => .uint u

namespace Cel

def Gives (cel : Cel) (functions : Functions) (expr : Expr) (value : Value) : Prop :=
  ∃ reads reads', cel.execute expr functions reads = (.ok value, reads')

def arithmetic : List String := ["_-_", "_*_", "_/_", "-_"]

def verdicts : List String :=
  ["_&&_", "_||_", "!_", "_==_", "_!=_", "_>=_", "_<=_", "_>_", "_<_"]

/-- A call that worked out: its arguments did, and the function gave the value on theirs. -/
def Calls (cel : Cel) (functions : Functions) (name : String) (args : List Expr) (value : Value) :
    Prop :=
  ∃ values reads reads', List.Forall₂ (cel.Gives functions) args values ∧
    functions name values reads = (.ok value, reads')

end Cel

/-- What the rules' functions give: a plain value, never a list, a map or a moment. -/
def Functions.GivesPlain (functions : Functions) : Prop :=
  ∀ name values reads value reads', functions name values reads = (.ok value, reads') →
    ∀ shown, value ≠ .other shown

def callNames : List String := entityFns ++ ["var"] ++ ops ++ clockFns ++ mathFns

inductive Surface : Expr → Prop
  | unspecified : Surface .unspecified
  | literal (value : LiteralValue) : Surface (.literal value)
  | call {name : String} {args : List Expr} (hname : authorName name ∈ callNames)
      (hargs : ∀ arg ∈ args, Surface arg) : Surface (.call name args)
  | member {target : Expr} {name : String} {args : List Expr}
      (hname : authorName name ∈ callNames) (hargs : ∀ arg ∈ args, Surface arg)
      (htarget : Surface target) : Surface (.memberCall target name args)

namespace Cel

/-- CEL's literals and operators, over the rules' functions: `+` adds two numbers and joins two
texts, comparisons and logic say yes or no, and a choice is one of its branches. All else is a call,
which doesn't look at what it is called on. -/
structure Documented (cel : Cel) : Prop where
  literal : ∀ functions literal value, cel.Gives functions (.literal literal) value →
    value = literal.toValue
  add : ∀ functions a b value, cel.Gives functions (.call "_+_" [a, b]) value →
    ∃ left right, cel.Gives functions a left ∧ cel.Gives functions b right ∧
      (VarKind.number.has left = true ∨ VarKind.number.has right = true →
        VarKind.number.has value = true) ∧
      VarKind.bool.has left = false ∧ VarKind.bool.has right = false
  arithmetic : ∀ functions : Functions, functions.GivesPlain → ∀ name ∈ Cel.arithmetic,
    ∀ args value, Surface (.call name args) → cel.Gives functions (.call name args) value →
    VarKind.number.has value = true
  verdict : ∀ functions, ∀ name ∈ Cel.verdicts, ∀ args value,
    cel.Gives functions (.call name args) value → VarKind.bool.has value = true
  choice : ∀ functions test yes no value,
    cel.Gives functions (.call "_?_:_" [test, yes, no]) value →
    cel.Gives functions yes value ∨ cel.Gives functions no value
  call : ∀ functions name args value, name ∉ ops → Surface (.call name args) →
    cel.Gives functions (.call name args) value → cel.Calls functions name args value
  member : ∀ functions target name args value, Surface (.memberCall target name args) →
    cel.Gives functions (.memberCall target name args) value →
    cel.Gives functions (.call name args) value

end Cel

/-- Nothing the expression can come to hangs on what an attribute turns out to be: a choice is
between two of one kind, and one side of a sum is known not to be text. -/
inductive Settled (kinds : Map String VarKind) : Expr → Prop
  | literal (value : LiteralValue) : Settled kinds (.literal value)
  | sumLeft {a b : Expr} {kind : VarKind} (ha : Settled kinds a)
      (hinfer : inferType kinds a = .ok kind) (hkind : kind = .bool ∨ kind = .number) :
      Settled kinds (.call "_+_" [a, b])
  | sumRight {a b : Expr} {kind : VarKind} (hb : Settled kinds b)
      (hinfer : inferType kinds b = .ok kind) (hkind : kind = .bool ∨ kind = .number) :
      Settled kinds (.call "_+_" [a, b])
  | choice {test yes no : Expr} {kind : VarKind} (hyes : Settled kinds yes)
      (hno : Settled kinds no) (hinfer : inferType kinds yes = .ok kind)
      (hinfer' : inferType kinds no = .ok kind) : Settled kinds (.call "_?_:_" [test, yes, no])
  | call {name : String} {args : List Expr} (hsum : name ≠ "_+_") (hchoice : name ≠ "_?_:_") :
      Settled kinds (.call name args)
  | member {target : Expr} {name : String} {args : List Expr}
      (hcall : Settled kinds (.call name args)) : Settled kinds (.memberCall target name args)

namespace Proofs
open Irori

variable {cel : Cel} {clock : Clock} {place : Option Place} {snapshot : Snapshot}
  {kinds : Map String VarKind} {kind : VarKind} {value : Value} {reads reads' : List Read}

/-! ### What the functions give -/

lemma has_fromJson {json : Json} (h : kind.hasJson json = true) :
    kind.has (fromJson json) = true := by
  cases kind <;> cases json <;> simp_all [VarKind.hasJson, VarKind.has, fromJson]

lemma hasJson_toJson {source : ExprString} {json : Json} (h : kind.has value = true)
    (hjson : toJson value source = .ok json) : kind.hasJson json = true := by
  unfold toJson at hjson
  split at hjson
  case h_4 =>
    split at hjson
    · cases hjson
      cases kind <;> first | rfl | cases h
    · cases hjson
      cases kind <;> first | rfl | cases h
  case h_7 => cases hjson
  all_goals
    cases hjson
    cases kind <;> first | rfl | cases h

def shapeKind : ValueShape → VarKind
  | .number => .number
  | .bool => .bool
  | .text => .string

lemma readField_has {function : String} {shape : ValueShape} {state : State} {id field : String}
    (h : readField function shape state id field = .ok value) :
    (shapeKind shape).has value = true := by
  unfold readField at h
  split at h
  · cases h
  · next typed _ =>
    split at h
    · cases h
    · next hshape =>
      rw [not_not] at hshape
      cases h
      cases typed <;> cases hshape <;> rfl

lemma valuedFn_has {name : String} {shape : ValueShape}
    {read : State → String → Except String Value} {states : Map EntityId EntityState}
    {args : List Value}
    (hread : ∀ state id value, read state id = .ok value → (shapeKind shape).has value = true)
    (h : valuedFn name shape read states args reads = (.ok value, reads')) :
    (shapeKind shape).has value = true := by
  unfold valuedFn at h
  split at h
  · obtain ⟨state, -, hstate⟩ := bind_ok (congrArg Prod.fst h)
    exact hread _ _ _ hstate
  · obtain ⟨state, -, hstate⟩ := bind_ok (congrArg Prod.fst h)
    exact readField_has hstate
  · cases h

lemma readNum_has {state : State} {id : String} (h : readNum state id = .ok value) :
    VarKind.number.has value = true := by
  unfold readNum at h
  split at h <;> cases h
  rfl

lemma readOn_has {state : State} {id : String} (h : readOn state id = .ok value) :
    VarKind.bool.has value = true := by
  unfold readOn at h
  split at h <;> cases h
  rfl

lemma readText_has {state : State} {id : String} (h : readText state id = .ok value) :
    VarKind.string.has value = true := by
  unfold readText at h
  split at h <;> cases h
  rfl

lemma readBrightness_has {state : State} {id : String} (h : readBrightness state id = .ok value) :
    VarKind.number.has value = true := by
  unfold readBrightness at h
  split at h
  · split at h <;> cases h
    rfl
  · cases h

/-- The kind of what a function gives, where it is always the same. -/
def givenKind (name : String) : Option VarKind :=
  if name ∈ ["num", "brightness", "hour", "minute", "now_ts", "min", "max", "round", "clamp"] then
    some .number
  else if name ∈ ["on", "available", "unknown"] then some .bool
  else if name = "text" then some .string
  else none

lemma entityFn_eq {args : List Value} {f : String → List Read → Except String Value × List Read}
    (h : entityFn args reads f = (.ok value, reads')) :
    ∃ id reads, f id reads = (.ok value, reads') := by
  unfold entityFn at h
  split at h
  · cases h
  · exact ⟨_, _, h⟩

lemma map_ok {α β : Type} {x : Except String α} {f : α → β} {b : β} (h : x.map f = .ok b) :
    ∃ a, x = .ok a ∧ f a = b := by
  cases x with
  | error e => cases h
  | ok a => exact ⟨a, rfl, Except.ok.inj h⟩

lemma pureFn_has {name : String} {args : List Value}
    (h : pureFn snapshot clock place name args = .ok value) :
    (name = varFn ∧ ∃ named json, textArgument args 0 = .ok named ∧
      snapshot.vars[named]? = some json ∧ value = fromJson json) ∨
    (givenKind name = some .number ∧ VarKind.number.has value = true) := by
  unfold pureFn at h
  split at h
  · next hname =>
    obtain ⟨named, hnamed, h⟩ := bind_ok h
    split at h
    · next json hjson =>
      cases h
      exact .inl ⟨hname, named, json, hnamed, hjson, rfl⟩
    · cases h
  · right
    split at h
    · cases h
      exact ⟨rfl, rfl⟩
    · obtain ⟨_, -, h⟩ := bind_ok h
      split at h <;> cases h
      exact ⟨rfl, rfl⟩
    · obtain ⟨_, -, h⟩ := bind_ok h
      split at h <;> cases h
      exact ⟨rfl, rfl⟩
    · obtain ⟨_, -, h⟩ := bind_ok h
      split at h <;> cases h
      exact ⟨rfl, rfl⟩
    · obtain ⟨_, -, h⟩ := bind_ok h
      split at h
      · split at h <;> cases h
        exact ⟨rfl, rfl⟩
      · cases h
    · split at h <;> cases h
      exact ⟨rfl, rfl⟩
    · split at h <;> cases h
      exact ⟨rfl, rfl⟩
    · cases h

lemma attrOf_eq {states : Map EntityId EntityState} {id key : String}
    (h : attrOf states id key reads = (.ok value, reads')) : ∃ json, value = fromJson json := by
  obtain ⟨found, -, h⟩ := bind_ok (congrArg Prod.fst h)
  split at h
  · cases h
  · split at h
    · cases h
    · split at h
      · cases h
        exact ⟨_, rfl⟩
      · cases h

lemma bind_has {name : String} {args : List Value}
    (h : bind clock place snapshot name args reads = (.ok value, reads')) :
    (name = "attr" ∧ ∃ json, value = fromJson json) ∨
    (name = varFn ∧ ∃ named json, textArgument args 0 = .ok named ∧
      snapshot.vars[named]? = some json ∧ value = fromJson json) ∨
    ∃ kind, givenKind name = some kind ∧ kind.has value = true := by
  unfold bind at h
  split at h
  · exact .inr (.inr ⟨.number, rfl, valuedFn_has (fun _ _ _ => readNum_has) h⟩)
  · exact .inr (.inr ⟨.bool, rfl, valuedFn_has (fun _ _ _ => readOn_has) h⟩)
  · exact .inr (.inr ⟨.string, rfl, valuedFn_has (fun _ _ _ => readText_has) h⟩)
  · obtain ⟨id, _, h⟩ := entityFn_eq h
    obtain ⟨state, -, hstate⟩ := bind_ok (congrArg Prod.fst h)
    exact .inr (.inr ⟨.number, rfl, readBrightness_has hstate⟩)
  · obtain ⟨id, _, h⟩ := entityFn_eq h
    obtain ⟨state, -, rfl⟩ := map_ok (congrArg Prod.fst h)
    exact .inr (.inr ⟨.bool, rfl, rfl⟩)
  · obtain ⟨id, _, h⟩ := entityFn_eq h
    obtain ⟨state, -, rfl⟩ := map_ok (congrArg Prod.fst h)
    exact .inr (.inr ⟨.bool, rfl, rfl⟩)
  · obtain ⟨id, _, h⟩ := entityFn_eq h
    split at h
    · cases h
    · exact .inl ⟨rfl, attrOf_eq h⟩
  · rcases pureFn_has (congrArg Prod.fst h) with hvar | ⟨hname, hvalue⟩
    · exact .inr (.inl hvar)
    · exact .inr (.inr ⟨.number, hname, hvalue⟩)

lemma bind_givesPlain : (bind clock place snapshot).GivesPlain := by
  intro name args reads value reads' h shown
  rintro rfl
  rcases bind_has h with ⟨-, json, hjson⟩ | ⟨-, -, json, -, -, hjson⟩ | ⟨kind, hgiven, hvalue⟩
  · cases json <;> cases hjson
  · cases json <;> cases hjson
  · unfold givenKind at hgiven
    split_ifs at hgiven <;> cases hgiven <;> cases hvalue

/-! ### What is let through -/

lemma checkCallExpr_name {registry : RegistryView} {call : CallExpr} {walked : Walked}
    (h : checkCallExpr registry kinds call = .ok walked) :
    authorName call.funcName ∈ callNames := by
  unfold checkCallExpr at h
  dsimp only at h
  split at h
  · cases h
  · split at h
    · cases h
    · obtain ⟨-, -, h⟩ := bind_ok h
      obtain ⟨-, -, h⟩ := bind_ok h
      obtain ⟨ids, hcallee, -⟩ := bind_ok h
      unfold checkCallee at hcallee
      unfold callNames
      split at hcallee
      · next hname => simp [hname]
      · split at hcallee
        · next hname => simp [hname]
        · split at hcallee
          · next hname => rcases hname with hname | hname | hname <;> simp [hname]
          · cases hcallee

mutual

theorem walkAst_surface {registry : RegistryView} : ∀ (expr : Expr) {walked : Walked},
    walkAst registry kinds expr = .ok walked → Surface expr
  | .unspecified, _, _ => .unspecified
  | .literal _, _, _ => .literal _
  | .ident _, _, h => by rw [walkAst] at h; cases h
  | .list _, _, h => by rw [walkAst] at h; cases h
  | .map _ _, _, h => by rw [walkAst] at h; cases h
  | .struct _ _ _, _, h => by rw [walkAst] at h; cases h
  | .select _ _, _, h => by rw [walkAst] at h; cases h
  | .comprehension .., _, h => by rw [walkAst] at h; cases h
  | .call _ args, _, h => by
    rw [walkAst] at h
    obtain ⟨_, hhere, h⟩ := bind_ok h
    obtain ⟨_, hinside, -⟩ := bind_ok h
    exact .call (checkCallExpr_name hhere) (walkArgs_surface args hinside)
  | .memberCall target _ args, _, h => by
    rw [walkAst] at h
    obtain ⟨_, hhere, h⟩ := bind_ok h
    obtain ⟨_, hinside, h⟩ := bind_ok h
    obtain ⟨_, hon, -⟩ := bind_ok h
    exact .member (checkCallExpr_name hhere) (walkArgs_surface args hinside)
      (walkAst_surface target hon)

theorem walkArgs_surface {registry : RegistryView} : ∀ (args : List Expr) {walked : Walked},
    walkArgs registry kinds args = .ok walked → ∀ arg ∈ args, Surface arg
  | [], _, _ => by simp
  | first :: others, _, h => by
    rw [walkArgs] at h
    obtain ⟨_, hfirst, h⟩ := bind_ok h
    obtain ⟨_, hothers, -⟩ := bind_ok h
    intro arg harg
    rcases List.mem_cons.1 harg with heq | harg
    · rw [heq]
      exact walkAst_surface first hfirst
    · exact walkArgs_surface others hothers arg harg

end

/-! ### What is inferred -/

def numberCalls : List String :=
  ["num", "brightness", "hour", "minute", "now_ts", "_+_", "_-_", "_*_", "_/_", "-_"]

def boolCalls : List String :=
  ["on", "available", "unknown", "_&&_", "_||_", "!_", "_==_", "_!=_", "_>=_", "_<=_", "_>_",
    "_<_"]

section Calls

variable {name : String} {args : List Expr} {inferred : List (Except String VarKind)}

lemma inferCall_number (hname : name ∈ numberCalls)
    (h : inferCall kinds ⟨name, args⟩ inferred = .ok kind) : kind = .number := by
  have hauthor : authorName name = name := by
    unfold authorName
    rw [if_neg]
    rintro rfl
    exact absurd hname (by decide)
  unfold numberCalls at hname
  unfold inferCall at h
  dsimp only at h
  rw [hauthor, if_pos hname] at h
  exact (Except.ok.inj h).symm

lemma inferCall_bool (hname : name ∈ boolCalls)
    (h : inferCall kinds ⟨name, args⟩ inferred = .ok kind) : kind = .bool := by
  have hauthor : authorName name = name := by
    unfold authorName
    rw [if_neg]
    rintro rfl
    exact absurd hname (by decide)
  have hother := (by decide : ∀ name ∈ boolCalls,
    name ∉ numberCalls ∧ name ∉ ["min", "max", "round", "clamp"]) name hname
  unfold numberCalls at hother
  unfold boolCalls at hname
  unfold inferCall at h
  dsimp only at h
  rw [hauthor, if_neg hother.1, if_neg hother.2, if_pos hname] at h
  exact (Except.ok.inj h).symm

lemma inferCall_maths (hname : name ∈ ["min", "max", "round", "clamp"])
    (h : inferCall kinds ⟨name, args⟩ inferred = .ok kind) : kind = .number := by
  have hauthor : authorName name = name := by
    unfold authorName
    rw [if_neg]
    rintro rfl
    exact absurd hname (by decide)
  have hother := (by decide : ∀ name ∈ ["min", "max", "round", "clamp"],
    name ∉ numberCalls) name hname
  unfold numberCalls at hother
  unfold inferCall at h
  dsimp only at h
  rw [hauthor, if_neg hother, if_pos hname] at h
  obtain ⟨-, -, h⟩ := bind_ok h
  exact (Except.ok.inj h).symm

lemma inferCall_text (h : inferCall kinds ⟨"text", args⟩ inferred = .ok kind) :
    kind = .string := by
  unfold inferCall at h
  exact (Except.ok.inj h).symm

lemma inferCall_attr (h : inferCall kinds ⟨"attr", args⟩ inferred = .ok kind) :
    kind = .scalar := by
  unfold inferCall at h
  exact (Except.ok.inj h).symm

lemma inferCall_var (h : inferCall kinds ⟨varFn, args⟩ inferred = .ok kind) :
    ∃ named, args.head?.bind Expr.stringLiteral = some named ∧ kinds[named]? = some kind := by
  have hname : authorName varFn = "var" := rfl
  unfold inferCall at h
  dsimp only at h
  rw [hname, if_neg (by decide), if_neg (by decide), if_neg (by decide), if_neg (by decide),
    if_neg (by decide), if_pos rfl] at h
  split at h
  · cases h
  · next named hnamed =>
    split at h
    · next found hfound =>
      cases h
      exact ⟨named, hnamed, hfound⟩
    · cases h

lemma inferCall_choice {test : Except String VarKind} {branch : VarKind}
    (h : inferCall kinds ⟨"_?_:_", args⟩ [test, .ok branch, .ok branch] = .ok kind) :
    kind = branch := by
  have hchoice : inferCall kinds ⟨"_?_:_", args⟩ [test, .ok branch, .ok branch] =
      if branch = branch then .ok branch
      else if branch = .scalar then .ok branch
      else if branch = .scalar then .ok branch
      else .error "ternary branches must be the same type" := rfl
  rw [hchoice, if_pos rfl] at h
  exact (Except.ok.inj h).symm

lemma inferCall_given {given : VarKind} (hgiven : givenKind name = some given)
    (h : inferCall kinds ⟨name, args⟩ inferred = .ok kind) : kind = given := by
  unfold givenKind at hgiven
  split at hgiven
  · next hname =>
    cases hgiven
    rcases List.mem_append.1 (show name ∈ ["num", "brightness", "hour", "minute", "now_ts"] ++
      ["min", "max", "round", "clamp"] from hname) with hname | hname
    · exact inferCall_number (List.mem_append_left
        ["_+_", "_-_", "_*_", "_/_", "-_"] hname) h
    · exact inferCall_maths hname h
  · split at hgiven
    · next hname =>
      cases hgiven
      exact inferCall_bool (List.mem_append_left
        ["_&&_", "_||_", "!_", "_==_", "_!=_", "_>=_", "_<=_", "_>_", "_<_"] hname) h
    · split at hgiven
      · next hname =>
        cases hgiven
        subst hname
        exact inferCall_text h
      · cases hgiven

end Calls

/-! ### What an expression gives -/

variable {functions : Functions} {registry : RegistryView}

lemma stringLiteral_eq {expr : Expr} {text : String} (h : expr.stringLiteral = some text) :
    expr = .literal (.string text) := by
  unfold Expr.stringLiteral at h
  split at h
  · cases h
    rfl
  · cases h

lemma calls_has (hcel : cel.Documented) (hvars : snapshot.VarsMatch kinds) {name : String}
    {args : List Expr} {inferred : List (Except String VarKind)}
    (hinfer : inferCall kinds ⟨name, args⟩ inferred = .ok kind)
    (h : cel.Calls (bind clock place snapshot) name args value) : kind.has value = true := by
  obtain ⟨values, reads, reads', hvalues, hbind⟩ := h
  rcases bind_has hbind with
    ⟨rfl, -⟩ | ⟨rfl, named, json, hnamed, hjson, rfl⟩ | ⟨given, hgiven, hvalue⟩
  · rw [inferCall_attr hinfer]
    rfl
  · obtain ⟨written, hwritten, hkind⟩ := inferCall_var hinfer
    obtain rfl : written = named := by
      cases hvalues with
      | nil => cases hwritten
      | @cons arg first args values hfirst _ =>
        obtain rfl := stringLiteral_eq hwritten
        obtain rfl := hcel.literal _ _ _ hfirst
        exact Except.ok.inj hnamed
    exact has_fromJson (hvars _ _ _ hkind hjson)
  · rw [inferCall_given hgiven hinfer]
    exact hvalue

lemma gives_has (hcel : cel.Documented) (hvars : snapshot.VarsMatch kinds) {expr : Expr}
    (hsettled : Irori.Settled kinds expr) : Surface expr → ∀ {kind value},
      inferType kinds expr = .ok kind → cel.Gives (bind clock place snapshot) expr value →
      kind.has value = true := by
  induction hsettled with
  | literal literal =>
    intro _ kind value hinfer hgives
    obtain rfl := hcel.literal _ _ _ hgives
    cases literal <;> cases hinfer <;> rfl
  | sumLeft ha hinfer' hkind ih =>
    intro hsurface kind value hinfer hgives
    obtain ⟨left, right, hleft, -, hnumber, hbool, -⟩ := hcel.add _ _ _ _ hgives
    rw [inferType] at hinfer
    rw [inferCall_number (by decide) hinfer]
    obtain _ | _ | ⟨-, hargs⟩ := hsurface
    have hhas := ih (hargs _ List.mem_cons_self) hinfer' hleft
    rcases hkind with rfl | rfl
    · rw [hbool] at hhas
      cases hhas
    · exact hnumber (.inl hhas)
  | sumRight hb hinfer' hkind ih =>
    intro hsurface kind value hinfer hgives
    obtain ⟨left, right, -, hright, hnumber, -, hbool⟩ := hcel.add _ _ _ _ hgives
    rw [inferType] at hinfer
    rw [inferCall_number (by decide) hinfer]
    obtain _ | _ | ⟨-, hargs⟩ := hsurface
    have hhas := ih (hargs _ (List.mem_cons_of_mem _ List.mem_cons_self)) hinfer' hright
    rcases hkind with rfl | rfl
    · rw [hbool] at hhas
      cases hhas
    · exact hnumber (.inr hhas)
  | choice hyes hno hinfer' hinfer'' ihyes ihno =>
    intro hsurface kind value hinfer hgives
    rw [inferType, inferArgs, inferArgs, inferArgs, hinfer', hinfer''] at hinfer
    obtain rfl := inferCall_choice hinfer
    obtain _ | _ | ⟨-, hargs⟩ := hsurface
    rcases hcel.choice _ _ _ _ _ hgives with hgives | hgives
    · exact ihyes (hargs _ (by simp)) hinfer' hgives
    · exact ihno (hargs _ (by simp)) hinfer'' hgives
  | @call name args hsum hchoice =>
    intro hsurface kind value hinfer hgives
    rw [inferType] at hinfer
    by_cases harithmetic : name ∈ Cel.arithmetic
    · rw [inferCall_number ((by decide : ∀ name ∈ Cel.arithmetic, name ∈ numberCalls) name
        harithmetic) hinfer]
      exact hcel.arithmetic _ bind_givesPlain name harithmetic _ _ hsurface hgives
    by_cases hverdict : name ∈ Cel.verdicts
    · rw [inferCall_bool ((by decide : ∀ name ∈ Cel.verdicts, name ∈ boolCalls) name
        hverdict) hinfer]
      exact hcel.verdict _ name hverdict _ _ hgives
    · refine calls_has hcel hvars hinfer (hcel.call _ _ _ _ (fun hname => ?_) hsurface hgives)
      have hops := (by decide : ∀ name ∈ ops, name = "_+_" ∨ name = "_?_:_" ∨
        name ∈ Cel.arithmetic ∨ name ∈ Cel.verdicts) name hname
      simp [hsum, hchoice, harithmetic, hverdict] at hops
  | @member target name args hcall ih =>
    intro hsurface kind value hinfer hgives
    have hgives' := hcel.member _ _ _ _ _ hsurface hgives
    obtain _ | _ | _ | ⟨hname, hargs, -⟩ := hsurface
    exact ih (.call hname hargs) hinfer hgives'

/-! ### CEL worked out -/

def operate (name : String) (values : List Value) : Except String Value :=
  match name, values with
  | "_+_", [.float a, .float b] => .ok (.float (a + b))
  | "_+_", [.string a, .string b] => .ok (.string (a ++ b))
  | "_-_", [.float a, .float b] => .ok (.float (a - b))
  | "_*_", [.float a, .float b] => .ok (.float (a * b))
  | "_/_", [.float a, .float b] => .ok (.float (a / b))
  | "-_", [.float a] => .ok (.float (-a))
  | "_&&_", [.bool a, .bool b] => .ok (.bool (a && b))
  | "_||_", [.bool a, .bool b] => .ok (.bool (a || b))
  | "!_", [.bool a] => .ok (.bool !a)
  | "_==_", [a, b] => .ok (.bool (a = b))
  | "_!=_", [a, b] => .ok (.bool (a ≠ b))
  | "_>=_", [.float a, .float b] => .ok (.bool (b ≤ a))
  | "_<=_", [.float a, .float b] => .ok (.bool (a ≤ b))
  | "_>_", [.float a, .float b] => .ok (.bool (b < a))
  | "_<_", [.float a, .float b] => .ok (.bool (a < b))
  | "_?_:_", [.bool test, yes, no] => .ok (if test then yes else no)
  | _, _ => .error "No such overload"

mutual

/-- Works out an expression: the arguments from left to right, then the call. -/
def workOut (functions : Functions) : Expr → List Read → Except String Value × List Read
  | .literal value, reads => (.ok value.toValue, reads)
  | .call name args, reads =>
    match workOutArgs functions args reads with
    | (.error e, reads) => (.error e, reads)
    | (.ok values, reads) =>
      if name ∈ ops then (operate name values, reads) else functions name values reads
  | .memberCall _ name args, reads =>
    match workOutArgs functions args reads with
    | (.error e, reads) => (.error e, reads)
    | (.ok values, reads) =>
      if name ∈ ops then (operate name values, reads) else functions name values reads
  | _, reads => (.error "only literals and calls are worked out here", reads)

def workOutArgs (functions : Functions) :
    List Expr → List Read → Except String (List Value) × List Read
  | [], reads => (.ok [], reads)
  | arg :: args, reads =>
    match workOut functions arg reads with
    | (.error e, reads) => (.error e, reads)
    | (.ok value, reads) =>
      match workOutArgs functions args reads with
      | (.error e, reads) => (.error e, reads)
      | (.ok values, reads) => (.ok (value :: values), reads)

end

def worked (known : List (String × Expr)) : Cel :=
  { Sample.cel known with execute := fun expr functions reads => workOut functions expr reads }

variable {known : List (String × Expr)}

lemma workOutArgs_gives (args : List Expr) : ∀ {values reads reads'},
    workOutArgs functions args reads = (.ok values, reads') →
      List.Forall₂ ((worked known).Gives functions) args values := by
  induction args with
  | nil =>
    intro values reads reads' h
    cases h
    exact .nil
  | cons arg args ih =>
    intro values reads reads' h
    rw [workOutArgs] at h
    split at h
    · cases h
    · next value reads₁ hfirst =>
      split at h
      · cases h
      · next rest reads₂ hrest =>
        cases h
        exact .cons ⟨reads, reads₁, hfirst⟩ (ih hrest)

lemma workOut_call {name : String} {args : List Expr}
    (h : (worked known).Gives functions (.call name args) value) :
    ∃ values, List.Forall₂ ((worked known).Gives functions) args values ∧
      (name ∈ ops ∧ operate name values = .ok value ∨
        name ∉ ops ∧ ∃ reads reads', functions name values reads = (.ok value, reads')) := by
  obtain ⟨reads, reads', h⟩ := h
  change workOut functions (.call name args) reads = _ at h
  rw [workOut] at h
  split at h
  · cases h
  · next values reads₁ hargs =>
    refine ⟨values, workOutArgs_gives args hargs, ?_⟩
    split at h
    · next hname => exact .inl ⟨hname, congrArg Prod.fst h⟩
    · next hname => exact .inr ⟨hname, _, _, h⟩

lemma operate_arithmetic {name : String} {values : List Value} (hname : name ∈ Cel.arithmetic)
    (h : operate name values = .ok value) : VarKind.number.has value = true := by
  unfold operate at h
  split at h
  all_goals
    first
    | (cases h; done)
    | (cases h; rfl)
    | exact absurd hname (by decide)

lemma operate_verdict {name : String} {values : List Value} (hname : name ∈ Cel.verdicts)
    (h : operate name values = .ok value) : VarKind.bool.has value = true := by
  unfold operate at h
  split at h
  all_goals
    first
    | (cases h; done)
    | (cases h; rfl)
    | exact absurd hname (by decide)

lemma operate_add {left right : Value} (h : operate "_+_" [left, right] = .ok value) :
    (VarKind.number.has left = true ∨ VarKind.number.has right = true →
      VarKind.number.has value = true) ∧
    VarKind.bool.has left = false ∧ VarKind.bool.has right = false := by
  unfold operate at h
  split at h
  · cases ‹[left, right] = _›
    cases h
    exact ⟨fun _ => rfl, rfl, rfl⟩
  · cases ‹[left, right] = _›
    cases h
    refine ⟨fun hnumber => ?_, rfl, rfl⟩
    obtain hnumber | hnumber := hnumber <;> cases hnumber
  all_goals
    first
    | (cases h; done)
    | exact absurd ‹"_+_" = _› (by decide)

lemma operate_choice {test yes no : Value} (h : operate "_?_:_" [test, yes, no] = .ok value) :
    value = yes ∨ value = no := by
  unfold operate at h
  split at h
  case h_16 =>
    cases ‹[test, yes, no] = _›
    cases h
    split
    · exact .inl rfl
    · exact .inr rfl
  all_goals
    first
    | (cases h; done)
    | exact absurd ‹"_?_:_" = _› (by decide)

lemma worked_documented (known : List (String × Expr)) : (worked known).Documented where
  literal functions literal value h := by
    obtain ⟨reads, reads', h⟩ := h
    cases h
    rfl
  add functions a b value h := by
    obtain ⟨values, hvalues, ⟨-, hgiven⟩ | ⟨hname, -⟩⟩ := workOut_call h
    · obtain _ | ⟨hleft, _ | ⟨hright, _ | _⟩⟩ := hvalues
      refine ⟨_, _, hleft, hright, ?_⟩
      exact operate_add hgiven
    · exact absurd (by decide) hname
  arithmetic functions _ name hname args value _ h := by
    obtain ⟨values, -, ⟨-, hgiven⟩ | ⟨hother, -⟩⟩ := workOut_call h
    · exact operate_arithmetic hname hgiven
    · exact absurd ((by decide : ∀ name ∈ Cel.arithmetic, name ∈ ops) name hname) hother
  verdict functions name hname args value h := by
    obtain ⟨values, -, ⟨-, hgiven⟩ | ⟨hother, -⟩⟩ := workOut_call h
    · exact operate_verdict hname hgiven
    · exact absurd ((by decide : ∀ name ∈ Cel.verdicts, name ∈ ops) name hname) hother
  choice functions test yes no value h := by
    obtain ⟨values, hvalues, ⟨-, hgiven⟩ | ⟨hname, -⟩⟩ := workOut_call h
    · obtain _ | ⟨htest, _ | ⟨hyes, _ | ⟨hno, _ | _⟩⟩⟩ := hvalues
      rcases operate_choice hgiven with rfl | rfl
      · exact .inl hyes
      · exact .inr hno
    · exact absurd (by decide) hname
  call functions name args value hname _ h := by
    obtain ⟨values, hvalues, ⟨hoperator, -⟩ | ⟨-, reads, reads', h⟩⟩ := workOut_call h
    · exact absurd hoperator hname
    · exact ⟨values, reads, reads', hvalues, h⟩
  member functions target name args value _ h := by
    obtain ⟨reads, reads', h⟩ := h
    refine ⟨reads, reads', ?_⟩
    change workOut functions (.memberCall target name args) reads = _ at h
    change workOut functions (.call name args) reads = _
    rw [workOut] at h
    rw [workOut]
    exact h

def unitExpr : Expr :=
  .call "_?_:_" [.literal (.boolean true),
    .call "attr" [.literal (.string "sensor.lux"), .literal (.string "unit")], .literal (.double 1)]

def unitEnv : Env :=
  { Sample.env [] with cel := worked [("true ? attr('sensor.lux', 'unit') : 1.0", unitExpr)] }

def unitSource : ExprString := ⟨"true ? attr('sensor.lux', 'unit') : 1"⟩

def brightExpr : Expr :=
  .call "_>_" [.call "_+_" [.call "num" [.literal (.string "sensor.lux")], .literal (.double 1)],
    .call varFn [.literal (.string "limit")]]

def brightEnv : Env :=
  { Sample.env [] with
    cel := worked [("num('sensor.lux') + 1.0 > irori_var('limit')", brightExpr)] }

def brightSource : ExprString := ⟨"num('sensor.lux') + 1 > var('limit')"⟩

def limits : Map String VarKind := (∅ : Map String VarKind).insert "limit" .number

def inLux : Snapshot where
  states := Std.ExtTreeMap.ofList
    [(Sample.lux, { Sample.reported Sample.lux (.number 8) .available with
      attributes := [(⟨"unit", by decide +kernel⟩, .string "lx")] })] compare
  vars := ∅
  now := 0

def inDim : Snapshot :=
  { inLux with vars := (∅ : Map String Json).insert "limit" (.number (.int 5)) }

/-- An expression the checks give a kind works out to an error or a value of that kind, where it
doesn't hang on what an attribute turns out to be or on a sum of texts. Where it is to say yes or
no, it does. -/
theorem evalValue_hasKind {env : Env} (hcel : env.cel.Documented) {registry : RegistryView}
    {source : ExprString} {inspected : Inspected}
    (hinspect : inspect env.cel source registry kinds = .ok inspected)
    (hsettled : ∀ expr, env.cel.compile source = .ok expr → Irori.Settled kinds expr)
    (hvars : snapshot.VarsMatch kinds) (place : Option Place) :
    (∀ json, (evalValue env place source snapshot).result = .ok json →
      inspected.kind.hasJson json = true) ∧
    (inspected.kind = .bool → ∀ reason,
      (evalBoolean env place source snapshot).result = .error reason →
        (evalValue env place source snapshot).result = .error reason) := by
  have hvalue : ∀ json, (evalValue env place source snapshot).result = .ok json →
      inspected.kind.hasJson json = true := by
    intro json hjson
    obtain ⟨expr, hcompile, hinspect⟩ := bind_ok hinspect
    obtain ⟨walked, hwalk, hinspect⟩ := bind_ok hinspect
    obtain ⟨kind, hinfer, hinspect⟩ := bind_ok hinspect
    cases hinspect
    unfold evalValue at hjson
    rw [hcompile] at hjson
    obtain ⟨value, hexecute, hjson⟩ := bind_ok hjson
    exact hasJson_toJson (gives_has hcel hvars (hsettled expr hcompile)
      (walkAst_surface expr hwalk) hinfer ⟨_, _, Prod.ext hexecute rfl⟩) hjson
  refine ⟨hvalue, fun hbool reason hreason => ?_⟩
  unfold evalBoolean at hreason
  cases hresult : (evalValue env place source snapshot).result with
  | error why =>
    simp only [hresult] at hreason
    cases hreason
    rfl
  | ok json =>
    have hjson := hvalue json hresult
    rw [hbool] at hjson
    cases json <;> cases hjson
    simp only [hresult] at hreason
    cases hreason

theorem evalValue_hasKind_bright :
    (∀ json, (evalValue brightEnv none brightSource inDim).result = .ok json →
      VarKind.bool.hasJson json = true) ∧
    (VarKind.bool = .bool → ∀ reason,
      (evalBoolean brightEnv none brightSource inDim).result = .error reason →
        (evalValue brightEnv none brightSource inDim).result = .error reason) := by
  have hinspect : inspect brightEnv.cel brightSource (Sample.registry [Sample.meter]) limits =
      .ok ⟨[Sample.lux], false, .bool⟩ := rfl
  refine evalValue_hasKind (worked_documented _) hinspect ?_ ?_ none
  · intro expr hexpr
    obtain rfl : brightExpr = expr := Except.ok.inj hexpr
    exact .call (by decide) (by decide)
  · intro name kind value hkind hvalue
    obtain ⟨rfl, rfl⟩ : "limit" = name ∧ VarKind.number = kind := by
      simpa [limits, Std.ExtTreeMap.getElem?_insert] using hkind
    obtain rfl : Json.number (.int 5) = value := by
      simpa [inDim, Std.ExtTreeMap.getElem?_insert] using hvalue
    rfl

/-- The checks take a choice between an attribute and a number for a number: the attribute turns out
to be a text. -/
theorem evalValue_unit :
    ¬ ∀ (env : Env) (_ : env.cel.Documented) (registry : RegistryView) (kinds : Map String VarKind)
      (source : ExprString) (inspected : Inspected),
      inspect env.cel source registry kinds = .ok inspected → inspected.kind ≠ .scalar →
      ∀ snapshot : Snapshot, snapshot.StatesMatch registry → snapshot.VarsMatch kinds →
      ∀ (place : Option Place) (json : Json),
        (evalValue env place source snapshot).result = .ok json →
          inspected.kind.hasJson json = true := by
  intro h
  have hinspect : inspect unitEnv.cel unitSource (Sample.registry [Sample.meter]) ∅ =
      .ok ⟨[Sample.lux], false, .number⟩ := rfl
  have hjson : (evalValue unitEnv none unitSource inLux).result = .ok (.string "lx") := rfl
  have hstates : inLux.StatesMatch (Sample.registry [Sample.meter]) := by
    intro id found state hfound hstate
    obtain ⟨rfl, rfl⟩ : Sample.lux = id ∧ _ = found := by
      simpa [inLux, Std.ExtTreeMap.getElem?_insert] using hfound
    cases hstate
    exact ⟨Sample.meter, rfl, rfl, rfl, fun field value hfield => by cases hfield⟩
  have hvars : inLux.VarsMatch ∅ := by
    intro name kind value hkind
    simp at hkind
  exact absurd (h unitEnv (worked_documented _) _ ∅ unitSource _ hinspect (by decide) inLux hstates
    hvars none _ hjson) (by decide)

end Proofs

end Irori
