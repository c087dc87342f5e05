import Irori.Proofs.Checks
import Irori.Sample

/-!
# One type a variable

The checks compare a variable's type with the set before it. An attribute has no type, so what
stands before it is not compared with what stands after it.
-/

namespace Irori

structure SetAs where
  node : NodeId
  name : String
  kind : VarKind
deriving DecidableEq

namespace Flow

variable (flow : Flow) (env : Env) (registry : RegistryView)

/-- The type of a `set` node, where the variables have the types `kinds`. -/
def setAs (kinds : Map String VarKind) (id : NodeId) : Option SetAs :=
  match flow.nodes[id]? with
  | some (.set name expr) =>
    (inspect env.cel expr registry kinds).toOption.map fun inspected =>
      ⟨id, name.text, inspected.kind⟩
  | _ => none

/-- The `set` nodes of an order, as the checks come by them. -/
def setsFrom (s : Map String VarKind × List Problem) : List NodeId → List SetAs
  | [] => []
  | id :: order =>
    (flow.setAs env registry s.1 id).toList ++ setsFrom (flow.typeVar env registry s id) order

def sets : List SetAs :=
  match flow.topological with
  | some order => flow.setsFrom env registry (∅, []) order
  | none => []

def OneType : Prop :=
  ∀ x ∈ flow.sets env registry, ∀ y ∈ flow.sets env registry, x.name = y.name →
    x.kind ≠ .scalar → y.kind ≠ .scalar → x.kind = y.kind

/-- Where a variable is set to attributes, and only to attributes, between two sets that have a
type, the two have the same. -/
def KeepsTypeOverAttributes : Prop :=
  ∀ (before : List SetAs) (x : SetAs) (between : List SetAs) (y : SetAs) (after : List SetAs),
    flow.sets env registry = before ++ x :: (between ++ y :: after) → x.name = y.name →
    x.kind ≠ .scalar → y.kind ≠ .scalar → (∃ z ∈ between, z.name = x.name) →
    (∀ z ∈ between, z.name = x.name → z.kind = .scalar) → x.kind = y.kind

end Flow

namespace Proofs
open Irori

variable {env : Env} {registry : RegistryView} {flow : Flow} {order : List NodeId} {id : NodeId}
  {s : Map String VarKind × List Problem} {kind : VarKind} {x y : SetAs}
  {before between after : List SetAs}

lemma typeVar_none (hset : flow.setAs env registry s.1 id = none) :
    flow.typeVar env registry s id = s := by
  unfold Flow.setAs at hset
  split at hset
  · next name expr hnode =>
    rw [Flow.typeVar, hnode]
    dsimp only
    cases hinspect : inspect env.cel expr registry s.1 with
    | error reason => rfl
    | ok inspected => simp [hinspect, Except.toOption] at hset
  · next hnode =>
    unfold Flow.typeVar
    split
    · next name expr hfound => exact absurd hfound (hnode name expr)
    · rfl

lemma typeVar_some (hset : flow.setAs env registry s.1 id = some x) :
    (∃ kind, s.1[x.name]? = some kind ∧ kind ≠ x.kind ∧ kind ≠ .scalar ∧ x.kind ≠ .scalar ∧
      ∃ problem, problem.isError = true ∧
        flow.typeVar env registry s id = (s.1, s.2 ++ [problem])) ∨
    ((∀ kind, s.1[x.name]? = some kind → kind = x.kind ∨ kind = .scalar ∨ x.kind = .scalar) ∧
      flow.typeVar env registry s id = (s.1.insert x.name x.kind, s.2)) := by
  unfold Flow.setAs at hset
  split at hset
  · next name expr hnode =>
    cases hinspect : inspect env.cel expr registry s.1 with
    | error reason => simp [hinspect, Except.toOption] at hset
    | ok inspected =>
      obtain rfl : ⟨id, name.text, inspected.kind⟩ = x := by
        simpa [hinspect, Except.toOption] using hset
      simp only [Flow.typeVar, hnode, hinspect]
      cases hkind : s.1[name.text]? with
      | none => exact .inr ⟨by simp, rfl⟩
      | some kind =>
        by_cases hclash : kind ≠ inspected.kind ∧ kind ≠ .scalar ∧ inspected.kind ≠ .scalar
        · refine .inl ⟨kind, rfl, hclash.1, hclash.2.1, hclash.2.2, ?_⟩
          dsimp only
          rw [if_pos hclash]
          exact ⟨_, rfl, rfl⟩
        · refine .inr ⟨?_, ?_⟩
          · intro other hother
            cases hother
            by_contra hnone
            push Not at hnone
            exact hclash hnone
          · dsimp only
            rw [if_neg hclash]
  · simp at hset

lemma typeVars_keeps (order : List NodeId) :
    ∀ s, s.2 <+: (order.foldl (flow.typeVar env registry) s).2 := by
  induction order with
  | nil => exact fun s => List.prefix_rfl
  | cons id order ih =>
    intro s
    refine List.IsPrefix.trans ?_ (ih (flow.typeVar env registry s id))
    cases hset : flow.setAs env registry s.1 id with
    | none => rw [typeVar_none hset]
    | some x =>
      rcases typeVar_some hset with ⟨_, -, -, -, -, problem, -, hstep⟩ | ⟨-, hstep⟩
      · rw [hstep]
        exact List.prefix_append _ _
      · rw [hstep]

/-- A set among those no error is found for: the type before it is no other, and its own is what the
next ones find. -/
lemma typeVar_of_noErrors (hset : flow.setAs env registry s.1 id = some x)
    (h : NoErrors ((id :: order).foldl (flow.typeVar env registry) s).2) :
    (∀ kind, s.1[x.name]? = some kind → kind = x.kind ∨ kind = .scalar ∨ x.kind = .scalar) ∧
      flow.typeVar env registry s id = (s.1.insert x.name x.kind, s.2) := by
  rcases typeVar_some hset with ⟨_, -, -, -, -, problem, herror, hstep⟩ | hstep
  · have hfound : problem.isError = false := by
      refine h problem ((typeVars_keeps order _).subset ?_)
      rw [hstep]
      exact List.mem_append_right _ List.mem_cons_self
    rw [herror] at hfound
    cases hfound
  · exact hstep

lemma setsFrom_next (order : List NodeId) : ∀ s between,
    NoErrors (order.foldl (flow.typeVar env registry) s).2 →
    flow.setsFrom env registry s order = between ++ y :: after → s.1[y.name]? = some kind →
    (∀ z ∈ between, z.name ≠ y.name) → kind = y.kind ∨ kind = .scalar ∨ y.kind = .scalar := by
  induction order with
  | nil =>
    intro s between _ hsets
    simp [Flow.setsFrom] at hsets
  | cons id order ih =>
    intro s between h hsets hkind hfree
    rw [Flow.setsFrom] at hsets
    cases hset : flow.setAs env registry s.1 id with
    | none =>
      rw [hset, typeVar_none hset] at hsets
      rw [List.foldl_cons, typeVar_none hset] at h
      exact ih s between h hsets hkind hfree
    | some z =>
      obtain ⟨hagrees, hstep⟩ := typeVar_of_noErrors hset h
      rw [hset, Option.toList_some, List.singleton_append] at hsets
      cases between with
      | nil =>
        obtain ⟨rfl, -⟩ := List.cons.inj hsets
        exact hagrees kind hkind
      | cons first between =>
        obtain ⟨rfl, hrest⟩ := List.cons.inj hsets
        refine ih _ between h hrest ?_ fun w hw => hfree w (List.mem_cons_of_mem _ hw)
        rw [hstep, Map.get_insert, if_neg (hfree z List.mem_cons_self)]
        exact hkind

lemma setsFrom_after (order : List NodeId) : ∀ s before,
    NoErrors (order.foldl (flow.typeVar env registry) s).2 →
    flow.setsFrom env registry s order = before ++ x :: after →
    ∃ rest s', NoErrors (rest.foldl (flow.typeVar env registry) s').2 ∧
      flow.setsFrom env registry s' rest = after ∧ s'.1[x.name]? = some x.kind := by
  induction order with
  | nil =>
    intro s before _ hsets
    simp [Flow.setsFrom] at hsets
  | cons id order ih =>
    intro s before h hsets
    rw [Flow.setsFrom] at hsets
    cases hset : flow.setAs env registry s.1 id with
    | none =>
      rw [hset] at hsets
      exact ih _ before h hsets
    | some z =>
      rw [hset, Option.toList_some, List.singleton_append] at hsets
      cases before with
      | nil =>
        obtain ⟨rfl, hrest⟩ := List.cons.inj hsets
        refine ⟨order, _, h, hrest, ?_⟩
        rw [(typeVar_of_noErrors hset h).2, Map.get_insert, if_pos rfl]
      | cons first before => exact ih _ before h (List.cons.inj hsets).2

lemma setsFrom_neighbours (h : NoErrors (order.foldl (flow.typeVar env registry) s).2)
    (hsets : flow.setsFrom env registry s order = before ++ x :: (between ++ y :: after))
    (hname : x.name = y.name) (hfree : ∀ z ∈ between, z.name ≠ x.name) :
    x.kind = y.kind ∨ x.kind = .scalar ∨ y.kind = .scalar := by
  obtain ⟨rest, s', hrest, hafter, hkind⟩ := setsFrom_after order s before h hsets
  exact setsFrom_next rest s' between hrest hafter (hname ▸ hkind) fun z hz => hname ▸ hfree z hz

lemma kind_eq_of_keeps {sets : List SetAs}
    (hkeeps : ∀ (before : List SetAs) (x : SetAs) (between : List SetAs) (y : SetAs)
      (after : List SetAs), sets = before ++ x :: (between ++ y :: after) → x.name = y.name →
      x.kind ≠ .scalar → y.kind ≠ .scalar →
      (∀ z ∈ between, z.name = x.name → z.kind = .scalar) → x.kind = y.kind) (n : ℕ) :
    ∀ (before : List SetAs) (x : SetAs) (between : List SetAs) (y : SetAs) (after : List SetAs),
      between.length ≤ n → sets = before ++ x :: (between ++ y :: after) → x.name = y.name →
      x.kind ≠ .scalar → y.kind ≠ .scalar → x.kind = y.kind := by
  induction n with
  | zero =>
    intro before x between y after hlength hsets hname hx hy
    obtain rfl := List.length_eq_zero_iff.1 (Nat.le_zero.1 hlength)
    exact hkeeps before x [] y after hsets hname hx hy (by simp)
  | succ n ih =>
    intro before x between y after hlength hsets hname hx hy
    by_cases hscalar : ∀ z ∈ between, z.name = x.name → z.kind = .scalar
    · exact hkeeps before x between y after hsets hname hx hy hscalar
    · -- The two both have the type of one between them.
      push Not at hscalar
      obtain ⟨z, hz, hzname, hzkind⟩ := hscalar
      obtain ⟨left, right, rfl⟩ := List.append_of_mem hz
      rw [List.length_append, List.length_cons] at hlength
      have hleft : x.kind = z.kind :=
        ih before x left z (right ++ y :: after) (by omega) (by simpa using hsets) hzname.symm hx
          hzkind
      have hright : z.kind = y.kind :=
        ih (before ++ x :: left) z right y after (by omega) (by simpa using hsets)
          (hzname.trans hname) hzkind hy
      exact hleft.trans hright

/-- In a flow without errors, a variable has one type exactly when it has the same on both sides of
the attributes it is set to. -/
theorem oneType_iff {runsTheHome : Bool}
    (h : NoErrors (flow.checkFor env registry runsTheHome)) :
    flow.OneType env registry ↔ flow.KeepsTypeOverAttributes env registry := by
  obtain ⟨-, order, horder, hvars, -⟩ := checkFor_noErrors h
  have hsets : flow.sets env registry = flow.setsFrom env registry (∅, []) order := by
    rw [Flow.sets, horder]
  have hclean : NoErrors (order.foldl (flow.typeVar env registry) (∅, [])).2 :=
    (noErrors_append.1 hvars).1
  constructor
  · intro hone before x between y after hsplit hname hx hy _ _
    exact hone x (by simp [hsplit]) y (by simp [hsplit]) hname hx hy
  · intro hkeeps x hx y hy hname hxkind hykind
    have hall := @kind_eq_of_keeps (flow.sets env registry)
      (fun before x between y after hsplit hname hx hy hscalar => by
        by_cases hsome : ∃ z ∈ between, z.name = x.name
        · exact hkeeps before x between y after hsplit hname hx hy hsome hscalar
        · push Not at hsome
          rcases setsFrom_neighbours hclean (hsets ▸ hsplit) hname hsome with hkind | hkind | hkind
          · exact hkind
          · exact absurd hkind hx
          · exact absurd hkind hy) (flow.sets env registry).length
    obtain ⟨before, after, hsplit⟩ := List.append_of_mem hx
    rw [hsplit, List.mem_append, List.mem_cons] at hy
    rcases hy with hy | rfl | hy
    · obtain ⟨left, right, rfl⟩ := List.append_of_mem hy
      refine (hall left y right x after ?_ (by simpa using hsplit) hname.symm hykind hxkind).symm
      rw [hsplit]
      simp
      omega
    · rfl
    · obtain ⟨left, right, rfl⟩ := List.append_of_mem hy
      refine hall before x left y right ?_ hsplit hname hxkind hykind
      rw [hsplit]
      simp
      omega

def setFirst : NodeId := ⟨"first", by decide +kernel⟩

def setSecond : NodeId := ⟨"second", by decide +kernel⟩

def setThird : NodeId := ⟨"third", by decide +kernel⟩

def seenName : ObjectId := ⟨"seen", by decide +kernel⟩

def twoTypes : Flow :=
  Sample.flow (.named .single)
    [(Sample.started, .trigger .startup), (setFirst, .set seenName ⟨"true"⟩),
      (setSecond, .set seenName ⟨"attr('sensor.lux', 'unit')"⟩),
      (setThird, .set seenName ⟨"1"⟩)]
    [Sample.wire Sample.started .out setFirst,
      Sample.wire setFirst .out setSecond,
      Sample.wire setSecond .out setThird]

def twoTypesEnv : Env :=
  Sample.env [("true", .literal (.boolean true)), ("1.0", .literal (.double 1)),
    ("attr('sensor.lux', 'unit')",
      .call "attr" [.literal (.string "sensor.lux"), .literal (.string "unit")])]

lemma twoTypes_noErrors :
    NoErrors (twoTypes.checkFor twoTypesEnv (Sample.registry [Sample.meter]) true) := by
  decide +kernel

/-- The checks find no error in it, and the variable has two types. -/
theorem oneType_twoTypes :
    ¬ ∀ (env : Env) (registry : RegistryView) (flow : Flow) (runsTheHome : Bool),
      NoErrors (flow.checkFor env registry runsTheHome) → flow.OneType env registry := by
  intro h
  have hone := h twoTypesEnv (Sample.registry [Sample.meter]) twoTypes true twoTypes_noErrors
  have hsets : twoTypes.sets twoTypesEnv (Sample.registry [Sample.meter]) =
      [⟨setFirst, "seen", .bool⟩, ⟨setSecond, "seen", .scalar⟩,
        ⟨setThird, "seen", .number⟩] := by decide +kernel
  have hkind := hone ⟨setFirst, "seen", .bool⟩ (by simp [hsets])
    ⟨setThird, "seen", .number⟩ (by simp [hsets]) rfl (by decide) (by decide)
  cases hkind

theorem oneType_iff_twoTypes :
    twoTypes.OneType twoTypesEnv (Sample.registry [Sample.meter]) ↔
      twoTypes.KeepsTypeOverAttributes twoTypesEnv (Sample.registry [Sample.meter]) :=
  oneType_iff twoTypes_noErrors

end Proofs

end Irori
