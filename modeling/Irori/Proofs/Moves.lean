import Irori.Proofs.Tables

/-!
# What a run can do

Whatever the engine has a run do, the run gets there by small moves: a step is opened, written in,
closed; a token is set waiting, parked or dropped, or passes on by a port; a variable is set; a join
is marked. Each move carries what is known when it is made, so that a property of runs is shown
kept by looking at the moves alone.
-/

namespace Irori.Proofs

open Irori

/-- A step rewritten in nothing but what it says it read, did and called. -/
def Cosmetic (f : Step → Step) : Prop :=
  ∀ s : Step, ({ f s with reads := s.reads, note := s.note, call := s.call } : Step) = s

/-- What a token at a node may be doing there. -/
def DoingFits (flow : Flow) (node : NodeId) (doing : Doing) : Prop :=
  match doing with
  | .ready => True
  | .delay _ => ∃ hold : CompactDuration, flow.nodes[node]? = some (.delay hold)
  | .wait .. => ∃ (level : WaitUntil) (timeout : CompactDuration),
      flow.nodes[node]? = some (.wait level timeout)
  | .call _ => ∃ (service : RuleService) (entity : EntityId) (data : Option FlowCallData),
      flow.nodes[node]? = some (.call service entity data)
  | .joined => ∃ timeout : Option CompactDuration, flow.nodes[node]? = some (.join .all timeout)

/-- Whether a node of the flow is a join that waits for every path. -/
def AllJoinAt (flow : Flow) (node : NodeId) : Prop :=
  ∃ timeout : Option CompactDuration, flow.nodes[node]? = some (.join .all timeout)

def JoinAt (flow : Flow) (node : NodeId) : Prop :=
  ∃ (mode : JoinMode) (timeout : Option CompactDuration), flow.nodes[node]? = some (.join mode timeout)

lemma AllJoinAt.joinAt {flow : Flow} {node : NodeId} (h : AllJoinAt flow node) :
    JoinAt flow node := by
  obtain ⟨timeout, h⟩ := h
  exact ⟨.all, timeout, h⟩

def dropped (r : Run) (k : Nat) (port : Option Port) (now : Timestamp) : Run :=
  (r.closeStep k port now).removeToken k

/-- A token at a join that has been marked passed, and the tokens it left there waiting. -/
def Alone (r : Run) (node : NodeId) (k : Nat) : Prop :=
  ∀ (w : Wire) (other : Nat), (r.joinAt node).arrived[w]? = some other → other ≠ k →
    r.tokens[other]? = none

/-- One move of a run, with what it asks of the engine, at a moment. Only the `hand` token, the one
the engine is running, has a step opened. -/
inductive Prim (now : Timestamp) (hand : Option Nat) : Moved → Moved → Prop
  /-- A step says what it read, did or called. -/
  | touch {m : Moved} {k : Nat} {f : Step → Step} (cosmetic : Cosmetic f) :
      Prim now hand m { m with run := m.run.withStep k f }
  | mark {m : Moved} (error : Option (NodeId × String)) (stopped : Option (NodeId × Option String))
      (endedAt : List Ending) :
      Prim now hand m
        { m with run := { m.run with error, stopped, record := { m.run.record with endedAt } } }
  | ask {m : Moved} (timers : List (Timestamp × Timer)) (effects : List Effect) (calls : Nat)
      (isCall : ∀ effect ∈ effects, ∃ (id : Nat) (cause : Option ContextId) (entity : EntityId)
        (service : RuleService) (data : Option CallData),
        effect = .call id m.run.record.runId cause entity service data) :
      Prim now hand m
        { m with timers := m.timers ++ timers, effects := m.effects ++ effects,
                 calls := m.calls + calls }
  | evaluate {m : Moved} {k : Nat} {t : Token} (here : m.run.tokens[k]? = some t) :
      Prim now hand m { m with evaluated := m.evaluated ++ [m.run.evaluation t.node] }
  | doing {m : Moved} {k : Nat} {t : Token} {d : Doing} (here : m.run.tokens[k]? = some t)
      (opened : t.step.isSome) (busy : d.isReady = false)
      (fits : DoingFits m.run.flow t.node d)
      (parked : d.isJoined = true → (m.run.joinAt t.node).passed = false ∧
        ∃ w : Wire, (m.run.joinAt t.node).arrived[w]? = some k) :
      Prim now hand m { m with run := m.run.setDoing k d }
  | var {m : Moved} (name : String) (value : Json) :
      Prim now hand m { m with run := { m.run with vars := m.run.vars.insert name value } }
  | openStep {m : Moved} {k : Nat} {t : Token} (held : hand = some k)
      (here : m.run.tokens[k]? = some t) (unopened : t.step = none)
      (known : (m.run.flow.nodes[t.node]?).isSome) (room : m.run.record.steps.length < maxSteps) :
      Prim now hand m { m with run := m.run.openStep k now }
  | drop {m : Moved} {k : Nat} {t : Token} (port : Option Port)
      (here : m.run.tokens[k]? = some t) (noJoin : port.isSome → ¬ JoinAt m.run.flow t.node)
      (noSet : port.isSome → ∀ (name : ObjectId) (expr : ExprString),
        m.run.flow.nodes[t.node]? ≠ some (.set name expr)) :
      Prim now hand m { m with run := dropped m.run k port now }
  | join {m : Moved} {node : NodeId} {j : JoinState} {doubled : List NodeId}
      (isJoin : JoinAt m.run.flow node)
      (stays : (m.run.joinAt node).passed = true → j.passed = true)
      (comes : ∀ (w : Wire) (k : Nat), j.arrived[w]? = some k →
        (m.run.joinAt node).arrived[w]? = some k ∨ (AllJoinAt m.run.flow node ∧
          ∃ t : Token, m.run.tokens[k]? = some t ∧ t.node = node ∧ t.step.isSome))
      (keeps : doubled = [] → ∀ (w : Wire) (k : Nat),
        (m.run.joinAt node).arrived[w]? = some k → j.arrived[w]? = some k)
      (closes : j.passed = true → (m.run.joinAt node).passed = false →
        ∀ (w : Wire) (k : Nat), (m.run.joinAt node).arrived[w]? = some k →
          m.run.tokens[k]? = none) :
      Prim now hand m { m with run := m.run.setJoin node j, doubled := m.doubled ++ doubled }
  | pass {m : Moved} {k : Nat} {t : Token} (port : Port) (here : m.run.tokens[k]? = some t)
      (opened : t.step.isSome) (noJoin : ¬ JoinAt m.run.flow t.node)
      (set : ∀ (name : ObjectId) (expr : ExprString),
        m.run.flow.nodes[t.node]? = some (.set name expr) → m.run.vars.contains name.text) :
      Prim now hand m
        { m with run := ((dropped m.run k (some port) now).leave t.node port).run,
                 ready := m.ready ++ ((dropped m.run k (some port) now).leave t.node port).ready }
  /-- A token passes on from a join, the first and last to do so; the others parked there are
  gone. -/
  | passJoin {m : Moved} {k : Nat} {t : Token} {j : JoinState} (port : Port)
      (here : m.run.tokens[k]? = some t) (opened : t.step.isSome)
      (isJoin : JoinAt m.run.flow t.node) (first : (m.run.joinAt t.node).passed = false)
      (passed : j.passed = true) (arrived : j.arrived = (m.run.joinAt t.node).arrived)
      (alone : Alone m.run t.node k) :
      Prim now hand m
        { m with
          run := ((dropped (m.run.setJoin t.node j) k (some port) now).leave t.node port).run,
          ready := m.ready ++
            ((dropped (m.run.setJoin t.node j) k (some port) now).leave t.node port).ready }

def Path (now : Timestamp) (hand : Option Nat) : Moved → Moved → Prop :=
  Relation.ReflTransGen (Prim now hand)

def Goes (now : Timestamp) (hand : Option Nat) (r : Run) (m : Moved) : Prop :=
  Path now hand { run := r } m

section

variable {now : Timestamp} {hand : Option Nat} {r : Run}

/-- What has been asked for before changes nothing about a move. -/
def after (first : Moved) (m : Moved) : Moved :=
  { run := m.run,
    ready := first.ready ++ m.ready,
    timers := first.timers ++ m.timers,
    effects := first.effects ++ m.effects,
    calls := first.calls + m.calls,
    evaluated := first.evaluated ++ m.evaluated,
    doubled := first.doubled ++ m.doubled }

lemma prim_after (first : Moved) {m m' : Moved} (h : Prim now hand m m') :
    Prim now hand (after first m) (after first m') := by
  cases h with
  | touch cosmetic => exact .touch cosmetic
  | mark error stopped endedAt => exact .mark error stopped endedAt
  | ask timers effects calls isCall =>
    have : Prim now hand (after first m) _ := .ask timers effects calls isCall
    simpa only [after, List.append_assoc, Nat.add_assoc] using this
  | evaluate here =>
    have : Prim now hand (after first m) _ := .evaluate here
    simpa only [after, List.append_assoc] using this
  | doing here opened busy fits parked => exact .doing here opened busy fits parked
  | var name value => exact .var name value
  | openStep held here unopened known room => exact .openStep held here unopened known room
  | drop port here noJoin noSet => exact .drop port here noJoin noSet
  | join isJoin stays comes keeps closes =>
    have : Prim now hand (after first m) _ := .join isJoin stays comes keeps closes
    simpa only [after, List.append_assoc] using this
  | pass port here opened noJoin set =>
    have : Prim now hand (after first m) _ := .pass port here opened noJoin set
    simpa only [after, List.append_assoc] using this
  | passJoin port here opened isJoin first' passed arrived alone =>
    have : Prim now hand (after first m) _ :=
      .passJoin port here opened isJoin first' passed arrived alone
    simpa only [after, List.append_assoc] using this

lemma goes_refl : Goes now hand r { run := r } := Relation.ReflTransGen.refl

lemma goes_single {m : Moved} (h : Prim now hand { run := r } m) : Goes now hand r m :=
  Relation.ReflTransGen.single h

lemma path_after (m : Moved) {n : Moved} (h : Goes now hand m.run n) :
    Path now hand m (after m n) := by
  have hlift : Path now hand (after m { run := m.run }) (after m n) :=
    Relation.ReflTransGen.lift (after m) (fun _ _ hp => prim_after m hp) _ _ h
  have hsame : after m { run := m.run } = m := by simp [after]
  rwa [hsame] at hlift

lemma goes_trans {m n : Moved} (h : Goes now hand r m) (hn : Goes now hand m.run n) :
    Goes now hand r (after m n) :=
  h.trans (path_after m hn)

lemma goes_head {r' : Run} {m : Moved} (h : Prim now hand { run := r } { run := r' })
    (hm : Goes now hand r' m) : Goes now hand r m :=
  Relation.ReflTransGen.head h hm

lemma goes_keeps {P : Moved → Prop} (hprim : ∀ m m' : Moved, Prim now hand m m' → P m → P m')
    {m : Moved} (h : Goes now hand r m) (hr : P { run := r }) : P m := by
  unfold Goes Path at h
  induction h with
  | refl => exact hr
  | tail _ hp ih => exact hprim _ _ hp ih

end

section Dropped

variable (r : Run) (k : Nat) (port : Option Port) (now : Timestamp)

@[simp] lemma dropped_flow : (dropped r k port now).flow = r.flow := by
  simp [dropped, Run.closeStep]

@[simp] lemma dropped_tokens : (dropped r k port now).tokens = r.tokens.erase k := by
  simp [dropped, Run.closeStep]

@[simp] lemma dropped_nextToken : (dropped r k port now).nextToken = r.nextToken := by
  simp [dropped, Run.closeStep]

@[simp] lemma dropped_vars : (dropped r k port now).vars = r.vars := by
  simp [dropped, Run.closeStep]

@[simp] lemma dropped_joins : (dropped r k port now).joins = r.joins := by
  simp [dropped, Run.closeStep]

@[simp] lemma dropped_header : header (dropped r k port now).record = header r.record := by
  simp [dropped, Run.closeStep]

end Dropped

lemma joinAt_congr {r r' : Run} (h : r'.joins = r.joins) (node : NodeId) :
    r'.joinAt node = r.joinAt node := by
  unfold Run.joinAt
  rw [h]

lemma leave_cases {r : Run} {node : NodeId} {port : Port} {k : Nat} {t : Token}
    (h : (r.leave node port).run.tokens[k]? = some t) :
    (∃ w ∈ r.flow.wiresFrom node port, t = onWire w ∧ k ∈ (r.leave node port).ready ∧
      r.nextToken ≤ k ∧ k < (r.leave node port).run.nextToken) ∨ r.tokens[k]? = some t := by
  rw [leave_tokens] at h
  split at h
  · next hready =>
    obtain ⟨w, hw, rfl⟩ := Option.map_eq_some_iff.mp h
    refine .inl ⟨w, List.mem_of_getElem? hw, rfl, hready, ?_⟩
    rw [leave_ready, List.mem_range'_1] at hready
    rw [leave_nextToken]
    exact hready
  · exact .inr h

/-- The tokens, the steps they have open and the joins of a run fit together. A token that is ready
has no step yet, unless it is in hand; no two tokens have the same step. -/
structure Fit (hand : Option Nat) (r : Run) : Prop where
  came : ∀ {k : Nat} {t : Token}, r.tokens[k]? = some t → t.via.isSome
  own : ∀ {k i : Nat} {t : Token}, r.tokens[k]? = some t → t.step = some i →
    ∃ s : Step, r.record.steps[i]? = some s ∧ s.token = k
  fresh : ∀ {k : Nat} {t : Token}, r.tokens[k]? = some t → k < r.nextToken
  fits : ∀ {k : Nat} {t : Token}, r.tokens[k]? = some t → DoingFits r.flow t.node t.doing
  unopened : ∀ {k : Nat} {t : Token}, r.tokens[k]? = some t → t.doing.isReady = true →
    hand ≠ some k → t.step = none
  opened : ∀ {k : Nat} {t : Token}, r.tokens[k]? = some t → t.doing.isReady = false →
    t.step.isSome
  parked : ∀ {node : NodeId} {w : Wire} {k : Nat}, (r.joinAt node).arrived[w]? = some k →
    k < r.nextToken ∧ AllJoinAt r.flow node ∧
      ∀ t : Token, r.tokens[k]? = some t → t.node = node ∧ t.step.isSome

def SameTokens (r r' : Run) : Prop :=
  ∀ (i : Nat) (s : Step), r.record.steps[i]? = some s →
    ∃ s' : Step, r'.record.steps[i]? = some s' ∧ s'.token = s.token

lemma sameTokens_of_eq {r r' : Run} (h : r'.record.steps = r.record.steps) : SameTokens r r' :=
  fun _ s hs => ⟨s, h ▸ hs, rfl⟩

lemma withStep_steps (r : Run) (k i : Nat) (f : Step → Step) :
    (r.withStep k f).record.steps[i]? =
      if (r.tokens[k]?).bind Token.step = some i then (r.record.steps[i]?).map f
      else r.record.steps[i]? := by
  unfold Run.withStep
  split
  · next h => rw [h, if_neg (by simp)]
  · next j h =>
    rw [h, List.getElem?_modify]
    simp only [Option.some.injEq]
    split <;> cases r.record.steps[i]? <;> rfl

lemma withStep_sameTokens (r : Run) (k : Nat) {f : Step → Step}
    (hf : ∀ s : Step, (f s).token = s.token) : SameTokens r (r.withStep k f) := by
  intro i s hs
  rw [withStep_steps]
  split
  · exact ⟨f s, by rw [hs]; rfl, hf s⟩
  · exact ⟨s, hs, rfl⟩

lemma closeStep_sameTokens (r : Run) (k : Nat) (port : Option Port) (now : Timestamp) :
    SameTokens r (dropped r k port now) :=
  withStep_sameTokens r k fun _ => rfl

lemma Cosmetic.token {f : Step → Step} (hf : Cosmetic f) (s : Step) : (f s).token = s.token := by
  have := congrArg Step.token (hf s)
  exact this

lemma Fit.congr {hand : Option Nat} {r r' : Run} (h : Fit hand r) (hflow : r'.flow = r.flow)
    (htokens : r'.tokens = r.tokens) (hjoins : r'.joins = r.joins)
    (hnext : r'.nextToken = r.nextToken) (hsame : SameTokens r r') : Fit hand r' where
  came hk := h.came (htokens ▸ hk)
  own hk hi := by
    obtain ⟨s, hs, htoken⟩ := h.own (htokens ▸ hk) hi
    obtain ⟨s', hs', htoken'⟩ := hsame _ s hs
    exact ⟨s', hs', htoken'.trans htoken⟩
  fresh hk := by rw [hnext]; exact h.fresh (htokens ▸ hk)
  fits hk := by rw [hflow]; exact h.fits (htokens ▸ hk)
  unopened hk := h.unopened (htokens ▸ hk)
  opened hk := h.opened (htokens ▸ hk)
  parked ha := by
    rw [hnext, hflow, htokens]
    exact h.parked (joinAt_congr hjoins _ ▸ ha)

lemma Fit.erase {hand : Option Nat} {r : Run} (h : Fit hand r) (k : Nat) (port : Option Port)
    (now : Timestamp) : Fit hand (dropped r k port now) := by
  have hold : ∀ {i : Nat} {t : Token}, (dropped r k port now).tokens[i]? = some t →
      r.tokens[i]? = some t := by
    intro i t hi
    rw [dropped_tokens, Map.get_erase] at hi
    split at hi
    · simp at hi
    · exact hi
  constructor
  · intro i t hi
    exact h.came (hold hi)
  · intro i j t hi hj
    obtain ⟨s, hs, htoken⟩ := h.own (hold hi) hj
    obtain ⟨s', hs', htoken'⟩ := closeStep_sameTokens r k port now _ s hs
    exact ⟨s', hs', htoken'.trans htoken⟩
  · intro i t hi
    rw [dropped_nextToken]
    exact h.fresh (hold hi)
  · intro i t hi
    rw [dropped_flow]
    exact h.fits (hold hi)
  · intro i t hi
    exact h.unopened (hold hi)
  · intro i t hi
    exact h.opened (hold hi)
  · intro node w i ha
    rw [joinAt_congr (dropped_joins r k port now)] at ha
    obtain ⟨hlt, hjoin, hat⟩ := h.parked ha
    rw [dropped_nextToken, dropped_flow]
    exact ⟨hlt, hjoin, fun t ht => hat t (hold ht)⟩

lemma Fit.leave {hand : Option Nat} {r : Run} (h : Fit hand r) (node : NodeId) (port : Port) :
    Fit hand (r.leave node port).run := by
  have hnext := leave_nextToken r node port
  constructor
  · intro k t hk
    rcases leave_cases hk with ⟨w, _, rfl, _⟩ | hk
    · rfl
    · exact h.came hk
  · intro k i t hk hi
    rw [leave_steps]
    rcases leave_cases hk with ⟨w, _, rfl, _⟩ | hk
    · simp [onWire] at hi
    · exact h.own hk hi
  · intro k t hk
    rcases leave_cases hk with ⟨_, _, _, _, _, hlt⟩ | hk
    · exact hlt
    · have := h.fresh hk
      omega
  · intro k t hk
    rw [leave_flow]
    rcases leave_cases hk with ⟨w, _, rfl, _⟩ | hk
    · trivial
    · exact h.fits hk
  · intro k t hk
    rcases leave_cases hk with ⟨w, _, rfl, _⟩ | hk
    · exact fun _ _ => rfl
    · exact h.unopened hk
  · intro k t hk
    rcases leave_cases hk with ⟨w, _, rfl, _⟩ | hk
    · exact fun hbusy => absurd hbusy (by simp [onWire, Doing.isReady])
    · exact h.opened hk
  · intro other w k ha
    rw [joinAt_congr (leave_joins r node port)] at ha
    obtain ⟨hlt, hjoin, hat⟩ := h.parked ha
    rw [leave_flow]
    refine ⟨by omega, hjoin, fun t ht => ?_⟩
    rcases leave_cases ht with ⟨_, _, _, _, hge, _⟩ | ht
    · omega
    · exact hat t ht

lemma Fit.setJoin {hand : Option Nat} {r : Run} (h : Fit hand r) {node : NodeId} {j : JoinState}
    (comes : ∀ (w : Wire) (k : Nat), j.arrived[w]? = some k →
      (r.joinAt node).arrived[w]? = some k ∨ (AllJoinAt r.flow node ∧
        ∃ t : Token, r.tokens[k]? = some t ∧ t.node = node ∧ t.step.isSome)) :
    Fit hand (r.setJoin node j) := by
  refine ⟨h.came, h.own, h.fresh, h.fits, h.unopened, h.opened, ?_⟩
  intro other w k ha
  rw [setJoin_joinAt] at ha
  split at ha
  · next hsame =>
    subst hsame
    rcases comes w k ha with hold | ⟨isJoin, t, ht, hnode, hstep⟩
    · exact h.parked hold
    · refine ⟨h.fresh ht, isJoin, fun t' ht' => ?_⟩
      rw [setJoin_tokens, ht, Option.some.injEq] at ht'
      exact ht' ▸ ⟨hnode, hstep⟩
  · exact h.parked ha

lemma setDoing_cases {r : Run} {k i : Nat} {t t' : Token} {d : Doing}
    (here : r.tokens[k]? = some t) (h : (r.setDoing k d).tokens[i]? = some t') :
    (i = k ∧ t' = { t with doing := d }) ∨ (i ≠ k ∧ r.tokens[i]? = some t') := by
  rw [setDoing_tokens] at h
  split at h
  · next hk =>
    subst hk
    rw [here] at h
    simp only [Option.map_some, Option.some.injEq] at h
    exact .inl ⟨rfl, h.symm⟩
  · next hk => exact .inr ⟨Ne.symm hk, h⟩

lemma Fit.setDoing {hand : Option Nat} {r : Run} (h : Fit hand r) {k : Nat} {t : Token} {d : Doing}
    (here : r.tokens[k]? = some t) (opened : t.step.isSome) (busy : d.isReady = false)
    (fits : DoingFits r.flow t.node d) : Fit hand (r.setDoing k d) := by
  constructor
  · intro i t' hi
    rcases setDoing_cases here hi with ⟨-, rfl⟩ | ⟨-, hi⟩
    · have := h.came here
      exact this
    · exact h.came hi
  · intro i j t' hi hj
    rw [setDoing_record]
    rcases setDoing_cases here hi with ⟨rfl, rfl⟩ | ⟨-, hi⟩
    · exact h.own here hj
    · exact h.own hi hj
  · intro i t' hi
    rw [setDoing_nextToken]
    rcases setDoing_cases here hi with ⟨rfl, -⟩ | ⟨-, hi⟩
    · exact h.fresh here
    · exact h.fresh hi
  · intro i t' hi
    rw [setDoing_flow]
    rcases setDoing_cases here hi with ⟨-, rfl⟩ | ⟨-, hi⟩
    · exact fits
    · exact h.fits hi
  · intro i t' hi hready
    rcases setDoing_cases here hi with ⟨-, rfl⟩ | ⟨-, hi⟩
    · simp [busy] at hready
    · exact h.unopened hi hready
  · intro i t' hi hbusy
    rcases setDoing_cases here hi with ⟨-, rfl⟩ | ⟨-, hi⟩
    · exact opened
    · exact h.opened hi hbusy
  · intro node w i ha
    rw [joinAt_congr (setDoing_joins r k d)] at ha
    obtain ⟨hlt, hjoin, hat⟩ := h.parked ha
    rw [setDoing_nextToken, setDoing_flow]
    refine ⟨hlt, hjoin, fun t' ht' => ?_⟩
    rcases setDoing_cases here ht' with ⟨rfl, rfl⟩ | ⟨-, ht'⟩
    · exact hat t here
    · exact hat t' ht'

lemma openStep_cases {r : Run} {k i : Nat} {t t' : Token} {now : Timestamp}
    (here : r.tokens[k]? = some t) (h : (r.openStep k now).tokens[i]? = some t') :
    (i = k ∧ t' = { t with step := some r.record.steps.length }) ∨
      (i ≠ k ∧ r.tokens[i]? = some t') := by
  rw [openStep_eq now here] at h
  dsimp only at h
  rw [Map.get_insert] at h
  split at h
  · next hk => exact .inl ⟨hk.symm, (Option.some.inj h).symm⟩
  · next hk => exact .inr ⟨Ne.symm hk, h⟩

lemma Fit.openStep {r : Run} {k : Nat} (h : Fit (some k) r) {t : Token}
    (here : r.tokens[k]? = some t) (now : Timestamp) : Fit (some k) (r.openStep k now) := by
  have heq := openStep_eq now here
  constructor
  · intro i t' hi
    rcases openStep_cases here hi with ⟨-, rfl⟩ | ⟨-, hi⟩
    · have := h.came here
      exact this
    · exact h.came hi
  · intro i j t' hi hj
    rw [heq]
    dsimp only
    rcases openStep_cases here hi with ⟨rfl, rfl⟩ | ⟨-, hi⟩
    · rw [Option.some.injEq] at hj
      subst hj
      exact ⟨_, List.getElem?_concat_length, rfl⟩
    · obtain ⟨s, hs, htoken⟩ := h.own hi hj
      refine ⟨s, ?_, htoken⟩
      rw [List.getElem?_append_left (List.getElem?_eq_some_iff.mp hs).1, hs]
  · intro i t' hi
    rw [heq]
    rcases openStep_cases here hi with ⟨rfl, -⟩ | ⟨-, hi⟩
    · exact h.fresh here
    · exact h.fresh hi
  · intro i t' hi
    rw [heq]
    rcases openStep_cases here hi with ⟨-, rfl⟩ | ⟨-, hi⟩
    · have hfits := h.fits here
      exact hfits
    · exact h.fits hi
  · intro i t' hi hready hhand
    rcases openStep_cases here hi with ⟨rfl, -⟩ | ⟨-, hi⟩
    · exact absurd rfl hhand
    · exact h.unopened hi hready hhand
  · intro i t' hi hbusy
    rcases openStep_cases here hi with ⟨-, rfl⟩ | ⟨-, hi⟩
    · rfl
    · exact h.opened hi hbusy
  · intro node w i ha
    have hjoins : (r.openStep k now).joins = r.joins := by rw [heq]
    rw [joinAt_congr hjoins] at ha
    obtain ⟨hlt, hjoin, hat⟩ := h.parked ha
    have hnext : (r.openStep k now).nextToken = r.nextToken := by rw [heq]
    have hflow : (r.openStep k now).flow = r.flow := by rw [heq]
    rw [hnext, hflow]
    refine ⟨hlt, hjoin, fun t' ht' => ?_⟩
    rcases openStep_cases here ht' with ⟨rfl, rfl⟩ | ⟨-, ht'⟩
    · exact ⟨(hat t here).1, rfl⟩
    · exact hat t' ht'

/-- Every move keeps a run's parts fitting together. -/
theorem fit_prim {now : Timestamp} {hand : Option Nat} {m m' : Moved} (hp : Prim now hand m m')
    (h : Fit hand m.run) : Fit hand m'.run := by
  cases hp with
  | touch cosmetic =>
    exact h.congr (by simp) (by simp) (by simp) (by simp)
      (withStep_sameTokens _ _ cosmetic.token)
  | mark error stopped endedAt => exact h.congr rfl rfl rfl rfl (sameTokens_of_eq rfl)
  | ask timers effects calls isCall => exact h
  | evaluate here => exact h
  | var name value => exact h.congr rfl rfl rfl rfl (sameTokens_of_eq rfl)
  | doing here opened busy fits parked => exact h.setDoing here opened busy fits
  | openStep held here unopened known room =>
    subst held
    exact h.openStep here now
  | drop port here noJoin noSet => exact h.erase _ _ _
  | join isJoin stays comes keeps closes => exact h.setJoin comes
  | pass port here opened noJoin set => exact (h.erase _ _ _).leave _ _
  | passJoin port here opened isJoin first passed arrived alone =>
    refine ((h.setJoin ?_).erase _ _ _).leave _ _
    intro w k ha
    rw [arrived] at ha
    exact .inl ha

theorem fit_goes {now : Timestamp} {hand : Option Nat} {r : Run} {m : Moved} (h : Fit hand r)
    (hm : Goes now hand r m) : Fit hand m.run :=
  goes_keeps (P := fun m => Fit hand m.run) (fun _ _ hp hfit => fit_prim hp hfit) hm h

/-- The token in hand has been dealt with: it is gone, or busy. -/
def Done (k : Nat) (r : Run) : Prop :=
  ∀ t : Token, r.tokens[k]? = some t → t.doing.isReady = false

lemma Fit.release {r : Run} {k : Nat} (h : Fit (some k) r) (hdone : Done k r) : Fit none r where
  came := h.came
  own := h.own
  fresh := h.fresh
  fits := h.fits
  unopened hi hready _ := by
    refine h.unopened hi hready fun hk => ?_
    rw [Option.some.injEq] at hk
    rw [hdone _ (hk ▸ hi)] at hready
    exact absurd hready (by decide)
  opened := h.opened
  parked := h.parked

lemma Fit.take {r : Run} (h : Fit none r) (hand : Option Nat) : Fit hand r where
  came := h.came
  own := h.own
  fresh := h.fresh
  fits := h.fits
  unopened hi hready _ := h.unopened hi hready (by simp)
  opened := h.opened
  parked := h.parked

end Irori.Proofs
