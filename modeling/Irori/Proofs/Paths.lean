import Irori.Proofs.Moves

/-!
# Everything a run does is made of moves

One lemma for each function of a run: where the run's parts fit together, what becomes of it is a
sequence of moves, and the token in hand has been dealt with.
-/

namespace Irori.Proofs

open Irori

section

variable {r : Run} {k : Nat} {t : Token}

lemma erase_of_none {α β : Type} [LinearOrder α] {m : Map α β} {a : α} (h : m[a]? = none) :
    m.erase a = m := by
  refine Std.ExtTreeMap.ext_getElem? fun i => ?_
  rw [Map.get_erase]
  split
  · next hi => rw [← hi, h]
  · rfl

lemma withStep_of_none (h : r.tokens[k]? = none) (f : Step → Step) : r.withStep k f = r := by
  simp [Run.withStep, h]

lemma withStep_withStep (f g : Step → Step) :
    (r.withStep k f).withStep k g = r.withStep k (g ∘ f) := by
  unfold Run.withStep
  cases h : (r.tokens[k]?).bind Token.step with
  | none => simp only [h]
  | some i => simp only [h, List.modify_modify_eq]

lemma withStep_setJoin (f : Step → Step) (node : NodeId) (j : JoinState) :
    (r.setJoin node j).withStep k f = (r.withStep k f).setJoin node j := by
  unfold Run.withStep
  rw [setJoin_tokens]
  split <;> rfl

lemma withStep_setDoing (f : Step → Step) (d : Doing) :
    (r.setDoing k d).withStep k f = (r.withStep k f).setDoing k d := by
  unfold Run.withStep Run.setDoing
  cases h : r.tokens[k]? with
  | none => simp [h]
  | some t =>
    cases hi : t.step with
    | none => simp [h, hi]
    | some i => simp [h, hi]

lemma dropped_setJoin (port : Option Port) (now : Timestamp) (node : NodeId) (j : JoinState) :
    dropped (r.setJoin node j) k port now = (dropped r k port now).setJoin node j := by
  unfold dropped Run.closeStep
  rw [withStep_setJoin]
  rfl

lemma dropped_setDoing (port : Option Port) (now : Timestamp) (d : Doing) :
    dropped (r.setDoing k d) k port now = dropped r k port now := by
  unfold dropped Run.closeStep
  rw [withStep_setDoing]
  have htokens : ∀ r : Run, (r.setDoing k d).tokens.erase k = r.tokens.erase k := by
    intro r
    refine Std.ExtTreeMap.ext_getElem? fun i => ?_
    rw [Map.get_erase, Map.get_erase, setDoing_tokens]
    split
    · rfl
    · rfl
  unfold Run.removeToken
  rw [htokens]
  unfold Run.setDoing
  split <;> rfl

lemma dropped_of_none (h : r.tokens[k]? = none) (port : Option Port) (now : Timestamp) :
    dropped r k port now = r := by
  unfold dropped Run.closeStep
  rw [withStep_of_none h, Run.removeToken, erase_of_none h]

lemma closeStep_get (port : Option Port) (now : Timestamp) :
    (r.closeStep k port now).tokens[k]? = r.tokens[k]? := by
  rw [Run.closeStep, withStep_tokens]

lemma pass_eq (here : r.tokens[k]? = some t) (port : Port) (now : Timestamp) :
    r.pass k port now = (dropped r k (some port) now).leave t.node port := by
  unfold Run.pass
  simp only [closeStep_get, here]
  rfl

lemma pass_of_none (h : r.tokens[k]? = none) (port : Port) (now : Timestamp) :
    r.pass k port now = { run := r } := by
  unfold Run.pass
  simp only [closeStep_get, h]
  rw [Run.closeStep, withStep_of_none h]

lemma endToken_eq (here : r.tokens[k]? = some t) (now : Timestamp) :
    r.endToken k now = (dropped r k none now).addEnding t.node none := by
  unfold Run.endToken
  simp only [closeStep_get, here]
  rfl

lemma endToken_of_none (h : r.tokens[k]? = none) (now : Timestamp) : r.endToken k now = r := by
  unfold Run.endToken
  simp only [closeStep_get, h]
  rw [Run.closeStep, withStep_of_none h]

def merged (r : Run) (k : Nat) : Run := r.noteStep k "merged"

lemma mergeToken_eq (now : Timestamp) : r.mergeToken k now = dropped (merged r k) k none now := by
  unfold Run.mergeToken dropped merged Run.noteStep Run.closeStep
  rw [withStep_withStep]
  rfl

lemma leave_moved (node : NodeId) (port : Port) :
    r.leave node port = { run := (r.leave node port).run, ready := (r.leave node port).ready } := by
  unfold Run.leave
  dsimp only
  split <;> rfl

end

section

variable {now : Timestamp} {hand : Option Nat} {r : Run} {k : Nat} {t : Token}

lemma cosmetic_note (note : String) : Cosmetic fun step => { step with note := some note } :=
  fun _ => rfl

lemma cosmetic_said (reads : List Read) (note : Option String) (call : Option CallDetail) :
    Cosmetic fun step => { step with reads, note, call } :=
  fun _ => rfl

lemma cosmetic_reads (reads : List Read) : Cosmetic fun step => { step with reads } :=
  fun _ => rfl

lemma cosmetic_noteReads (reads : List Read) (note : String) :
    Cosmetic fun step => { step with reads, note := some note } :=
  fun _ => rfl

lemma goes_touch (k : Nat) {f : Step → Step} {m : Moved} (hf : Cosmetic f)
    (h : Goes now hand (r.withStep k f) m) : Goes now hand r m :=
  goes_head (.touch hf) h

lemma goes_ask {m : Moved} (h : Goes now hand r m) (timers : List (Timestamp × Timer))
    (effects : List Effect) (calls : Nat)
    (isCall : ∀ effect ∈ effects, ∃ (id : Nat) (cause : Option ContextId) (entity : EntityId)
      (service : RuleService) (data : Option CallData),
      effect = .call id m.run.record.runId cause entity service data) :
    Goes now hand r { m with timers := m.timers ++ timers, effects := m.effects ++ effects,
                             calls := m.calls + calls } :=
  Relation.ReflTransGen.tail h (.ask timers effects calls isCall)

lemma goes_mark {m : Moved} (h : Goes now hand r m) (error : Option (NodeId × String))
    (stopped : Option (NodeId × Option String)) (endedAt : List Ending) :
    Goes now hand r
      { m with run := { m.run with error, stopped, record := { m.run.record with endedAt } } } :=
  Relation.ReflTransGen.tail h (.mark error stopped endedAt)

lemma goes_pass (here : r.tokens[k]? = some t) (opened : t.step.isSome)
    (noJoin : ¬ JoinAt r.flow t.node)
    (set : ∀ (name : ObjectId) (expr : ExprString),
      r.flow.nodes[t.node]? = some (.set name expr) → r.vars.contains name.text) (port : Port) :
    Goes now hand r (r.pass k port now) := by
  rw [pass_eq here, leave_moved]
  exact goes_single (.pass port here opened noJoin set)

lemma goes_drop (here : r.tokens[k]? = some t) {port : Option Port}
    (noJoin : port.isSome → ¬ JoinAt r.flow t.node)
    (noSet : port.isSome → ∀ (name : ObjectId) (expr : ExprString),
      r.flow.nodes[t.node]? ≠ some (.set name expr)) :
    Goes now hand r { run := dropped r k port now } :=
  goes_single (.drop port here noJoin noSet)

lemma goes_endToken (r : Run) (k : Nat) : Goes now hand r { run := r.endToken k now } := by
  cases here : r.tokens[k]? with
  | none =>
    rw [endToken_of_none here]
    exact goes_refl
  | some t =>
    rw [endToken_eq here]
    have hdrop : Goes now hand r { run := dropped r k none now } :=
      goes_drop here (by simp) (by simp)
    exact goes_mark hdrop _ _ _

lemma done_of_none (h : r.tokens[k]? = none) : Done k r := by
  intro t ht
  rw [h] at ht
  simp at ht

lemma pass_done (hfresh : k < r.nextToken) (port : Port) : Done k (r.pass k port now).run := by
  cases here : r.tokens[k]? with
  | none =>
    rw [pass_of_none here]
    exact done_of_none here
  | some t =>
  rw [pass_eq here]
  intro t' ht'
  rcases leave_cases ht' with ⟨_, _, _, _, hge, _⟩ | hold
  · rw [dropped_nextToken] at hge
    omega
  · rw [dropped_tokens, Map.get_erase, if_pos rfl] at hold
    simp at hold

lemma endToken_get (r : Run) (k i : Nat) (now : Timestamp) :
    (r.endToken k now).tokens[i]? = if i = k then none else r.tokens[i]? := by
  cases here : r.tokens[k]? with
  | none =>
    rw [endToken_of_none here]
    split
    · next hi => rw [hi, here]
    · rfl
  | some t =>
    rw [endToken_eq here, addEnding_tokens, dropped_tokens, Map.get_erase]
    simp only [eq_comm]

lemma endToken_done (r : Run) (k : Nat) : Done k (r.endToken k now) :=
  done_of_none (by rw [endToken_get, if_pos rfl])

lemma done_setDoing (r : Run) (k : Nat) {d : Doing} (hd : d.isReady = false) :
    Done k (r.setDoing k d) := by
  intro t ht
  rw [setDoing_tokens, if_pos rfl] at ht
  obtain ⟨t', -, rfl⟩ := Option.map_eq_some_iff.mp ht
  exact hd

lemma done_withStep (f : Step → Step) (h : Done k r) : Done k (r.withStep k f) := by
  intro t ht
  rw [withStep_tokens] at ht
  exact h t ht

end

section

variable {now : Timestamp} {hand : Option Nat} {r : Run} {k : Nat} {t : Token} {node : NodeId}

lemma foldl_merge_get (l : List Nat) (r : Run) (i : Nat) :
    (l.foldl (Run.mergeToken · · now) r).tokens[i]? = if i ∈ l then none else r.tokens[i]? := by
  induction l generalizing r with
  | nil => simp
  | cons k l ih =>
    rw [List.foldl_cons, ih, mergeToken_eq, dropped_tokens, Map.get_erase, merged, Run.noteStep,
      withStep_tokens]
    by_cases hl : i ∈ l
    · simp [hl]
    · by_cases hk : k = i
      · simp [hk]
      · simp [hl, hk, Ne.symm hk]

lemma foldl_merge_parts (l : List Nat) (r : Run) :
    (l.foldl (Run.mergeToken · · now) r).flow = r.flow ∧
      (l.foldl (Run.mergeToken · · now) r).joins = r.joins ∧
      (l.foldl (Run.mergeToken · · now) r).nextToken = r.nextToken := by
  induction l generalizing r with
  | nil => exact ⟨rfl, rfl, rfl⟩
  | cons k l ih =>
    obtain ⟨hflow, hjoins, hnext⟩ := ih (r.mergeToken k now)
    rw [List.foldl_cons, hflow, hjoins, hnext, mergeToken_eq]
    simp [merged, Run.noteStep]

lemma foldl_merge_setJoin (l : List Nat) (r : Run) (j : JoinState) :
    l.foldl (Run.mergeToken · · now) (r.setJoin node j) =
      (l.foldl (Run.mergeToken · · now) r).setJoin node j := by
  induction l generalizing r with
  | nil => rfl
  | cons k l ih =>
    have hmerge : (r.setJoin node j).mergeToken k now = (r.mergeToken k now).setJoin node j := by
      rw [mergeToken_eq, mergeToken_eq, merged, Run.noteStep, withStep_setJoin, dropped_setJoin]
      rfl
    rw [List.foldl_cons, List.foldl_cons, hmerge, ih]

lemma goes_mergeToken (r : Run) (k : Nat) : Goes now hand r { run := r.mergeToken k now } := by
  rw [mergeToken_eq]
  refine goes_touch k (cosmetic_note "merged") ?_
  cases here : (merged r k).tokens[k]? with
  | none =>
    rw [dropped_of_none here]
    exact goes_refl
  | some t => exact goes_drop here (by simp) (by simp)

lemma goes_foldl {f : Run → Nat → Run} (hf : ∀ (r : Run) (k : Nat), Goes now hand r { run := f r k })
    (l : List Nat) (r : Run) : Goes now hand r { run := l.foldl f r } := by
  induction l generalizing r with
  | nil => exact goes_refl
  | cons k l ih => exact (hf r k).trans (ih (f r k))

lemma goes_completeJoin (h : Fit hand r) (hpassed : (r.joinAt node).passed = false)
    (hin : ∃ w : Wire, (r.joinAt node).arrived[w]? = some k) (port : Port) (note : String) :
    Goes now hand r (r.completeJoin k node port note now) := by
  obtain ⟨w, hw⟩ := hin
  obtain ⟨-, hall, -⟩ := h.parked hw
  have hjoin := hall.joinAt
  -- The join has been told of a token, so it is there.
  obtain ⟨join, hget⟩ : ∃ join : JoinState, r.joins[node]? = some join := by
    cases hget : r.joins[node]? with
    | some join => exact ⟨join, rfl⟩
    | none => simp [Run.joinAt, hget, JoinState.new] at hw
  have hat : r.joinAt node = join := by rw [Run.joinAt, hget]; rfl
  rw [hat] at hpassed hw
  let others := (Map.vals join.arrived).filter (· ≠ k)
  let j : JoinState := { join with passed := true, deadline := none }
  let r' := others.foldl (Run.mergeToken · · now) r
  have hmerged : Goes now hand r { run := r' } := goes_foldl goes_mergeToken others r
  have hfit : Fit hand r' := fit_goes h hmerged
  have hat' : r'.joinAt node = join := by
    rw [joinAt_congr (foldl_merge_parts others r).2.1, hat]
  have hflow : r'.flow = r.flow := (foldl_merge_parts others r).1
  have halone : ∀ (w : Wire) (other : Nat), join.arrived[w]? = some other → other ≠ k →
      r'.tokens[other]? = none := by
    intro w other hother hne
    rw [foldl_merge_get, if_pos]
    exact List.mem_filter.mpr ⟨Map.mem_vals.mpr ⟨w, hother⟩, by simpa using hne⟩
  have hcomplete : r.completeJoin k node port note now =
      (((r'.setJoin node j).setDoing k .ready).noteStep k note).pass k port now := by
    unfold Run.completeJoin
    simp only [hget, Option.map_some, Option.getD_some]
    rw [foldl_merge_setJoin]
  rw [hcomplete]
  cases here : r'.tokens[k]? with
  | none =>
    -- It isn't there any more: the join is over all the same.
    have hsame : ((r'.setJoin node j).setDoing k .ready).noteStep k note = r'.setJoin node j := by
      have hdoing : (r'.setJoin node j).setDoing k .ready = r'.setJoin node j := by
        simp [Run.setDoing, here]
      rw [hdoing, Run.noteStep, withStep_of_none (by rwa [setJoin_tokens])]
    rw [hsame, pass_of_none (by rwa [setJoin_tokens])]
    refine hmerged.trans (goes_single ?_)
    refine @Prim.join _ _ { run := r' } node j [] (hflow ▸ hjoin) (fun _ => rfl)
      (fun w k hk => .inl (hat' ▸ hk)) (fun _ w k hk => by rw [hat'] at hk; exact hk)
      (fun _ _ w other hother => ?_)
    rw [hat'] at hother
    by_cases hk : other = k
    · rw [hk]
      exact here
    · exact halone w other hother hk
  | some t =>
    obtain ⟨hnode, hopened⟩ := (hfit.parked (hat' ▸ hw)).2.2 t here
    have hdropped : dropped (((r'.setJoin node j).setDoing k .ready).noteStep k note) k (some port)
        now = dropped ((r'.noteStep k note).setJoin node j) k (some port) now := by
      rw [Run.noteStep, withStep_setDoing, dropped_setDoing, withStep_setJoin]
      rfl
    have hget' : (((r'.setJoin node j).setDoing k .ready).noteStep k note).tokens[k]? =
        some { t with doing := .ready } := by
      rw [Run.noteStep, withStep_tokens, setDoing_tokens, if_pos rfl, setJoin_tokens, here]
      rfl
    rw [pass_eq hget', hdropped, leave_moved]
    subst hnode
    refine hmerged.trans (goes_touch k (cosmetic_note note) (goes_single ?_))
    have hjoins : (r'.noteStep k note).joinAt t.node = join :=
      (joinAt_congr (withStep_joins r' k _) t.node).trans hat'
    refine @Prim.passJoin _ _ { run := r'.noteStep k note } k t j port
      (by simpa [Run.noteStep] using here) hopened (by simpa [Run.noteStep, hflow] using hjoin)
      (by rw [hjoins]; exact hpassed) rfl (by rw [hjoins]) ?_
    intro w other hother hne
    rw [hjoins] at hother
    simpa [Run.noteStep] using halone w other hother hne

lemma completeJoin_done (hfresh : k < r.nextToken) (port : Port) (note : String) :
    Done k (r.completeJoin k node port note now).run := by
  unfold Run.completeJoin
  refine pass_done ?_ port
  simp only [Run.noteStep, withStep_nextToken, setDoing_nextToken]
  rw [(foldl_merge_parts _ _).2.2]
  cases r.joins[node]? with
  | none => exact hfresh
  | some join => exact hfresh

end

def Settles (now : Timestamp) (hand : Option Nat) (r : Run) (k : Nat) (m : Moved) : Prop :=
  Goes now hand r m ∧ Done k m.run

structure StepsAt (hand : Option Nat) (r : Run) (k : Nat) (t : Token) (kind : Node) : Prop where
  fit : Fit hand r
  here : r.tokens[k]? = some t
  opened : t.step.isSome
  node : r.flow.nodes[t.node]? = some kind

section

variable {now : Timestamp} {hand : Option Nat} {r : Run} {k : Nat} {t : Token} {kind : Node}

lemma StepsAt.touch (c : StepsAt hand r k t kind) {f : Step → Step} (hf : Cosmetic f) :
    StepsAt hand (r.withStep k f) k t kind where
  fit := c.fit.congr (by simp) (by simp) (by simp) (by simp)
    (withStep_sameTokens _ _ hf.token)
  here := by simpa using c.here
  opened := c.opened
  node := by simpa using c.node

lemma StepsAt.setDoing (c : StepsAt hand r k t kind) {d : Doing} (busy : d.isReady = false)
    (fits : DoingFits r.flow t.node d) :
    StepsAt hand (r.setDoing k d) k { t with doing := d } kind where
  fit := c.fit.setDoing c.here c.opened busy fits
  here := by rw [setDoing_tokens, if_pos rfl, c.here]; rfl
  opened := c.opened
  node := by simpa using c.node

lemma StepsAt.not_joinAt (c : StepsAt hand r k t kind) (hkind : kind.isJoin = false) :
    ¬ JoinAt r.flow t.node := by
  rintro ⟨mode, timeout, hjoin⟩
  rw [c.node, Option.some.injEq] at hjoin
  subst hjoin
  simp [Node.isJoin] at hkind

def Node.plain : Node → Bool
  | .set .. => false
  | .join .. => false
  | _ => true

lemma Node.plain_not_join {kind : Node} (h : Node.plain kind = true) : kind.isJoin = false := by
  cases kind <;> first | rfl | simp [Node.plain] at h

lemma settles_pass (c : StepsAt hand r k t kind) (hplain : Node.plain kind = true) (port : Port) :
    Settles now hand r k (r.pass k port now) := by
  refine ⟨goes_pass c.here c.opened (c.not_joinAt (Node.plain_not_join hplain)) ?_ port,
    pass_done (c.fit.fresh c.here) port⟩
  intro name expr hset
  rw [c.node, Option.some.injEq] at hset
  subst hset
  simp [Node.plain] at hplain

lemma settles_touch {f : Step → Step} {m : Moved} (hf : Cosmetic f)
    (h : Settles now hand (r.withStep k f) k m) : Settles now hand r k m :=
  ⟨goes_touch k hf h.1, h.2⟩

lemma settles_touch_pass (c : StepsAt hand r k t kind) (hplain : Node.plain kind = true)
    {f : Step → Step} (hf : Cosmetic f) (port : Port) :
    Settles now hand r k ((r.withStep k f).pass k port now) :=
  settles_touch hf (settles_pass (c.touch hf) hplain port)

lemma settles_endToken (r : Run) (k : Nat) : Settles now hand r k { run := r.endToken k now } :=
  ⟨goes_endToken r k, endToken_done r k⟩

lemma goes_setDoing (c : StepsAt hand r k t kind) {d : Doing} (busy : d.isReady = false)
    (fits : DoingFits r.flow t.node d) (hjoined : d.isJoined = false) :
    Goes now hand r { run := r.setDoing k d } :=
  goes_single (.doing c.here c.opened busy fits (by simp [hjoined]))

lemma settles_setDoing (c : StepsAt hand r k t kind) {d : Doing} (busy : d.isReady = false)
    (fits : DoingFits r.flow t.node d) (hjoined : d.isJoined = false) (note : String)
    (timers : List (Timestamp × Timer)) :
    Settles now hand r k { run := (r.setDoing k d).noteStep k note, timers } := by
  refine ⟨?_, done_withStep _ (done_setDoing r k busy)⟩
  have hnoted : Goes now hand r { run := (r.setDoing k d).noteStep k note } :=
    (goes_setDoing c busy fits hjoined).trans (goes_touch k (cosmetic_note note) goes_refl)
  exact goes_ask hnoted timers [] 0 (by simp)

end

section

variable {env : Env} {view : View} {now : Timestamp} {hand : Option Nat} {r : Run} {k : Nat}
  {t : Token}

lemma stepGate_settles {condition : Condition} (c : StepsAt hand r k t (.gate condition)) :
    Settles now hand r k (r.stepGate env view k condition now) :=
  settles_touch_pass c rfl (cosmetic_noteReads _ _) _

lemma stepSwitch_settles {cases : List Condition} (c : StepsAt hand r k t (.switch cases)) :
    Settles now hand r k (r.stepSwitch env view k cases now) := by
  unfold Run.stepSwitch
  exact settles_touch_pass c rfl (cosmetic_noteReads _ _) _

lemma settles_fail {service : RuleService} {entity : EntityId} {data : Option FlowCallData}
    (c : StepsAt hand r k t (.call service entity data)) (error : String) :
    Settles now hand r k { run := (((r.closeStep k (some .error) now).removeToken k).addEnding
      t.node (some .error)).setError t.node error } := by
  have hdrop : Goes now hand r { run := dropped r k (some .error) now } :=
    goes_drop c.here (fun _ => c.not_joinAt rfl)
      (fun _ name expr hset => by rw [c.node] at hset; simp at hset)
  refine ⟨goes_mark hdrop _ _ _, done_of_none ?_⟩
  rw [setError_tokens, addEnding_tokens]
  exact (congrArg (·[k]?) (dropped_tokens _ _ _ _)).trans (by rw [Map.get_erase, if_pos rfl])

lemma answerCall_settles {service : RuleService} {entity : EntityId} {data : Option FlowCallData}
    (c : StepsAt hand r k t (.call service entity data)) (result : Except String Unit) :
    Settles now hand r k (r.answerCall k result now) := by
  have hf : Cosmetic fun step => { step with
      call := step.call.map fun call => { call with result := some result } } := fun _ => rfl
  unfold Run.answerCall
  refine settles_touch hf ?_
  have c' := c.touch hf
  cases result with
  | ok done => exact settles_pass c' rfl _
  | error error =>
    simp only [c'.here]
    split
    · exact settles_pass c' rfl _
    · exact settles_fail c' error

lemma settles_calls {m : Moved} (h : Settles now hand r k m) (n : Nat) :
    Settles now hand r k { m with calls := m.calls + n } := by
  refine ⟨?_, h.2⟩
  have := goes_ask h.1 [] [] n (by simp)
  simpa only [List.append_nil] using this

lemma Goes.settles {r' : Run} {m : Moved} (h : Goes now hand r { run := r' })
    (hm : Settles now hand r' k m) : Settles now hand r k m :=
  ⟨h.trans hm.1, hm.2⟩

lemma settles_asked {service : RuleService} {entity : EntityId} {data : Option FlowCallData}
    (c : StepsAt hand r k t (.call service entity data)) (id : Nat) (cause : Option ContextId)
    (sent : Option CallData) :
    Settles now hand r k
      (if view.dry then (r.setDoing k (.call id)).answerCall k (.ok ()) now
      else { run := r.setDoing k (.call id),
             effects := [.call id (r.setDoing k (.call id)).record.runId cause entity service
               sent] }) := by
  have hfits : DoingFits r.flow t.node (.call id) := ⟨service, entity, data, c.node⟩
  have hgoes : Goes now hand r { run := r.setDoing k (.call id) } := goes_setDoing c rfl hfits rfl
  split
  · exact Goes.settles hgoes (answerCall_settles (c.setDoing rfl hfits) _)
  · refine ⟨goes_ask hgoes [] [_] 0 ?_, done_setDoing _ _ rfl⟩
    intro effect heffect
    rw [List.mem_singleton.mp heffect]
    exact ⟨_, _, _, _, _, rfl⟩

lemma stepCall_settles {service : RuleService} {entity : EntityId} {data : Option FlowCallData}
    (c : StepsAt hand r k t (.call service entity data)) :
    Settles now hand r k (r.stepCall env view k service entity data now) := by
  unfold Run.stepCall
  dsimp only
  refine settles_calls ?_ 1
  split
  · exact settles_touch (cosmetic_said _ _ _)
      (answerCall_settles (c.touch (cosmetic_said _ _ _)) _)
  · exact settles_touch (cosmetic_said _ _ _)
      (settles_asked (c.touch (cosmetic_said _ _ _)) _ _ _)

lemma settles_set {name : ObjectId} {expr : ExprString} (c : StepsAt hand r k t (.set name expr))
    (hvar : r.vars.contains name.text) {f : Step → Step} (hf : Cosmetic f) :
    Settles now hand r k ((r.withStep k f).pass k .out now) := by
  have c' := c.touch hf
  refine settles_touch hf ⟨goes_pass c'.here c'.opened (c'.not_joinAt rfl) ?_ .out,
    pass_done (c'.fit.fresh c'.here) .out⟩
  intro other expr' hset
  rw [c'.node] at hset
  simp only [Option.some.injEq, Node.set.injEq] at hset
  rw [withStep_vars, ← hset.1]
  exact hvar

lemma settles_unset {f : Step → Step} (hf : Cosmetic f)
    (node : NodeId) (message : String) :
    Settles now hand r k { run := ((r.withStep k f).setError node message).endToken k now } :=
  settles_touch hf (Goes.settles (goes_mark goes_refl _ _ _) (settles_endToken _ _))

lemma stepSet_settles {name : ObjectId} {expr : ExprString}
    (c : StepsAt hand r k t (.set name expr)) :
    Settles now hand r k (r.stepSet env view k t.node name expr now) := by
  unfold Run.stepSet
  dsimp only
  split
  · next value _ =>
    have hvar : Goes now hand r { run := { r with vars := r.vars.insert name.text value } } :=
      goes_single (.var name.text value)
    have c' : StepsAt hand { r with vars := r.vars.insert name.text value } k t (.set name expr) :=
      ⟨c.fit.congr rfl rfl rfl rfl (sameTokens_of_eq rfl), c.here, c.opened, c.node⟩
    exact Goes.settles hvar (settles_set c' (by simp) (cosmetic_noteReads _ _))
  · exact settles_unset (cosmetic_noteReads _ _) _ _

lemma stepDelay_settles {hold : CompactDuration} (c : StepsAt hand r k t (.delay hold)) :
    Settles now hand r k (r.stepDelay k hold now) := by
  have hfits : DoingFits r.flow t.node (.delay (plus now hold.millis)) := ⟨hold, c.node⟩
  exact settles_setDoing c rfl hfits rfl _ _

lemma goes_evaluate {m : Moved} (here : r.tokens[k]? = some t) (h : Goes now hand r m) :
    Goes now hand r { m with evaluated := r.evaluation t.node :: m.evaluated } := by
  have hfirst : Goes now hand r { run := r, evaluated := [r.evaluation t.node] } :=
    goes_single (.evaluate here)
  have := goes_trans hfirst h
  simpa only [after, List.nil_append, List.cons_append, Nat.zero_add] using this

lemma checkWait_goes (h : Fit hand r) :
    Goes now hand r (r.checkWait env view k now) ∧
      (Done k r → Done k (r.checkWait env view k now).run) := by
  unfold Run.checkWait
  cases here : r.tokens[k]? with
  | none => exact ⟨goes_refl, id⟩
  | some t =>
    dsimp only
    split
    · next level timeout since until_ holdingSince watch hnode hdoing =>
      have c : StepsAt hand r k t (.wait level timeout) :=
        ⟨h, here, h.opened here (by rw [hdoing]; rfl), hnode⟩
      have hfits : ∀ (holding : Option Timestamp) (watch : OrdSet EntityId),
          DoingFits r.flow t.node (.wait since until_ holding watch) :=
        fun _ _ => ⟨level, timeout, c.node⟩
      refine (fun hs => ⟨goes_evaluate here hs.1, fun _ => hs.2⟩ :
        Settles now hand r k _ → _) ?_
      have hreads := cosmetic_reads (evalWait env view.place level (r.snapshot view now)).reads
      refine settles_touch hreads ?_
      have c' := c.touch hreads
      split
      · exact settles_touch_pass c' rfl (cosmetic_note _) _
      · split
        · exact settles_touch_pass c' rfl (cosmetic_note _) _
        · exact settles_setDoing c' rfl (by simpa using hfits _ _) rfl _ _
      · exact settles_setDoing c' rfl (by simpa using hfits _ _) rfl _ _
    · exact ⟨goes_refl, id⟩

lemma stepWait_settles {level : WaitUntil} {timeout : CompactDuration}
    (c : StepsAt hand r k t (.wait level timeout)) :
    Settles now hand r k (r.stepWait env view k timeout now) := by
  have hfits : DoingFits r.flow t.node (.wait now (plus now timeout.millis) none ∅) :=
    ⟨level, timeout, c.node⟩
  have hwait := goes_ask (goes_setDoing c rfl hfits rfl : Goes now hand r _)
    [(plus now timeout.millis, .token r.record.runId k)] [] 0 (by simp)
  have hcheck := @checkWait_goes env view now hand _ k (c.setDoing rfl hfits).fit
  exact ⟨goes_trans hwait hcheck.1, hcheck.2 (done_setDoing r k rfl)⟩

end

end Irori.Proofs
