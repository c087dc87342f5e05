import Irori.Proofs.Calm
import Irori.Proofs.Versions

/-!
# What a wait hasn't missed

A token waits at a node until its level holds. The engine looks at the level when the token comes,
when an entity changes that it read the last time it was looked at, and when the home is read again.
So the level doesn't hold of the home as it is, with the variables the run had when it was last
looked at.
-/

namespace Irori.Proofs

open Irori

/-! ### Waits that don't match -/

/-- What a level comes to depends on the states of the entities it read and on the variables, and on
nothing else. -/
def Steady (env : Env) (level : WaitUntil) : Prop :=
  ∀ (place place' : Option Place) (snapshot snapshot' : Snapshot), snapshot'.vars = snapshot.vars →
    (∀ read ∈ (evalWait env place level snapshot).reads,
      snapshot'.states[read.entityId]? = snapshot.states[read.entityId]?) →
    evalWait env place' level snapshot' = evalWait env place level snapshot

/-- The level of a wait doesn't hold of `states` with the variables `vars`, and all it reads of them
is watched. -/
def Unmatched (env : Env) (states : Map EntityId EntityState) (vars : Map String Json)
    (level : WaitUntil) (watch : OrdSet EntityId) : Prop :=
  ∃ (place : Option Place) (now : Timestamp),
    (evalWait env place level ⟨states, vars, now⟩).holds = false ∧
    ∀ read ∈ (evalWait env place level ⟨states, vars, now⟩).reads, read.entityId ∈ watch

/-- Step `j` of the run was of a `set` node, which has set the variable `name`. -/
def WroteAt (run : Run) (j : Nat) (name : String) : Prop :=
  ∃ (step : Step) (variable_ : ObjectId) (expr : ExprString), run.record.steps[j]? = some step ∧
    step.port.isSome ∧ run.flow.nodes[step.node]? = some (.set variable_ expr) ∧
    variable_.text = name

/-- Variables the run had at some time since step `i` was opened: what they differ in from those it
has now, it has set since. -/
def VarsSince (run : Run) (i : Nat) (vars : Map String Json) : Prop :=
  ∀ name : String, run.vars[name]? ≠ vars[name]? → ∃ j : Nat, i < j ∧ WroteAt run j name

/-- What a token waits for doesn't hold, with variables the run had since it came there. -/
def Unmet (env : Env) (states : Map EntityId EntityState) (run : Run) (t : Token) : Prop :=
  ∀ (level : WaitUntil) (timeout : CompactDuration) (i : Nat) (since deadline : Timestamp)
    (holdingSince : Option Timestamp) (watch : OrdSet EntityId),
    run.flow.nodes[t.node]? = some (.wait level timeout) → level.hold = none → Steady env level →
    t.step = some i → t.doing = .wait since deadline holdingSince watch →
    ∃ vars : Map String Json, VarsSince run i vars ∧ Unmatched env states vars level watch

def picked (pick : OrdSet EntityId → Bool) (t : Token) : Bool :=
  match t.doing with
  | .wait _ _ _ watch => pick watch
  | _ => false

def Attentive (env : Env) (pick : OrdSet EntityId → Bool) : RunFact := fun states run =>
  ∀ (k : Nat) (t : Token), run.tokens[k]? = some t → picked pick t = false → Unmet env states run t

/-! ### Moves that leave waits alone -/

/-- The tokens that wait did so before, and a variable that changed was set by a step from `n` on. -/
structure Stands (n : Nat) (r r' : Run) : Prop where
  flow : r'.flow = r.flow
  waits : ∀ (k : Nat) (t : Token), r'.tokens[k]? = some t → t.doing.isWait = true →
    r.tokens[k]? = some t
  wrote : ∀ (j : Nat) (name : String), WroteAt r j name → WroteAt r' j name
  vars : ∀ name : String, r'.vars[name]? ≠ r.vars[name]? → ∃ j : Nat, n ≤ j ∧ WroteAt r' j name

section

variable {env : Env} {view : View} {now : Timestamp} {n k : Nat} {r r' r'' : Run} {t : Token}

lemma Stands.trans (h : Stands n r r') (h' : Stands n r' r'') : Stands n r r'' where
  flow := h'.flow.trans h.flow
  waits k t ht hwait := h.waits k t (h'.waits k t ht hwait) hwait
  wrote j name hj := h'.wrote j name (h.wrote j name hj)
  vars name hne := by
    by_cases hsame : r''.vars[name]? = r'.vars[name]?
    · obtain ⟨j, hj, hwrote⟩ := h.vars name (hsame ▸ hne)
      exact ⟨j, hj, h'.wrote j name hwrote⟩
    · exact h'.vars name hsame

lemma stands_of (hflow : r'.flow = r.flow) (hvars : r'.vars = r.vars)
    (hsteps : r'.record.steps = r.record.steps)
    (hwaits : ∀ (k : Nat) (t : Token), r'.tokens[k]? = some t → t.doing.isWait = true →
      r.tokens[k]? = some t) : Stands n r r' where
  flow := hflow
  waits := hwaits
  wrote j name := fun ⟨step, variable_, expr, hstep, hrest⟩ =>
    ⟨step, variable_, expr, hsteps ▸ hstep, hflow ▸ hrest⟩
  vars name hne := absurd (by rw [hvars]) hne

lemma stands_same (hflow : r'.flow = r.flow) (hvars : r'.vars = r.vars)
    (hsteps : r'.record.steps = r.record.steps) (htokens : r'.tokens = r.tokens) : Stands n r r' :=
  stands_of hflow hvars hsteps fun _ _ ht _ => htokens ▸ ht

lemma Stands.refl (r : Run) : Stands n r r := stands_same rfl rfl rfl rfl

lemma stands_withStep (k : Nat) {f : Step → Step} (hf : ∀ s : Step, (f s).node = s.node ∧
      (s.port.isSome → (f s).port.isSome)) : Stands n r (r.withStep k f) where
  flow := by simp
  waits _ _ ht _ := by simpa using ht
  wrote j name := by
    rintro ⟨step, variable_, expr, hstep, hport, hnode, hname⟩
    rw [WroteAt, withStep_flow]
    by_cases hown : (r.tokens[k]?).bind Token.step = some j
    · refine ⟨f step, variable_, expr, ?_, (hf step).2 hport, ?_, hname⟩
      · rw [withStep_steps, if_pos hown, hstep, Option.map_some]
      · rw [(hf step).1]
        exact hnode
    · refine ⟨step, variable_, expr, ?_, hport, hnode, hname⟩
      rw [withStep_steps, if_neg hown]
      exact hstep
  vars name hne := absurd (by simp) hne

lemma stands_note (k : Nat) (note : String) : Stands n r (r.noteStep k note) :=
  stands_withStep k fun _ => ⟨rfl, id⟩

lemma stands_noteReads (k : Nat) (reads : List Read) (note : String) :
    Stands n r (r.noteReads k reads note) :=
  stands_withStep k fun _ => ⟨rfl, id⟩

lemma stands_closeStep (k : Nat) (port : Option Port) :
    Stands n r (r.closeStep k port now) :=
  stands_withStep k fun _ => ⟨rfl, fun hport => by cases port <;> simp [hport]⟩

lemma stands_removeToken (k : Nat) : Stands n r (r.removeToken k) :=
  stands_of rfl rfl rfl fun i t ht _ => by
    rw [removeToken_tokens, Map.get_erase] at ht
    split at ht
    · simp at ht
    · exact ht

lemma stands_setDoing (k : Nat) {doing : Doing} (hdoing : doing.isWait = false) :
    Stands n r (r.setDoing k doing) :=
  stands_of (by simp) (by simp) (by simp) fun i t ht hwait => by
    rw [setDoing_tokens] at ht
    split at ht
    · next hk =>
      obtain ⟨before, -, rfl⟩ := Option.map_eq_some_iff.mp ht
      rw [hdoing] at hwait
      simp at hwait
    · exact ht

lemma stands_leave (node : NodeId) (port : Port) : Stands n r (r.leave node port).run :=
  stands_of (by simp) (by simp) (by simp) fun i t ht hwait => by
    rcases leave_cases ht with ⟨w, -, rfl, -⟩ | ht
    · simp [onWire, Doing.isWait] at hwait
    · exact ht

lemma stands_pass (k : Nat) (port : Port) : Stands n r (r.pass k port now).run := by
  unfold Run.pass
  dsimp only
  have hclosed : Stands n r (r.closeStep k (some port) now) := stands_closeStep k _
  split
  · exact hclosed
  · exact (hclosed.trans (stands_removeToken k)).trans (stands_leave _ port)

lemma stands_endToken (k : Nat) : Stands n r (r.endToken k now) := by
  unfold Run.endToken
  dsimp only
  have hclosed : Stands n r (r.closeStep k none now) := stands_closeStep k none
  split
  · exact hclosed
  · exact (hclosed.trans (stands_removeToken k)).trans (stands_same rfl rfl rfl rfl)

lemma stands_foldl {α : Type} {f : Run → α → Run} (hf : ∀ (r : Run) (x : α), Stands n r (f r x))
    (l : List α) : ∀ r : Run, Stands n r (l.foldl f r) := by
  induction l with
  | nil => exact Stands.refl
  | cons x l ih => exact fun r => (hf r x).trans (ih _)

lemma stands_mergeToken (k : Nat) : Stands n r (r.mergeToken k now) := by
  unfold Run.mergeToken
  have hwritten : Stands n r (r.withStep k fun step =>
      { step with finishedAt := some now, note := some "merged" }) :=
    stands_withStep k fun _ => ⟨rfl, id⟩
  exact hwritten.trans (stands_removeToken k)

lemma stands_setJoin (node : NodeId) (join : JoinState) : Stands n r (r.setJoin node join) :=
  stands_same rfl rfl rfl rfl

lemma stands_completeJoin (through : Nat) (node : NodeId) (port : Port) (note : String) :
    Stands n r (r.completeJoin through node port note now).run := by
  unfold Run.completeJoin
  dsimp only
  have hpassed : ∀ r' : Run, Stands n r r' → ∀ l : List Nat,
      Stands n r ((((l.foldl (Run.mergeToken · · now) r').setDoing through .ready).noteStep through
        note).pass through port now).run := by
    intro r' h l
    have hmerged : Stands n r' (l.foldl (Run.mergeToken · · now) r') :=
      stands_foldl (fun _ k => stands_mergeToken k) l r'
    have hready : Stands n (l.foldl (Run.mergeToken · · now) r')
        ((l.foldl (Run.mergeToken · · now) r').setDoing through .ready) :=
      stands_setDoing through rfl
    exact (((h.trans hmerged).trans hready).trans (stands_note through note)).trans
      (stands_pass through port)
  split
  · exact hpassed _ (Stands.refl r) _
  · exact hpassed _ (stands_setJoin node _) _

lemma stands_giveUpJoins (r : Run) : Stands n r (r.giveUpJoins now).run := by
  unfold Run.giveUpJoins
  dsimp only
  have hall : ∀ (l : List (NodeId × Nat × String)) (m : Moved), Stands n r m.run →
      Stands n r (l.foldl (fun m x =>
        m.andThen (Run.completeJoin · x.2.1 x.1 .timeout x.2.2 now)) m).run := by
    intro l
    induction l with
    | nil => exact fun _ h => h
    | cons x l ih => exact fun m h => ih _ (h.trans (stands_completeJoin _ _ _ _))
  exact hall _ _ (Stands.refl r)

lemma stands_arrive (k : Nat) (node : NodeId) (mode : JoinMode) (timeoutMs : Option Int) :
    Stands n r (r.arrive k node mode timeoutMs now).run := by
  have hlate : ∀ note : String, Stands n r
      (((r.setJoin node (r.joinAt node)).noteStep k note).endToken k now) := fun note =>
    ((stands_setJoin node _).trans (stands_note k note)).trans (stands_endToken k)
  have hcame : ∀ (join : JoinState) (c : Prop) [Decidable c] (note : String), Stands n r
      (if c then (r.setJoin node join).completeJoin k node .out "every path is here" now
        else { run := ((r.setJoin node join).setDoing k .joined).noteStep k note : Moved }).run := by
    intro join c _ note
    split
    · exact (stands_setJoin node join).trans (stands_completeJoin _ _ _ _)
    · exact ((stands_setJoin node join).trans (stands_setDoing k rfl)).trans (stands_note k note)
  unfold Run.arrive
  dsimp only
  split
  · split
    · exact hlate _
    · exact ((stands_setJoin node _).trans (stands_note k _)).trans (stands_pass k .out)
  · split
    · exact hlate _
    · exact hcame _ _ _

lemma stands_answerCall (k : Nat) (result : Except String Unit) :
    Stands n r (r.answerCall k result now).run := by
  unfold Run.answerCall
  dsimp only
  have hanswered : Stands n r (r.withStep k fun step =>
      { step with call := step.call.map fun call => { call with result := some result } }) :=
    stands_withStep k fun _ => ⟨rfl, id⟩
  split
  · exact hanswered.trans (stands_pass k .out)
  split
  · exact hanswered
  split
  · exact hanswered.trans (stands_pass k .error)
  · exact ((hanswered.trans (stands_closeStep k _)).trans (stands_removeToken k)).trans
      (stands_same rfl rfl rfl rfl)

lemma stands_openStep (here : r.tokens[k]? = some t) (hready : t.doing.isReady = true) :
    Stands n r (r.openStep k now) where
  flow := by rw [openStep_eq now here]
  waits i t' ht hwait := by
    rcases openStep_cases here ht with ⟨-, rfl⟩ | ⟨-, ht⟩
    · cases hdoing : t.doing <;> simp [hdoing, Doing.isReady, Doing.isWait] at hready hwait
    · exact ht
  wrote j name := by
    rintro ⟨step, variable_, expr, hstep, hrest⟩
    rw [openStep_eq now here]
    refine ⟨step, variable_, expr, ?_, hrest⟩
    dsimp only
    rw [List.getElem?_append_left (List.getElem?_eq_some_iff.mp hstep).1, hstep]
  vars name hne := absurd (by rw [openStep_eq now here]) hne

/-! ### Running a node that isn't a wait -/

lemma stands_cutShort (k : Nat) : Stands n r (r.cutShort k now) := by
  unfold Run.cutShort
  have hwritten : Stands n r (r.withStep k fun step =>
      { step with
        finishedAt := some now, note := some (step.note.getD "cut short by a stop") }) :=
    stands_withStep k fun _ => ⟨rfl, id⟩
  exact hwritten.trans (stands_removeToken k)

lemma stands_stepStop (k : Nat) (node : NodeId) (reason : Option String) :
    Stands n r (r.stepStop k node reason now).run := by
  unfold Run.stepStop
  dsimp only
  have hwritten : Stands n r (r.withStep k fun step =>
      { step with finishedAt := some now, note := some (reason.getD "stop") }) :=
    stands_withStep k fun _ => ⟨rfl, id⟩
  have hcut : ∀ (l : List Nat) (r' : Run), Stands n r r' → Stands n r (l.foldl (fun run other =>
      if other = k then run.removeToken other else run.cutShort other now) r') := by
    intro l r' h
    refine h.trans (stands_foldl (fun r'' other => ?_) l r')
    split
    · exact stands_removeToken other
    · exact stands_cutShort other
  exact hcut _ _ (hwritten.trans (stands_same rfl rfl rfl rfl))

lemma stands_exhaust (node : NodeId) : Stands n r (r.exhaust node now) := by
  have herror : ∀ message : String, Stands n r { r with error := some (node, message) } :=
    fun _ => stands_same rfl rfl rfl rfl
  exact (herror _).trans (stands_foldl (fun _ k => stands_endToken k) _ _)

lemma stands_stepCall (k : Nat) (service : RuleService) (entity : EntityId)
    (data : Option FlowCallData) : Stands n r (r.stepCall env view k service entity data now).run := by
  unfold Run.stepCall
  dsimp only
  have hwritten : ∀ f : Step → Step, (∀ s : Step, (f s).node = s.node ∧ (f s).port = s.port) →
      Stands n r (r.withStep k f) := fun f hf =>
    stands_withStep k fun s => ⟨(hf s).1, fun hport => (hf s).2 ▸ hport⟩
  have hanswered : ∀ (r' : Run) (result : Except String Unit), Stands n r r' →
      Stands n r (r'.answerCall k result now).run := fun _ result h =>
    h.trans (stands_answerCall k result)
  split
  · exact hanswered _ _ (hwritten _ fun _ => ⟨rfl, rfl⟩)
  · have hasked : ∀ f : Step → Step, (∀ s : Step, (f s).node = s.node ∧ (f s).port = s.port) →
        Stands n r ((r.withStep k f).setDoing k (.call view.nextCall)) := fun f hf =>
      (hwritten f hf).trans (stands_setDoing k rfl)
    split
    · exact hanswered _ _ (hasked _ fun _ => ⟨rfl, rfl⟩)
    · exact hasked _ fun _ => ⟨rfl, rfl⟩

lemma stands_stepDelay (k : Nat) (hold : CompactDuration) :
    Stands n r (r.stepDelay k hold now).run :=
  (stands_setDoing k rfl).trans (stands_note k _)

lemma stands_stepSet {i : Nat} {step : Step} {node : NodeId} {name : ObjectId} {expr : ExprString}
    (here : r.tokens[k]? = some t) (hopen : t.step = some i)
    (hstep : r.record.steps[i]? = some step) (hnode : step.node = node)
    (hset : r.flow.nodes[node]? = some (.set name expr)) (hn : n ≤ i) :
    Stands n r (r.stepSet env view k node name expr now).run := by
  unfold Run.stepSet
  dsimp only
  split
  · next value _ =>
    generalize hr' : ({ r with vars := r.vars.insert name.text value } : Run) = r'
    generalize (evalValue env view.place expr (r.snapshot view now)).reads = reads
    generalize s!"{name.text} = {words env value}" = note
    have hpassed : Stands n r' ((r'.noteReads k reads note).pass k .out now).run :=
      (stands_noteReads k reads note).trans (stands_pass k .out)
    have here' : (r'.noteReads k reads note).tokens[k]? = some t := by
      rw [Run.noteReads, withStep_tokens, ← hr']
      exact here
    have hwrote : WroteAt ((r'.noteReads k reads note).pass k .out now).run i name.text := by
      have hown : (r'.tokens[k]?).bind Token.step = some i := by
        rw [← hr', here]
        exact hopen
      refine ⟨{ step with reads, note := some note, finishedAt := some now, port := some .out }, name,
        expr, ?_, rfl, ?_, rfl⟩
      · rw [pass_eq here', leave_steps, dropped, removeToken_record, Run.closeStep, withStep_steps,
          Run.noteReads, withStep_tokens, if_pos hown, withStep_steps, if_pos hown, ← hr', hstep]
        rfl
      · rw [hpassed.flow, ← hr', ← hset, ← hnode]
    refine ⟨?_, fun k' t' ht' hwait => ?_, fun j name' hj => ?_, fun name' hne => ?_⟩
    · rw [hpassed.flow, ← hr']
    · have hbefore := hpassed.waits k' t' ht' hwait
      rw [← hr'] at hbefore
      exact hbefore
    · exact hpassed.wrote j name' (hr' ▸ hj)
    · by_cases hname : name.text = name'
      · exact ⟨i, hn, hname ▸ hwrote⟩
      · refine hpassed.vars name' fun hsame => hne ?_
        rw [hsame, ← hr']
        dsimp only
        rw [Map.get_insert, if_neg hname]
  · have hended : ∀ r' : Run, Stands n r r' → Stands n r (r'.endToken k now) := fun _ h =>
      h.trans (stands_endToken k)
    exact hended _ ((stands_noteReads k _ _).trans (stands_same rfl rfl rfl rfl))

/-! ### Looking at a wait -/

/-- A wait is looked at: the other tokens that wait did so before, and its own level doesn't hold if
it still waits. -/
structure Looks (env : Env) (states : Map EntityId EntityState) (k : Nat) (r r' : Run) : Prop where
  flow : r'.flow = r.flow
  vars : r'.vars = r.vars
  wrote : ∀ (j : Nat) (name : String), WroteAt r j name → WroteAt r' j name
  others : ∀ (i : Nat) (t : Token), i ≠ k → r'.tokens[i]? = some t → t.doing.isWait = true →
    r.tokens[i]? = some t
  own : ∀ t : Token, r'.tokens[k]? = some t → t.doing.isWait = true → Unmet env states r' t

lemma wroteAt_setDoing {doing : Doing} {j : Nat} {name : String} (h : WroteAt r j name) :
    WroteAt (r.setDoing k doing) j name := by
  rwa [WroteAt, setDoing_flow, setDoing_record]

lemma pass_own (k : Nat) (port : Port) (h : (r.pass k port now).run.tokens[k]? = some t) :
    t.doing.isWait = false := by
  cases here : r.tokens[k]? with
  | none =>
    rw [pass_of_none here] at h
    rw [here] at h
    simp at h
  | some before =>
    rw [pass_eq here] at h
    rcases leave_cases h with ⟨w, -, rfl, -⟩ | h
    · rfl
    · rw [dropped_tokens, Map.get_erase, if_pos rfl] at h
      simp at h

lemma pass_vars (k : Nat) (port : Port) : (r.pass k port now).run.vars = r.vars := by
  cases here : r.tokens[k]? with
  | none => rw [pass_of_none here]
  | some before => rw [pass_eq here, leave_vars, dropped_vars]

lemma looks_pass {states : Map EntityId EntityState} (port : Port) (h : Stands n r r')
    (hvars : r'.vars = r.vars) : Looks env states k r (r'.pass k port now).run := by
  have hpassed : Stands n r (r'.pass k port now).run := h.trans (stands_pass k port)
  refine ⟨hpassed.flow, ?_, hpassed.wrote, fun i t _ => hpassed.waits i t, fun t ht hwait => ?_⟩
  · rw [pass_vars, hvars]
  · rw [pass_own k port ht] at hwait
    simp at hwait

lemma looks_waiting {states : Map EntityId EntityState} {level : WaitUntil}
    {timeout : CompactDuration} (here : r.tokens[k]? = some t)
    (hnode : r.flow.nodes[t.node]? = some (.wait level timeout)) (reads : List Read) (note : String)
    {since deadline : Timestamp} {holding : Option Timestamp} {watch : OrdSet EntityId}
    (hout : level.hold = none → Unmatched env states r.vars level watch) :
    Looks env states k r (((r.withStep k fun step => { step with reads }).setDoing k
      (.wait since deadline holding watch)).noteStep k note) := by
  have hread : Stands 0 r (r.withStep k fun step => { step with reads }) :=
    stands_withStep k fun _ => ⟨rfl, id⟩
  have hthere : (r.withStep k fun step => { step with reads }).tokens[k]? = some t := by
    rw [withStep_tokens]
    exact here
  refine ⟨by simp [Run.noteStep], by simp [Run.noteStep], fun j name hj => ?_,
    fun i t' hi ht' _ => ?_, fun t' ht' _ => ?_⟩
  · exact (stands_note k note : Stands 0 _ _).wrote j name
      (wroteAt_setDoing (hread.wrote j name hj))
  · rw [Run.noteStep, withStep_tokens] at ht'
    rcases setDoing_cases hthere ht' with ⟨hik, -⟩ | ⟨-, ht'⟩
    · exact absurd hik hi
    · rwa [withStep_tokens] at ht'
  · rw [Run.noteStep, withStep_tokens] at ht'
    rcases setDoing_cases hthere ht' with ⟨-, rfl⟩ | ⟨hne, -⟩
    · intro level' timeout' i since' deadline' holding' watch' hnode' hhold _ _ hdoing'
      have hlevel : level' = level := by
        simp only [Run.noteStep, withStep_flow, setDoing_flow, hnode, Option.some.injEq,
          Node.wait.injEq] at hnode'
        exact hnode'.1.symm
      rw [Doing.wait.injEq] at hdoing'
      rw [hlevel] at hhold ⊢
      exact ⟨r.vars, fun name hne => absurd (by simp [Run.noteStep]) hne,
        hdoing'.2.2.2 ▸ hout hhold⟩
    · exact absurd rfl hne

lemma looks_checkWait (env : Env) (view : View) (now : Timestamp) (r : Run) (k : Nat) :
    Looks env view.states k r (r.checkWait env view k now).run := by
  unfold Run.checkWait
  split
  · next hnone =>
    refine ⟨rfl, rfl, fun _ _ h => h, fun _ _ _ ht _ => ht, fun t ht => ?_⟩
    rw [hnone] at ht
    simp at ht
  next t here =>
  split
  · next level timeout since deadline holdingSince watch hnode hdoing =>
    dsimp only
    have hmatched : ∀ (reads : List Read) (note : String), Looks env view.states k r
        (((r.withStep k fun step => { step with reads }).noteStep k note).pass k .matched
          now).run := by
      intro reads note
      have hread : Stands 0 r (r.withStep k fun step => { step with reads }) :=
        stands_withStep k fun _ => ⟨rfl, id⟩
      exact looks_pass .matched (hread.trans (stands_note k note)) (by simp [Run.noteStep])
    split
    · exact hmatched _ _
    · next hold _ hhold =>
      split
      · exact hmatched _ _
      · exact looks_waiting here hnode _ _ fun hnone => by rw [hhold] at hnone; simp at hnone
    · next hout =>
      refine looks_waiting here hnode _ _ fun _ => ⟨view.place, now, hout, fun read hread => ?_⟩
      have hmem : read.entityId ∈ (evalWait env view.place level
          (r.snapshot view now)).reads.map Read.entityId := List.mem_map_of_mem hread
      -- A token that goes on waiting watches all that its level read.
      cases level with
      | state entity field is availability hold =>
        simpa [Std.ExtTreeSet.mem_ofList] using Or.inr hmem
      | expr expr hold => simpa [Std.ExtTreeSet.mem_ofList] using hmem
  · next hother =>
    refine ⟨rfl, rfl, fun _ _ h => h, fun _ _ _ ht _ => ht, fun t' ht' hwait => ?_⟩
    rw [here, Option.some.injEq] at ht'
    subst ht'
    intro level timeout i since deadline holdingSince watch hnode hhold _ _ hdoing
    exact absurd hdoing (hother level timeout since deadline holdingSince watch hnode)

lemma looks_stepWait (k : Nat) (timeout : CompactDuration) :
    Looks env view.states k r (r.stepWait env view k timeout now).run := by
  have h := looks_checkWait env view now
    (r.setDoing k (.wait now (plus now timeout.millis) none ∅)) k
  refine ⟨h.flow.trans (by simp), h.vars.trans (by simp), fun j name hj =>
    h.wrote j name (wroteAt_setDoing hj), fun i t hi ht hwait => ?_, h.own⟩
  have hbefore := h.others i t hi ht hwait
  rwa [setDoing_tokens, if_neg (Ne.symm hi)] at hbefore

/-! ### What runs keep -/

variable {pick : OrdSet EntityId → Bool} {states : Map EntityId EntityState}

lemma Stands.unmet (h : Stands r.record.steps.length r r') (hfit : Fit none r)
    (ht : r.tokens[k]? = some t) (hunmet : Unmet env states r t) : Unmet env states r' t := by
  intro level timeout i since deadline holdingSince watch hnode hhold hsteady hstep hdoing
  rw [h.flow] at hnode
  obtain ⟨vars, hsince, hout⟩ := hunmet level timeout i since deadline holdingSince watch hnode hhold
    hsteady hstep hdoing
  refine ⟨vars, fun name hne => ?_, hout⟩
  by_cases hsame : r'.vars[name]? = r.vars[name]?
  · obtain ⟨j, hj, hwrote⟩ := hsince name (hsame ▸ hne)
    exact ⟨j, hj, h.wrote j name hwrote⟩
  · -- Its step was opened before any that has been opened since.
    obtain ⟨j, hj, hwrote⟩ := h.vars name hsame
    obtain ⟨s, hs, -⟩ := hfit.own ht hstep
    exact ⟨j, lt_of_lt_of_le (List.getElem?_eq_some_iff.mp hs).1 hj, hwrote⟩

lemma picked_eq {since deadline : Timestamp} {holdingSince : Option Timestamp}
    {watch : OrdSet EntityId} (hdoing : t.doing = .wait since deadline holdingSince watch) :
    picked pick t = pick watch := by
  simp only [picked, hdoing]

lemma unmet_of_busy (hbusy : t.doing.isWait = false) : Unmet env states r t := by
  intro _ _ _ _ _ _ _ _ _ _ _ hdoing
  rw [hdoing] at hbusy
  simp [Doing.isWait] at hbusy

lemma Stands.attentive (h : Stands r.record.steps.length r r') (hfit : Fit none r)
    (hQ : Attentive env pick states r) : Attentive env pick states r' := by
  intro k t ht hpick
  cases hwait : t.doing.isWait with
  | false => exact unmet_of_busy hwait
  | true =>
    have hold := h.waits k t ht hwait
    exact h.unmet hfit hold (hQ k t hold hpick)

lemma Looks.unmet (h : Looks env states k r r') (hunmet : Unmet env states r t) :
    Unmet env states r' t := by
  intro level timeout j since deadline holdingSince watch hnode hhold hsteady hstep hdoing
  rw [h.flow] at hnode
  obtain ⟨vars, hsince, hout⟩ := hunmet level timeout j since deadline holdingSince watch hnode hhold
    hsteady hstep hdoing
  refine ⟨vars, fun name hne => ?_, hout⟩
  rw [h.vars] at hne
  obtain ⟨j', hj', hwrote⟩ := hsince name hne
  exact ⟨j', hj', h.wrote j' name hwrote⟩

lemma Looks.attentive (h : Looks env states k r r') (hQ : Attentive env pick states r) :
    Attentive env pick states r' := by
  intro i t ht hpick
  cases hwait : t.doing.isWait with
  | false => exact unmet_of_busy hwait
  | true =>
    by_cases hi : i = k
    · exact h.own t (hi ▸ ht) hwait
    · exact h.unmet (hQ i t (h.others i t hi ht hwait) hpick)

lemma attentive_stepNode {kind : Node} (h : Stands r.record.steps.length r r') (hfit : Fit none r)
    (hQ : Attentive env pick view.states r)
    (here : r'.tokens[k]? = some t) (hopen : t.step = some r.record.steps.length) {step : Step}
    (hstep : r'.record.steps[r.record.steps.length]? = some step) (hnode : step.node = t.node)
    (hkind : r'.flow.nodes[t.node]? = some kind) :
    Attentive env pick view.states (r'.stepNode env view k t.node kind now).run := by
  have hstands : ∀ m : Moved, Stands r.record.steps.length r' m.run →
      Attentive env pick view.states m.run := fun m hm => (h.trans hm).attentive hfit hQ
  unfold Run.stepNode
  cases kind with
  | trigger trigger => exact hstands _ (stands_pass k .out)
  | gate condition => exact hstands _ ((stands_noteReads k _ _).trans (stands_pass k _))
  | switch cases => exact hstands _ ((stands_noteReads k _ _).trans (stands_pass k _))
  | call service entity data => exact hstands _ (stands_stepCall k service entity data)
  | set name expr => exact hstands _ (stands_stepSet here hopen hstep hnode hkind le_rfl)
  | delay hold => exact hstands _ (stands_stepDelay k hold)
  | wait level timeout => exact (looks_stepWait k timeout).attentive (h.attentive hfit hQ)
  | join mode timeout => exact hstands _ (stands_arrive k t.node mode _)
  | stop reason => exact hstands _ (stands_stepStop k t.node reason)

lemma attentive_step (hfit : Fit none r) (hQ : Attentive env pick view.states r) :
    Attentive env pick view.states (r.step env view k now).run := by
  unfold Run.step
  split
  · exact hQ
  next t here =>
  split
  · exact hQ
  next hready =>
  have hready : t.doing.isReady = true := by simpa using hready
  split
  · exact (stands_endToken k).attentive hfit hQ
  next kind hkind =>
  split
  · exact (stands_exhaust t.node).attentive hfit hQ
  · have hopened : Stands r.record.steps.length r (r.openStep k now) := stands_openStep here hready
    have hhere : (r.openStep k now).tokens[k]? =
        some { t with step := some r.record.steps.length } := by
      rw [openStep_eq now here]
      dsimp only
      rw [Map.get_insert, if_pos rfl]
    have hstep : (r.openStep k now).record.steps[r.record.steps.length]? =
        some (stepOf r.record.steps.length k t now) := by
      rw [openStep_eq now here]
      exact List.getElem?_concat_length
    exact attentive_stepNode (t := { t with step := some r.record.steps.length }) hopened hfit hQ
      hhere rfl hstep rfl (hopened.flow ▸ hkind)

lemma attentive_tokenDue (hfit : Fit none r) (hQ : Attentive env pick view.states r) :
    Attentive env pick view.states (r.tokenDue env view k now).run := by
  unfold Run.tokenDue
  split
  · exact hQ
  split
  · split
    · exact (stands_pass k .out).attentive hfit hQ
    · exact hQ
  · split
    · exact ((stands_note k _).trans (stands_pass k .timeout)).attentive hfit hQ
    · exact (looks_checkWait env view now r k).attentive hQ
  · exact hQ

lemma attentive_joinDue {node : NodeId} (hfit : Fit none r) (hQ : Attentive env pick states r) :
    Attentive env pick states (r.joinDue node now).run := by
  unfold Run.joinDue
  split
  · exact hQ
  split
  · split
    · exact (stands_completeJoin _ _ _ _).attentive hfit hQ
    · exact hQ
  · exact hQ

theorem carried_attentive (env : Env) (pick : OrdSet EntityId → Bool) :
    Carried env (Attentive env pick) where
  new states id flow loaded firing now k t ht _ := by
    rcases leave_cases ht with ⟨w, -, rfl, -⟩ | ht
    · exact unmet_of_busy rfl
    · simp [Engine.newRun] at ht
  step _ _ _ _ hfit hQ := attentive_step hfit hQ
  checkWait view now r k _ hQ := (looks_checkWait env view now r k).attentive hQ
  tokenDue _ _ _ _ hfit hQ := attentive_tokenDue hfit hQ
  joinDue hfit hQ := attentive_joinDue hfit hQ
  giveUp hfit hQ := (stands_giveUpJoins _).attentive hfit hQ
  answer hfit _ _ hQ := (stands_answerCall _ _).attentive hfit hQ

end

/-! ### Waits looked at again -/

/-- No token waits for something that holds, apart from those in `l`. -/
def UnmetBut (env : Env) (e : Engine) (l : List (ContextId × Nat)) : Prop :=
  ∀ (id : ContextId) (run : Run), e.runs[id]? = some run → ∀ (k : Nat) (t : Token),
    run.tokens[k]? = some t → Unmet env e.states run t ∨ (id, k) ∈ l

/-- What the engine knows is the same, and the runs are as they should be if they were before. -/
structure RunsKept (Q : RunFact) (e e' : Engine) : Prop where
  states : e'.states = e.states
  runs : AllRuns Q e → AllRuns Q e'

section

variable {env : Env} {A : Arm → Prop} {Q : RunFact} {now : Timestamp} {e e' e'' : Engine}

/-- No token of any run waits for something that holds. -/
def AllUnmet (env : Env) (e : Engine) : Prop :=
  ∀ (id : ContextId) (run : Run), e.runs[id]? = some run → ∀ (k : Nat) (t : Token),
    run.tokens[k]? = some t → Unmet env e.states run t

lemma RunsKept.unmet (h : RunsKept (Attentive env fun _ => false) e e') (hunmet : AllUnmet env e) :
    AllUnmet env e' := by
  intro id run hrun k t ht
  by_cases hwait : picked (fun _ => false) t = false
  · exact h.runs (fun hrun k t ht _ => hunmet _ _ hrun k t ht) hrun k t ht hwait
  · unfold picked at hwait
    split at hwait <;> simp at hwait

lemma unmetBut_checkWait {l : List (ContextId × Nat)} {id : ContextId} {k : Nat}
    (h : UnmetBut env e ((id, k) :: l)) : UnmetBut env (e.checkWait env id k now) l := by
  unfold Engine.checkWait Engine.withRun
  split
  · next hgone =>
    intro id' run hrun k' t ht
    refine (h id' run hrun k' t ht).imp_right fun hin => ?_
    rcases List.mem_cons.mp hin with heq | hin
    · rw [Prod.mk.injEq] at heq
      rw [heq.1, hgone] at hrun
      simp at hrun
    · exact hin
  · next run hrun =>
    have hlooks := looks_checkWait env e.view now run k
    intro id' run' hrun' k' t ht
    rw [settle_states]
    rw [settle_runs, Map.get_insert] at hrun'
    split at hrun'
    · next hid =>
      rw [Option.some.injEq] at hrun'
      subst hid hrun'
      cases hwait : t.doing.isWait with
      | false => exact .inl (unmet_of_busy hwait)
      | true =>
        by_cases hk : k' = k
        · exact .inl (hlooks.own t (hk ▸ ht) hwait)
        · rcases h id run hrun k' t (hlooks.others k' t hk ht hwait) with hunmet | hin
          · exact .inl (hlooks.unmet hunmet)
          · rcases List.mem_cons.mp hin with heq | hin
            · exact absurd (Prod.mk.inj heq).2 hk
            · exact .inr hin
    · next hid =>
      refine (h id' run' hrun' k' t ht).imp_right fun hin => ?_
      rcases List.mem_cons.mp hin with heq | hin
      · exact absurd (Prod.mk.inj heq).1.symm hid
      · exact hin

variable (now) in
lemma unmetBut_checkWaits (l : List (ContextId × Nat)) :
    ∀ e : Engine, UnmetBut env e l → AllUnmet env (e.checkWaits env l now) := by
  induction l with
  | nil =>
    intro e h id run hrun k t ht
    rcases h id run hrun k t ht with hunmet | hin
    · exact hunmet
    · simp at hin
  | cons x l ih => exact fun e h => ih _ (unmetBut_checkWait h)

lemma unmetBut_waiting {pick : OrdSet EntityId → Bool} (h : AllRuns (Attentive env pick) e) :
    UnmetBut env e (e.waiting pick) := by
  intro id run hrun k t ht
  by_cases hpick : picked pick t = false
  · exact .inl (h hrun k t ht hpick)
  · right
    unfold Engine.waiting
    refine List.mem_flatMap.mpr ⟨(id, run), Std.ExtTreeMap.mem_toList_iff_getElem?_eq_some.mpr hrun,
      List.mem_map.mpr ⟨(k, t), List.mem_filter.mpr
        ⟨Std.ExtTreeMap.mem_toList_iff_getElem?_eq_some.mpr ht, ?_⟩, rfl⟩⟩
    rw [Bool.not_eq_false] at hpick
    exact hpick

/-! ### A change of state -/

lemma RunsKept.trans (h : RunsKept Q e e') (h' : RunsKept Q e' e'') : RunsKept Q e e'' :=
  ⟨h'.states.trans h.states, fun hall => h'.runs (h.runs hall)⟩

lemma Calm.runsKept (h : Calm Q e e') : RunsKept Q e e' := ⟨h.states, h.runs⟩

lemma runsKept_of_eq (hstates : e'.states = e.states) (hruns : e'.runs = e.runs) :
    RunsKept Q e e' where
  states := hstates
  runs hall _ _ hrun := by
    rw [hstates]
    exact hall (hruns ▸ hrun)

variable (env now) in
lemma runsKept_stateTriggers (hQ : ∀ (e : Engine) (flow : RuleId) (node : NodeId) (trigger : Trigger)
      (old : Option EntityState) (new : EntityState),
      RunsKept Q e (e.stateTrigger env flow node trigger old new now))
    (old : Option EntityState) (new : EntityState) (l : List (RuleId × NodeId × Trigger)) :
    ∀ e : Engine, RunsKept Q e (l.foldl (fun e (flow, node, trigger) =>
      e.stateTrigger env flow node trigger old new now) e) := by
  induction l with
  | nil => exact fun e => runsKept_of_eq rfl rfl
  | cons x l ih => exact fun e => (hQ e x.1 x.2.1 x.2.2 old new).trans (ih _)

lemma runsKept_triggerMatched (hQ : Carried env Q) (e : Engine) (flow : RuleId) (node : NodeId)
    (hold : Option CompactDuration) (new : EntityState) (note : String) (read : Read) :
    RunsKept Q e (e.triggerMatched env flow node hold new note read now) := by
  unfold Engine.triggerMatched
  split
  · dsimp only
    split
    · exact runsKept_of_eq rfl rfl
    · exact runsKept_of_eq rfl rfl
  · exact ((endures_calm hQ).fireNow _ _ _ _).runsKept

lemma runsKept_stateTrigger (hQ : Carried env Q) (e : Engine) (flow : RuleId) (node : NodeId)
    (trigger : Trigger) (old : Option EntityState) (new : EntityState) :
    RunsKept Q e (e.stateTrigger env flow node trigger old new now) := by
  have hmiss : ∀ (e : Engine) (kind : NearMissKind) (message : String) (reads : List Read),
      RunsKept Q e (e.nearMiss flow node kind message reads now) :=
    fun _ _ _ _ => runsKept_of_eq rfl rfl
  have hcancel : RunsKept Q e (e.cancelHold flow node).2 := (calm_cancelHold e flow node).runsKept
  have hrefl : RunsKept Q e e := runsKept_of_eq rfl rfl
  unfold Engine.stateTrigger
  split
  · dsimp only
    split
    · split
      · exact hcancel.trans (hmiss _ _ _ _)
      · exact hcancel
    split
    · exact hcancel
    split
    · exact hrefl
    split
    · split
      · exact hmiss _ _ _ _
      · exact hrefl
    split
    · exact runsKept_triggerMatched hQ _ _ _ _ _ _ _
    · exact hrefl
    · split
      · exact hcancel.trans (hmiss _ _ _ _)
      · exact hcancel
  · exact hrefl

lemma Unmatched.insert {states : Map EntityId EntityState} {vars : Map String Json}
    {level : WaitUntil} {watch : OrdSet EntityId} (hsteady : Steady env level)
    (h : Unmatched env states vars level watch) {entity : EntityId} (hout : entity ∉ watch)
    (new : EntityState) : Unmatched env (states.insert entity new) vars level watch := by
  obtain ⟨place, now, hfalse, hreads⟩ := h
  have hsame := hsteady place place ⟨states, vars, now⟩ ⟨states.insert entity new, vars, now⟩ rfl
    fun read hread => by
      have hne : entity ≠ read.entityId := fun heq => hout (heq ▸ hreads read hread)
      rw [Map.get_insert, if_neg hne]
  exact ⟨place, now, by rw [hsame]; exact hfalse, by rw [hsame]; exact hreads⟩

lemma attentive_told (h : AllUnmet env e) {new : EntityState}
    (hstates : e'.states = e.states.insert new.entityId new) (hruns : e'.runs = e.runs) :
    AllRuns (Attentive env fun watch => watch.contains new.entityId) e' := by
  intro id run hrun k t ht hpick level timeout i since deadline holdingSince watch hnode hhold hsteady
    hstep hdoing
  rw [hruns] at hrun
  rw [hstates]
  obtain ⟨vars, hsince, hout⟩ := h id run hrun k t ht level timeout i since deadline holdingSince
    watch hnode hhold hsteady hstep hdoing
  refine ⟨vars, hsince, hout.insert hsteady (fun hin => ?_) new⟩
  rw [picked_eq hdoing, Std.ExtTreeSet.contains_iff_mem.mpr hin] at hpick
  simp at hpick

theorem stateChanged_unmet {fuel : Nat} (hsound : Sound env A e) (h : AllUnmet env e)
    {old : Option EntityState} {new : EntityState}
    (hop : e.stateChanged env old new now fuel = some e') : AllUnmet env e' := by
  unfold Engine.stateChanged at hop
  dsimp only at hop
  generalize htold : ({ e.noteOvertaken now with
    states := e.states.insert new.entityId new } : Engine) = told at hop
  have hquiet : Quiet e told := by
    rw [← htold]
    exact (quiet_noteOvertaken e now).trans (Quiet.plain rfl rfl rfl rfl rfl rfl)
  have hpicked := carried_attentive env fun watch => watch.contains new.entityId
  have htriggered : RunsKept (Attentive env fun watch => watch.contains new.entityId) told
      ((told.triggersWhere (Engine.watches new.entityId)).foldl (fun e (flow, node, trigger) =>
        e.stateTrigger env flow node trigger old new now) told) :=
    runsKept_stateTriggers env now (runsKept_stateTrigger hpicked) old new _ told
  have hturns : TurnsAt env A True now e
      ((told.triggersWhere (Engine.watches new.entityId)).foldl (fun e (flow, node, trigger) =>
        e.stateTrigger env flow node trigger old new now) told) :=
    (turnsAt_quiet hquiet).trans (turnsAt_triggers
      (fun x _ harmed => turnsAt_stateTrigger harmed x.2.1 x.2.2 old new) _ told
      fun _ hx => armed_of_mem hx)
  have hwatched : AllRuns (Attentive env fun watch => watch.contains new.entityId) told :=
    attentive_told h (by rw [← htold]) (by rw [← htold]; exact (quiet_noteOvertaken e now).runs)
  have hlooked := unmetBut_checkWaits now _ _ (unmetBut_waiting (htriggered.runs hwatched))
  exact (calm_drive (carried_attentive env _) fuel _
    (sound_turnsAt (hturns.trans (turnsAt_checkWaits (H := True) (sound_turnsAt hturns hsound) _))
      hsound) _ hop).runsKept.unmet hlooked

/-! ### The home as it is now -/

theorem resync_unmet {fuel : Nat} (hsound : Sound env A e) {states : List EntityState}
    (hop : e.resync env states now fuel = some e') : AllUnmet env e' := by
  unfold Engine.resync at hop
  dsimp only at hop
  have hall : AllRuns (Attentive env fun _ => true) ((e.noteOvertaken now).loadStates states) := by
    intro id run _ k t _ hpick
    refine unmet_of_busy ?_
    unfold picked at hpick
    split at hpick
    · simp at hpick
    · next hnot =>
      cases hdoing : t.doing with
      | wait since deadline holdingSince watch => exact absurd hdoing (hnot _ _ _ _)
      | _ => rfl
  have hlooked := unmetBut_checkWaits now _ _ (unmetBut_waiting hall)
  have hturns : TurnsAt env A True now e ((e.noteOvertaken now).loadStates states) :=
    turnsAt_quiet ((quiet_noteOvertaken e now).trans (Quiet.plain rfl rfl rfl rfl rfl rfl))
  have hwaits := hturns.trans (turnsAt_checkWaits (sound_turnsAt hturns hsound)
    (((e.noteOvertaken now).loadStates states).waiting fun _ => true))
  exact (calm_drive (carried_attentive env _) fuel _ (sound_turnsAt hwaits hsound) _
    hop).runsKept.unmet hlooked

/-! ### A new set of flows -/

lemma runsKept_replaceFlows (hQ : Carried env Q) (e : Engine) (arms : List Arm) (now : Timestamp) :
    RunsKept Q e (e.replaceFlows env arms now) := by
  have harm : ∀ (next : Map RuleId Loaded) (e : Engine) (a : Arm),
      RunsKept Q e (Engine.arm env now next e a).2 := by
    intro next e a
    unfold Engine.arm
    dsimp only
    have herased : RunsKept Q e { e with flows := e.flows.erase a.flow.id } :=
      runsKept_of_eq rfl rfl
    split
    · exact herased
    · exact (herased.trans (calm_abortFlow hQ _ _ _ _).runsKept).trans (runsKept_of_eq rfl rfl)
  have harms : ∀ (arms : List Arm) (next : Map RuleId Loaded) (e : Engine), RunsKept Q e
      (arms.foldl (fun gathered a => Engine.arm env now gathered.1 gathered.2 a) (next, e)).2 := by
    intro arms
    induction arms with
    | nil => exact fun _ _ => runsKept_of_eq rfl rfl
    | cons a arms ih => exact fun next e => (harm next e a).trans (ih _ _)
  unfold Engine.replaceFlows
  dsimp only
  have hremoved : ∀ e : Engine, RunsKept Q e
      (e.flows.keys.foldl (fun e id => e.abortFlow env id .removed now) e) :=
    fun e => (calm_foldl (fun e id => calm_abortFlow hQ e id .removed now) _ e).runsKept
  have hlisted : ∀ gathered : Map RuleId Loaded × Engine, RunsKept Q e gathered.2 →
      RunsKept Q e { gathered.2.flows.keys.foldl
        (fun e id => e.abortFlow env id .removed now) gathered.2 with flows := gathered.1 } :=
    fun gathered hgathered => (hgathered.trans (hremoved _)).trans (runsKept_of_eq rfl rfl)
  exact (hlisted _ (harms arms ∅ e)).trans (calm_windClocks _).runsKept

/-! ### Every run -/

/-- What the engine knows of the home isn't replaced while a token waits, other than by reading it
again. -/
def NoneWaits (op : Op) (e : Engine) : Prop :=
  match op with
  | .loadStates _ => ∀ (id : ContextId) (run : Run), e.runs[id]? = some run →
      ∀ (k : Nat) (t : Token), run.tokens[k]? = some t → t.doing.isWait = false
  | _ => True

theorem perform_unmet {op : Op} {fuel : Nat} (hsound : Sound env A e) (h : AllUnmet env e)
    (hnone : NoneWaits op e) (hop : op.perform env e fuel = some e') : AllUnmet env e' := by
  have hQ := carried_attentive env fun _ => false
  cases op with
  | setFlows arms now =>
    obtain ⟨advanced, hadvance, rfl⟩ := Option.map_eq_some_iff.mp hop
    exact (runsKept_replaceFlows hQ advanced arms now).unmet
      ((calm_advance hQ fuel e hsound _ hadvance).runsKept.unmet h)
  | setPlace place now =>
    have hset : e.setPlace env place now fuel = some e' := hop
    unfold Engine.setPlace at hset
    split at hset
    · rw [Option.some.injEq] at hset
      exact hset ▸ h
    · obtain ⟨advanced, hadvance, rfl⟩ := Option.map_eq_some_iff.mp hset
      have hplaced : RunsKept (Attentive env fun _ => false) advanced { advanced with place } :=
        runsKept_of_eq rfl rfl
      exact (hplaced.trans (calm_windClocks _).runsKept).unmet
        ((calm_advance hQ fuel e hsound _ hadvance).runsKept.unmet h)
  | loadStates states =>
    rw [Op.perform, Option.some.injEq] at hop
    rw [← hop]
    exact fun id run hrun k t ht => unmet_of_busy (hnone id run hrun k t ht)
  | start now => exact (calm_start hQ hsound hop).runsKept.unmet h
  | fire flow trigger test by_ now =>
    obtain ⟨⟨answer, fired⟩, hfire, rfl⟩ := Option.map_eq_some_iff.mp hop
    exact (calm_fireBy hQ hsound hfire).runsKept.unmet h
  | stateChanged old new now => exact stateChanged_unmet hsound h hop
  | resync states now => exact resync_unmet hsound hop
  | callFinished callId result now => exact (calm_callFinished hQ hsound hop).runsKept.unmet h
  | cancel run now =>
    obtain ⟨⟨found, cancelled⟩, hcancel, rfl⟩ := Option.map_eq_some_iff.mp hop
    exact (calm_cancel hQ hsound hcancel).runsKept.unmet h
  | advance now => exact (calm_advance hQ fuel e hsound _ hop).runsKept.unmet h
  | takeEffects =>
    rw [Op.perform, Option.some.injEq] at hop
    exact hop ▸ (runsKept_of_eq rfl rfl : RunsKept _ e e.takeEffects.2).unmet h
  | shutdown now =>
    rw [Op.perform, Option.some.injEq] at hop
    exact hop ▸ (calm_shutdown hQ e).runsKept.unmet h

theorem reaches_unmet {ops : List Op} (h : ReachesWith env NoneWaits ops e) : AllUnmet env e := by
  refine reachesWith_keeps (A := ArmedBy ops) (P := fun e => AllUnmet env e)
    (fun dry id run hrun => ?_)
    (fun op fuel e e' hsound hunmet _ hnone hop => perform_unmet hsound hunmet hnone hop) h
    fun _ harm => harm
  simp [Engine.new] at hrun

end

/-! ### A limit that is set again -/

def limited : WaitUntil := .expr ⟨"num(\"sensor.lux\") > var(\"limit\")"⟩ none

def limitedExpr : Expr :=
  .call "_>_" [.call "num" [.literal (.string "sensor.lux")],
    .call varFn [.literal (.string "limit")]]

def dimEnv : Env :=
  plainEnv [("100.0", .literal (.double 100)), ("1.0", .literal (.double 1)),
    ("num(\"sensor.lux\") > irori_var(\"limit\")", limitedExpr)]

def limit : ObjectId := ⟨"limit", by decide +kernel⟩

def setsHigh : NodeId := ⟨"high", by decide +kernel⟩

def setsLow : NodeId := ⟨"low", by decide +kernel⟩

def waitsForLight : NodeId := ⟨"light", by decide +kernel⟩

/-- A flow that sets a high limit, waits for as much light and meanwhile, if `lowers`, sets a low
one. -/
def dimming (lowers : Bool) : Flow :=
  Sample.flow (.named .single)
    [(Sample.started, .trigger .startup), (setsHigh, .set limit ⟨"100"⟩),
      (setsLow, .set limit ⟨"1"⟩),
      (waitsForLight, .wait limited ⟨"1h", by decide +kernel⟩)]
    ([Sample.wire Sample.started .out setsHigh, Sample.wire setsHigh .out waitsForLight] ++
      if lowers then [Sample.wire setsHigh .out setsLow] else [])

def dims (lowers : Bool) : List Op :=
  [.stateChanged none (Sample.reported Sample.lux (.number 8) .available) 0,
    .setFlows [⟨dimming lowers, []⟩] 0, .start 0]

lemma interpret_limited (functions : Functions) :
    Sample.interpret functions limitedExpr [] =
      match functions "num" [.string "sensor.lux"] [] with
      | (.error e, reads) => (.error e, reads)
      | (.ok value, reads) =>
        match functions varFn [.string "limit"] reads with
        | (.error e, reads) => (.error e, reads)
        | (.ok limit, reads) =>
          match Sample.operator "_>_" [value, limit] with
          | some result => (result, reads)
          | none => functions "_>_" [value, limit] reads := by
  have hnum : Sample.operator "num" [.string "sensor.lux"] = none := rfl
  have hvar : Sample.operator "irori_var" [.string "limit"] = none := rfl
  simp only [limitedExpr, Sample.interpret, Sample.interpretArgs, Sample.literalValue, hnum, hvar, varFn]
  rcases functions "num" [.string "sensor.lux"] [] with ⟨_ | value, reads⟩
  · rfl
  · dsimp only
    rcases functions "irori_var" [.string "limit"] reads with ⟨_ | limit, reads⟩ <;> rfl


lemma bind_num (clock : Clock) (place : Option Place) (s : Snapshot) :
    Irori.bind clock place s "num" [.string "sensor.lux"] [] =
      ((live "num" s.states "sensor.lux" []).1.bind (readNum · "sensor.lux"),
        [Read.of Sample.lux s.states]) := by
  have hparse : EntityId.parse "sensor.lux" = .ok Sample.lux := by decide +kernel
  change valuedFn "num" .number readNum s.states [.string "sensor.lux"] [] = _
  simp only [valuedFn, live, look, hparse]
  rfl

/-- The limit, once it has been set. -/
def limitOf (vars : Map String Json) : Except String Value :=
  match vars["limit"]? with
  | some value => .ok (fromJson value)
  | none => .error ("var(" ++ debug "limit" ++ ") hasn't been set on this path")

lemma execute_limited (place : Option Place) (s : Snapshot) :
    Sample.interpret (Irori.bind Sample.clock place s) limitedExpr [] =
      (((live "num" s.states "sensor.lux" []).1.bind (readNum · "sensor.lux")).bind fun value =>
        (limitOf s.vars).bind fun limit => (Sample.operator "_>_" [value, limit]).getD
          (.error "Undeclared reference to '_>_'"), [Read.of Sample.lux s.states]) := by
  have hvar : ∀ reads : List Read, Irori.bind Sample.clock place s varFn [.string "limit"] reads =
      (limitOf s.vars, reads) := fun _ => rfl
  have hother : ∀ (args : List Value) (reads : List Read),
      Irori.bind Sample.clock place s "_>_" args reads =
        (.error "Undeclared reference to '_>_'", reads) := fun _ _ => rfl
  rw [interpret_limited, bind_num]
  rcases (live "num" s.states "sensor.lux" []).1.bind (readNum · "sensor.lux") with _ | value
  · rfl
  dsimp only
  rw [hvar]
  rcases limitOf s.vars with _ | limit
  · rfl
  dsimp only
  rw [hother]
  simp only [Except.bind]
  rcases Sample.operator "_>_" [value, limit] with _ | result <;> rfl

lemma steady_limited : Steady dimEnv limited := by
  intro place place' s s' hvars hreads
  have hcompile : dimEnv.cel.compile ⟨"num(\"sensor.lux\") > var(\"limit\")"⟩ = .ok limitedExpr := rfl
  have hexecute : ∀ (place : Option Place) (s : Snapshot),
      dimEnv.cel.execute limitedExpr (Irori.bind dimEnv.clock place s) [] =
        Sample.interpret (Irori.bind Sample.clock place s) limitedExpr [] := fun _ _ => rfl
  have hlux : s'.states[Sample.lux]? = s.states[Sample.lux]? := by
    refine hreads (Read.of Sample.lux s.states) ?_
    simp only [limited, evalWait, evalBoolean, evalValue, hcompile, hexecute, execute_limited]
    exact List.mem_cons_self
  have hparse : EntityId.parse "sensor.lux" = .ok Sample.lux := by decide +kernel
  simp only [limited, evalWait, evalBoolean, evalValue, hcompile, hexecute, execute_limited, live,
    look, hparse, hlux, hvars, Read.of, Read.ofField]

/-- Whether a token of a run waits for the light, and the level comes to `holds` by what the engine
knows and the run's variables; its step is the last one, if `last`. -/
def waitsStill (holds last : Bool) (e : Engine) : Bool :=
  e.runs.toList.any fun (_, run) => run.tokens.toList.any fun (_, t) =>
    t.doing.isWait && (t.node == waitsForLight) && (run.flow.nodes[t.node]?.any fun node =>
      match node with
      | .wait (.expr source none) _ => source.text == "num(\"sensor.lux\") > var(\"limit\")"
      | _ => false) && ((evalWait dimEnv none limited ⟨e.states, run.vars, 0⟩).holds == holds) &&
      (!last || t.step == some (run.record.steps.length - 1))

lemma waitsStill_iff {holds last : Bool} {e : Engine} (h : waitsStill holds last e = true) :
    ∃ (id : ContextId) (run : Run) (k : Nat) (t : Token) (timeout : CompactDuration),
      e.runs[id]? = some run ∧ run.tokens[k]? = some t ∧ t.doing.isWait = true ∧
      run.flow.nodes[t.node]? = some (.wait limited timeout) ∧
      (evalWait dimEnv none limited ⟨e.states, run.vars, 0⟩).holds = holds ∧
      (last = true → t.step = some (run.record.steps.length - 1)) := by
  obtain ⟨⟨id, run⟩, hrun, h⟩ := List.any_eq_true.mp h
  obtain ⟨⟨k, t⟩, ht, h⟩ := List.any_eq_true.mp h
  simp only [Bool.and_eq_true, beq_iff_eq] at h
  obtain ⟨⟨⟨⟨hwait, -⟩, hnode⟩, hholds⟩, hlast⟩ := h
  obtain ⟨node, hnode, hlevel⟩ := (Option.any_eq_true _ _).mp hnode
  split at hlevel
  · next source timeout =>
    refine ⟨id, run, k, t, timeout, Std.ExtTreeMap.mem_toList_iff_getElem?_eq_some.mp hrun,
      Std.ExtTreeMap.mem_toList_iff_getElem?_eq_some.mp ht, hwait, ?_, hholds, fun hl => ?_⟩
    · rw [hnode, limited, ← beq_iff_eq.mp hlevel]
    · simpa [hl] using hlast
  · simp at hlevel

lemma reaches_dims : ∃ e : Engine, ReachesWith dimEnv NoneWaits ([] ++ dims true) e ∧
    waitsStill true false e = true := by
  have hruns : ((Op.performAll dimEnv 20 (dims true) (Engine.new false)).any
      (waitsStill true false)) = true := by decide +kernel
  obtain ⟨e, he, hwaits⟩ := (Option.any_eq_true _ _).mp hruns
  refine ⟨e, reachesWith_performAll (dims true) (fun op hop e => ?_) (.new false) he, hwaits⟩
  simp only [dims, List.mem_cons, List.not_mem_nil, or_false] at hop
  rcases hop with rfl | rfl | rfl <;> trivial

end Irori.Proofs
