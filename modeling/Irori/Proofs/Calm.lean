import Irori.Proofs.Ops

/-!
# What the engine does by itself

Between being told how the home is, the engine runs tokens, ends runs, hands over firings and acts
on timers. None of that changes what it knows of the home or makes a hold count that didn't, and a
property of runs that whatever it has a run do keeps holds of all its runs still.
-/

namespace Irori.Proofs

open Irori

abbrev RunFact := Map EntityId EntityState → Run → Prop

def AllRuns (Q : RunFact) (e : Engine) : Prop :=
  ∀ {id : ContextId} {run : Run}, e.runs[id]? = some run → Q e.states run

/-- A property of runs that whatever the engine has a run do keeps. -/
structure Carried (env : Env) (Q : RunFact) : Prop where
  new : ∀ (states : Map EntityId EntityState) (id : ContextId) (flow : RuleId) (loaded : Loaded)
    (firing : Firing) (now : Timestamp), Q states (launched id flow loaded firing now).run
  step : ∀ (view : View) {now : Timestamp} {r : Run} {k : Nat}, Fit none r →
    Q view.states r → Q view.states (r.step env view k now).run
  checkWait : ∀ (view : View) {now : Timestamp} {r : Run} {k : Nat}, Fit none r →
    Q view.states r → Q view.states (r.checkWait env view k now).run
  tokenDue : ∀ (view : View) {now : Timestamp} {r : Run} {k : Nat}, Fit none r →
    Q view.states r → Q view.states (r.tokenDue env view k now).run
  joinDue : ∀ {states : Map EntityId EntityState} {now : Timestamp} {r : Run} {node : NodeId},
    Fit none r → Q states r → Q states (r.joinDue node now).run
  giveUp : ∀ {states : Map EntityId EntityState} {now : Timestamp} {r : Run}, Fit none r →
    Q states r → Q states (r.giveUpJoins now).run
  answer : ∀ {states : Map EntityId EntityState} {now : Timestamp} {r : Run} {k callId : Nat}
    {t : Token} {result : Except String Unit}, Fit none r → r.tokens[k]? = some t →
    t.doing = .call callId → Q states r → Q states (r.answerCall k result now).run

/-- What the engine knows is the same, no hold counts that didn't, and the runs are as they
should be if they were before. -/
structure Calm (Q : RunFact) (e e' : Engine) : Prop where
  states : e'.states = e.states
  holds : ∀ {id : RuleId} {loaded' : Loaded}, e'.flows[id]? = some loaded' → ∃ loaded : Loaded,
    e.flows[id]? = some loaded ∧ loaded'.flow = loaded.flow ∧
      ∀ (node : NodeId) (until_ : Timestamp), loaded'.holds[node]? = some until_ →
        loaded.holds[node]? = some until_
  runs : AllRuns Q e → AllRuns Q e'

section

variable {env : Env} {A : Arm → Prop} {Q : RunFact} {now : Timestamp} {e e' e'' : Engine}
  {flow : RuleId} {loaded : Loaded}

lemma Calm.trans (h : Calm Q e e') (h' : Calm Q e' e'') : Calm Q e e'' where
  states := h'.states.trans h.states
  holds hloaded := by
    obtain ⟨between, hbetween, hflow, hholds⟩ := h'.holds hloaded
    obtain ⟨loaded, hloaded, hflow', hholds'⟩ := h.holds hbetween
    exact ⟨loaded, hloaded, hflow.trans hflow', fun node until_ hnode =>
      hholds' node until_ (hholds node until_ hnode)⟩
  runs hall := h'.runs (h.runs hall)

lemma calm_of_eq (hstates : e'.states = e.states)
    (hflows : e'.flows = e.flows) (hruns : e'.runs = e.runs) : Calm Q e e' where
  states := hstates
  holds hloaded := ⟨_, hflows ▸ hloaded, rfl, fun _ _ hnode => hnode⟩
  runs hall _ _ hrun := by
    rw [hstates]
    exact hall (hruns ▸ hrun)

lemma Calm.refl (e : Engine) : Calm Q e e := calm_of_eq rfl rfl rfl

lemma calm_setLoaded (hflow : e.flows[flow]? = some loaded) {loaded' : Loaded}
    (hsame : loaded'.flow = loaded.flow) (hholds : ∀ (node : NodeId) (until_ : Timestamp),
      loaded'.holds[node]? = some until_ → loaded.holds[node]? = some until_) :
    Calm Q e (e.setLoaded flow loaded') where
  states := rfl
  holds {id new} hnew := by
    rw [Engine.setLoaded, Map.get_insert] at hnew
    split at hnew
    · next hid =>
      rw [Option.some.injEq] at hnew
      exact ⟨loaded, hid ▸ hflow, hnew ▸ hsame, hnew ▸ hholds⟩
    · exact ⟨new, hnew, rfl, fun _ _ hnode => hnode⟩
  runs hall _ _ hrun := hall hrun

lemma calm_queue (hflow : e.flows[flow]? = some loaded) (queue : List Firing) :
    Calm Q e (e.setLoaded flow { loaded with queue }) :=
  calm_setLoaded hflow rfl fun _ _ hnode => hnode

lemma calm_cancelHold (e : Engine) (flow : RuleId) (node : NodeId) :
    Calm Q e (e.cancelHold flow node).2 := by
  unfold Engine.cancelHold
  split
  · exact Calm.refl e
  · next loaded hflow =>
    refine calm_setLoaded hflow rfl fun other until_ hother => ?_
    rw [Map.get_erase] at hother
    split at hother
    · simp at hother
    · exact hother

lemma calm_noteOvertaken (e : Engine) (now : Timestamp) : Calm Q e (e.noteOvertaken now) := by
  unfold Engine.noteOvertaken
  split
  · exact calm_of_eq rfl rfl rfl
  · exact Calm.refl e

lemma settle_states (e : Engine) (id : ContextId) (m : Moved) :
    (e.settle id m).states = e.states := by
  obtain ⟨_, _, h⟩ := settle_eq e id m
  rw [h]

lemma calm_settle (ready : List (ContextId × Nat)) {id : ContextId} {m : Moved}
    (hm : AllRuns Q e → Q e.states m.run) : Calm Q e ({ e with ready }.settle id m) where
  states := settle_states _ id m
  holds hloaded := by
    rw [settle_flows] at hloaded
    exact ⟨_, hloaded, rfl, fun _ _ hnode => hnode⟩
  runs hall other run hrun := by
    rw [settle_states]
    rw [settle_runs, Map.get_insert] at hrun
    split at hrun
    · rw [Option.some.injEq] at hrun
      exact hrun ▸ hm hall
    · exact hall hrun

lemma calm_withRun {id : ContextId} {f : Run → Moved} (hf : ∀ run : Run,
      e.runs[id]? = some run → Q e.states run → Q e.states (f run).run) :
    Calm Q e (e.withRun id f) := by
  unfold Engine.withRun
  split
  · exact Calm.refl e
  · next run hrun => exact calm_settle e.ready fun hall => hf run hrun (hall hrun)

lemma calm_startRun (hQ : Carried env Q) (e : Engine) (flow : RuleId) (firing : Firing)
    (now : Timestamp) : Calm Q e (e.startRun env flow firing now).2 := by
  cases hflow : e.flows[flow]? with
  | none =>
    rw [startRun_of_none env hflow]
    exact calm_of_eq rfl rfl rfl
  | some loaded =>
    rw [startRun_eq env hflow]
    refine ⟨settle_states _ _ _, fun {other loaded'} hloaded => ?_,
      fun hall other run hrun => ?_⟩
    · rw [settle_flows] at hloaded
      exact ⟨loaded', hloaded, rfl, fun _ _ hnode => hnode⟩
    · rw [settle_states]
      rw [settle_runs, begun, Map.get_insert, Map.get_insert] at hrun
      split at hrun
      · rw [Option.some.injEq] at hrun
        exact hrun ▸ hQ.new _ _ _ _ _ _
      · exact hall hrun

lemma calm_afterRun (e : Engine) (id : ContextId) (run : Run) (outcome : Option RunOutcome)
    (now : Timestamp) : Calm Q e (afterRun e id run outcome now) where
  states := rfl
  holds hloaded := ⟨_, hloaded, rfl, fun _ _ hnode => hnode⟩
  runs hall other run' hrun := by
    rw [afterRun, Map.get_erase] at hrun
    split at hrun
    · simp at hrun
    · exact hall hrun

lemma endures_calm (hQ : Carried env Q) : Endures env (Calm Q) where
  refl := Calm.refl
  trans h h' := h.trans h'
  startRun := calm_startRun hQ
  afterRun := calm_afterRun
  queue hflow := calm_queue hflow
  drop _ _ _ _ _ := calm_of_eq rfl rfl rfl
  handed _ _ := calm_of_eq rfl rfl rfl

lemma calm_foldl {α : Type} {f : Engine → α → Engine} (hf : ∀ (e : Engine) (x : α), Calm Q e (f e x))
    (l : List α) : ∀ e : Engine, Calm Q e (l.foldl f e) := by
  induction l with
  | nil => exact Calm.refl
  | cons x l ih => exact fun e => (hf e x).trans (ih _)

lemma calm_abortFlow (hQ : Carried env Q) (e : Engine) (flow : RuleId) (reason : AbortReason)
    (now : Timestamp) : Calm Q e (e.abortFlow env flow reason now) := by
  unfold Engine.abortFlow
  dsimp only
  have hfinished := (endures_calm hQ).finishAll e (e.runsOf flow) (.aborted reason) now
  split
  · exact hfinished
  · next loaded hflow =>
    have hemptied : Calm Q (e.finishAll env (e.runsOf flow) (.aborted reason) now)
        ((e.finishAll env (e.runsOf flow) (.aborted reason) now).setLoaded flow
          { loaded with queue := [], holds := ∅ }) :=
      calm_setLoaded hflow rfl fun _ _ hnode => by simp at hnode
    exact (hfinished.trans hemptied).trans (calm_of_eq rfl rfl rfl)

lemma calm_settleIdle (hQ : Carried env Q) (h : Sound env A e) (id : ContextId) :
    Calm Q e (e.settleIdle env id now) := by
  unfold Engine.settleIdle
  split
  · exact Calm.refl e
  split
  · have hgive : Calm Q e (e.withRun id (Run.giveUpJoins · now)) :=
      calm_withRun fun run hrun => hQ.giveUp (h.fit hrun)
    dsimp only
    split
    · exact hgive.trans ((endures_calm hQ).finish _ _ _ _)
    · exact hgive
  · exact (endures_calm hQ).finish _ _ _ _

lemma calm_turns {α : Type} {f : Engine → α → Engine} {l : List α}
    (hf : ∀ x ∈ l, ∀ e : Engine, Sound env A e →
      TurnsAt env A True now e (f e x) ∧ Calm Q e (f e x)) :
    ∀ e : Engine, Sound env A e → Calm Q e (l.foldl f e) := by
  induction l with
  | nil => exact fun e _ => Calm.refl e
  | cons x l ih =>
    intro e h
    obtain ⟨hturns, hcalm⟩ := hf x List.mem_cons_self e h
    exact hcalm.trans (ih (fun y hy => hf y (List.mem_cons_of_mem _ hy)) _ (sound_turnsAt hturns h))

lemma calm_sweep (hQ : Carried env Q) (h : Sound env A e) : Calm Q e (e.sweep env now) :=
  calm_turns (fun id _ _ he => ⟨turnsAt_settleIdle he id, calm_settleIdle hQ he id⟩) e h

lemma calm_step (hQ : Carried env Q) (h : Sound env A e) (ready : List (ContextId × Nat))
    (id : ContextId) (k : Nat) : Calm Q e ({ e with ready }.step env id k now) := by
  have hready : Calm Q e { e with ready } := calm_of_eq rfl rfl rfl
  exact hready.trans (calm_withRun fun run hrun => hQ.step { e with ready }.view (h.fit hrun))

theorem calm_drive (hQ : Carried env Q) (fuel : Nat) : ∀ e : Engine, Sound env A e →
    ∀ e' : Engine, e.drive env now fuel = some e' → Calm Q e e' := by
  induction fuel with
  | zero => exact fun _ _ _ hdrive => by simp [Engine.drive] at hdrive
  | succ fuel ih =>
    intro e h e' hdrive
    unfold Engine.drive at hdrive
    split at hdrive
    · next id k rest first =>
      have hstep : TurnsAt env A True now e ({ e with ready := rest }.step env id k now) :=
        turnsAt_step h first
      exact (calm_step hQ h rest id k).trans (ih _ (sound_turnsAt hstep h) _ hdrive)
    · have hunbare : TurnsAt env A True now e { e with ledger := { e.ledger with bare := [] } } :=
        turnsAt_quiet (quiet_unbare e)
      have hswept : TurnsAt env A True now { e with ledger := { e.ledger with bare := [] } }
          ({ e with ledger := { e.ledger with bare := [] } }.sweep env now) :=
        turnsAt_sweep (sound_turnsAt hunbare h)
      have hcalm : Calm Q e ({ e with ledger := { e.ledger with bare := [] } }.sweep env now) :=
        (calm_of_eq rfl rfl rfl : Calm Q e { e with ledger := { e.ledger with bare := [] } }).trans
          (calm_sweep hQ (sound_turnsAt hunbare h))
      dsimp only at hdrive
      split at hdrive
      · rw [Option.some.injEq] at hdrive
        exact hdrive ▸ hcalm.trans (calm_of_eq rfl rfl rfl)
      · exact hcalm.trans (ih _ (sound_turnsAt (hunbare.trans hswept) h) _ hdrive)

lemma calm_driven (hQ : Carried env Q) {before : Engine} {fuel : Nat} (h : Sound env A e)
    (hturns : TurnsAt env A True now e before) (hcalm : Calm Q e before)
    (hdrive : before.drive env now fuel = some e') : Calm Q e e' :=
  hcalm.trans (calm_drive hQ fuel _ (sound_turnsAt hturns h) _ hdrive)

lemma calm_clockDue (hQ : Carried env Q) (e : Engine) (flow : RuleId) (node : NodeId) :
    Calm Q e (e.clockDue env flow node now) := by
  unfold Engine.clockDue
  split
  · dsimp only
    have hwound : ∀ e' : Engine, Calm Q e e' → ∀ firing : Firing,
        Calm Q e (e'.fireNow env flow firing now).2 := fun e' hcalm firing =>
      hcalm.trans ((endures_calm hQ).fireNow _ _ _ _)
    refine hwound _ ?_ _
    split
    · exact calm_of_eq rfl rfl rfl
    · exact Calm.refl e
  · exact Calm.refl e

lemma calm_holdDue (hQ : Carried env Q) (e : Engine) (flow : RuleId) (node : NodeId) :
    Calm Q e (e.holdDue env flow node now) := by
  unfold Engine.holdDue
  split
  · exact Calm.refl e
  split
  · have hcancel : Calm Q e (e.cancelHold flow node).2 := calm_cancelHold e flow node
    dsimp only
    split
    · exact hcancel.trans ((endures_calm hQ).fireNow _ _ _ _)
    · exact hcancel
  · exact Calm.refl e

lemma calm_timer (hQ : Carried env Q) (h : Sound env A e) (timer : Timer) :
    Calm Q e (e.timer env timer now) := by
  cases timer with
  | hold flow node => exact calm_holdDue hQ e flow node
  | clock flow node => exact calm_clockDue hQ e flow node
  | token id k => exact calm_withRun fun run hrun => hQ.tokenDue e.view (h.fit hrun)
  | join id node => exact calm_withRun fun run hrun => hQ.joinDue (h.fit hrun)

theorem calm_advance (hQ : Carried env Q) (fuel : Nat) : ∀ e : Engine, Sound env A e →
    ∀ e' : Engine, e.advance env now fuel = some e' → Calm Q e e' := by
  induction fuel with
  | zero => exact fun _ _ _ hadvance => by simp [Engine.advance] at hadvance
  | succ fuel ih =>
    intro e h e' hadvance
    unfold Engine.advance at hadvance
    split at hadvance
    · rw [Option.some.injEq] at hadvance
      exact hadvance ▸ Calm.refl e
    next at_ _ timer rest _ =>
    split at hadvance
    · rw [Option.some.injEq] at hadvance
      exact hadvance ▸ Calm.refl e
    dsimp only at hadvance
    split at hadvance
    · simp at hadvance
    · next driven hdrive =>
      have hpop : Calm Q e ({ e with timers := rest }.noteOvertaken (Engine.moment timer at_ now)) :=
        (calm_of_eq rfl rfl rfl : Calm Q e { e with timers := rest }).trans
          (calm_noteOvertaken _ _)
      have hturns : TurnsAt env A True (Engine.moment timer at_ now) e
          ({ e with timers := rest }.noteOvertaken (Engine.moment timer at_ now)) :=
        turnsAt_quiet ((Quiet.plain rfl rfl rfl rfl rfl rfl : Quiet e { e with timers := rest }).trans
          (quiet_noteOvertaken _ _))
      have hdue : TurnsAt env A True (Engine.moment timer at_ now) e
          (({ e with timers := rest }.noteOvertaken (Engine.moment timer at_ now)).timer env timer
            (Engine.moment timer at_ now)) := turnsAt_due h rest timer
      have hfirst : Calm Q e driven :=
        calm_driven hQ h hdue (hpop.trans (calm_timer hQ (sound_turnsAt hturns h) timer)) hdrive
      have hdriven : TurnsAt env A True (Engine.moment timer at_ now) e driven :=
        turnsAt_driven h hdue hdrive
      exact hfirst.trans (ih _ (sound_turnsAt hdriven h) _ hadvance)

lemma calm_windClocks (e : Engine) : Calm Q e (e.windClocks env now) := by
  obtain ⟨timers, next, hwound⟩ := windClocks_eq env e now
  rw [hwound]
  exact calm_of_eq rfl rfl rfl

lemma calm_start (hQ : Carried env Q) {fuel : Nat} (h : Sound env A e)
    (hop : e.start env now fuel = some e') : Calm Q e e' := by
  unfold Engine.start at hop
  dsimp only at hop
  have hnoted : Calm Q e (e.noteOvertaken now) := calm_noteOvertaken e now
  refine calm_driven hQ h (A := A) ?_ (hnoted.trans
    (calm_foldl (fun e _ => (endures_calm hQ).fireNow e _ _ now) _ _)) hop
  refine (turnsAt_noted e now).trans (turnsAt_triggers (fun x e' harmed => framed_fire harmed _) _ _
    fun x hx => ?_)
  exact (quiet_noteOvertaken e now).sameFrames.isArmed (armed_of_mem hx)

lemma calm_fire (hQ : Carried env Q) {fuel : Nat} (h : Sound env A e) {flow : RuleId}
    {trigger : NodeId} {test : Option TestKind} {answer : Except String (Option ContextId)}
    (hop : e.fire env flow trigger test now fuel = some (answer, e')) : Calm Q e e' := by
  unfold Engine.fire at hop
  split at hop
  · rw [Option.some.injEq, Prod.mk.injEq] at hop
    exact hop.2 ▸ Calm.refl e
  · next hrefusal =>
    dsimp only at hop
    obtain ⟨driven, hdrive, heq⟩ := Option.map_eq_some_iff.mp hop
    rw [Prod.mk.injEq] at heq
    rw [← heq.2]
    have harmed := (quiet_noteOvertaken e now).sameFrames.isArmed (armed_of_refusal hrefusal)
    exact calm_driven hQ h ((turnsAt_noted e now).trans (turnsAt_fire harmed _))
      ((calm_noteOvertaken e now).trans ((endures_calm hQ).fireNow _ _ _ _)) hdrive

lemma calm_fireBy (hQ : Carried env Q) {fuel : Nat} (h : Sound env A e) {flow : RuleId}
    {trigger : NodeId} {test : Option TestKind} {by_ : Option UserId}
    {answer : Except String (Option ContextId)}
    (hop : e.fireBy env flow trigger test by_ now fuel = some (answer, e')) : Calm Q e e' := by
  unfold Engine.fireBy at hop
  obtain ⟨⟨started, fired⟩, hfire, heq⟩ := Option.map_eq_some_iff.mp hop
  rw [Prod.mk.injEq] at heq
  have hset : TurnsAt env A True now e { e with byHand := by_ } :=
    turnsAt_quiet (Quiet.plain rfl rfl rfl rfl rfl rfl)
  have hcalm : Calm Q e { e with byHand := by_ } := calm_of_eq rfl rfl rfl
  rw [← heq.2]
  exact (hcalm.trans (calm_fire hQ (sound_turnsAt hset h) hfire)).trans (calm_of_eq rfl rfl rfl)

lemma calm_cancel (hQ : Carried env Q) {fuel : Nat} (h : Sound env A e) {run : ContextId}
    {found : Bool} (hop : e.cancel env run now fuel = some (found, e')) : Calm Q e e' := by
  unfold Engine.cancel at hop
  obtain ⟨driven, hdrive, heq⟩ := Option.map_eq_some_iff.mp hop
  rw [Prod.mk.injEq] at heq
  rw [← heq.2]
  exact calm_driven hQ h ((turnsAt_noted e now).trans (turnsAt_finish (by simp) rfl))
    ((calm_noteOvertaken e now).trans ((endures_calm hQ).finish _ _ _ _)) hdrive

lemma calm_shutdown (hQ : Carried env Q) (e : Engine) : Calm Q e (e.shutdown env now) :=
  (calm_noteOvertaken e now).trans ((endures_calm hQ).finishAll _ _ _ _)

lemma calm_callFinished (hQ : Carried env Q) {fuel : Nat} (h : Sound env A e) {callId : Nat}
    {result : Except String Unit} (hop : e.callFinished env callId result now fuel = some e') :
    Calm Q e e' := by
  unfold Engine.callFinished at hop
  dsimp only at hop
  split at hop
  · rw [Option.some.injEq] at hop
    exact hop ▸ Calm.refl e
  · next id k hfound =>
    obtain ⟨run, t, hrun, ht, hdoing⟩ := mem_of_found hfound
    have hnrun : (e.noteOvertaken now).runs[id]? = some run := by
      rw [(quiet_noteOvertaken e now).runs]
      exact hrun
    have hown : ∀ r : Run, (e.noteOvertaken now).runs[id]? = some r → r = run := by
      intro r hr
      rw [hnrun, Option.some.injEq] at hr
      exact hr.symm
    refine calm_driven hQ h ((turnsAt_noted e now).trans (turnsAt_withRun fun r hr => ?_))
      ((calm_noteOvertaken e now).trans (calm_withRun fun r hr => ?_)) hop
    · exact hown r hr ▸ answerCall_goes (h.fit hrun) ht hdoing result
    · rw [hown r hr]
      exact hQ.answer (h.fit hrun) ht hdoing

variable (now) in
lemma calm_checkWaits (hQ : Carried env Q) (h : Sound env A e) (waits : List (ContextId × Nat)) :
    Calm Q e (e.checkWaits env waits now) :=
  calm_turns (fun _ _ e' he =>
    ⟨turnsAt_withRun fun _ hrun => (checkWait_goes (he.fit hrun)).1,
      calm_withRun fun _ hrun => hQ.checkWait e'.view (he.fit hrun)⟩) e h

end

end Irori.Proofs
