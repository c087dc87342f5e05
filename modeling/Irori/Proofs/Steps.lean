import Irori.Proofs.Paths

/-!
# What the engine has a run do

Running a ready token, a timer that is due, an answered call, joins given up: each is a sequence of
moves.
-/

namespace Irori.Proofs

open Irori

section

variable {env : Env} {view : View} {now : Timestamp} {hand : Option Nat} {r : Run} {k : Nat}
  {t : Token}

lemma settles_late {mode : JoinMode} {timeout : Option CompactDuration}
    (c : StepsAt hand r k t (.join mode timeout)) (note : String) :
    Settles now hand r k
      { run := ((r.setJoin t.node (r.joinAt t.node)).noteStep k note).endToken k now } := by
  have hjoin : Goes now hand r { run := r.setJoin t.node (r.joinAt t.node) } :=
    goes_single (@Prim.join _ _ { run := r } t.node (r.joinAt t.node) [] ⟨mode, timeout, c.node⟩ id
      (fun _ _ hk => .inl hk) (fun _ _ _ hk => hk)
      (fun hpassed hnot => by rw [hpassed] at hnot; simp at hnot))
  exact Goes.settles hjoin (settles_touch (cosmetic_note note) (settles_endToken _ _))

lemma settles_first {timeout : Option CompactDuration}
    (c : StepsAt hand r k t (.join .first timeout)) (hfirst : (r.joinAt t.node).passed = false)
    (note : String) :
    Settles now hand r k (((r.setJoin t.node { r.joinAt t.node with passed := true }).noteStep k
      note).pass k .out now) := by
  have c' : StepsAt hand (r.noteStep k note) k t _ := c.touch (cosmetic_note note)
  have hjoins : (r.noteStep k note).joinAt t.node = r.joinAt t.node :=
    joinAt_congr (withStep_joins r k _) t.node
  -- Nothing is parked at such a join.
  have hnone : Alone (r.noteStep k note) t.node k := by
    intro w other hother
    obtain ⟨-, ⟨timeout', hall⟩, -⟩ := c'.fit.parked hother
    rw [c'.node] at hall
    simp at hall
  have hsame : (r.setJoin t.node { r.joinAt t.node with passed := true }).noteStep k note =
      (r.noteStep k note).setJoin t.node { r.joinAt t.node with passed := true } := by
    rw [Run.noteStep, withStep_setJoin]
    rfl
  rw [hsame]
  have here : ((r.noteStep k note).setJoin t.node
      { r.joinAt t.node with passed := true }).tokens[k]? = some t := c'.here
  refine ⟨goes_touch k (cosmetic_note note) ?_, pass_done (by exact c'.fit.fresh c'.here) _⟩
  rw [pass_eq here, leave_moved]
  exact goes_single (@Prim.passJoin _ _ { run := r.noteStep k note } k t
    { r.joinAt t.node with passed := true } .out c'.here c'.opened ⟨.first, timeout, c'.node⟩
    (by rw [hjoins]; exact hfirst) rfl (by rw [hjoins]) hnone)

def arrival (join : JoinState) (via : Wire) (k : Nat) (deadline : Option Timestamp) : JoinState :=
  { join with arrived := join.arrived.insert via k, deadline }

lemma goes_arrival {timeout : Option CompactDuration}
    (c : StepsAt hand r k t (.join .all timeout)) (hfirst : (r.joinAt t.node).passed = false)
    (via : Wire) (deadline : Option Timestamp) (timers : List (Timestamp × Timer))
    {doubled : List NodeId} (hdoubled : doubled = [] → (r.joinAt t.node).arrived[via]? = none) :
    Goes now hand r
      { run := r.setJoin t.node (arrival (r.joinAt t.node) via k deadline), timers, doubled } := by
  have hcases : ∀ (w : Wire) (i : Nat),
      (arrival (r.joinAt t.node) via k deadline).arrived[w]? = some i →
        (w = via ∧ i = k) ∨ (w ≠ via ∧ (r.joinAt t.node).arrived[w]? = some i) := by
    intro w i hi
    rw [arrival, Map.get_insert] at hi
    split at hi
    · next hw => exact .inl ⟨hw.symm, (Option.some.inj hi).symm⟩
    · next hw => exact .inr ⟨Ne.symm hw, hi⟩
  have hjoin : Goes now hand r
      { run := r.setJoin t.node (arrival (r.joinAt t.node) via k deadline), doubled } := by
    refine goes_single (@Prim.join _ _ { run := r } t.node _ _ ⟨.all, timeout, c.node⟩ id ?_ ?_ ?_)
    · intro w i hi
      rcases hcases w i hi with ⟨-, rfl⟩ | ⟨-, hi⟩
      · exact .inr ⟨⟨timeout, c.node⟩, t, c.here, rfl, c.opened⟩
      · exact .inl hi
    · intro hnil w i hi
      rw [arrival, Map.get_insert, if_neg]
      · exact hi
      · intro hw
        subst hw
        have hsome : (r.joinAt t.node).arrived[via]? = some i := hi
        rw [hdoubled hnil] at hsome
        simp at hsome
    · intro hpassed hnot
      change (r.joinAt t.node).passed = true at hpassed
      rw [hfirst] at hpassed
      simp at hpassed
  exact goes_ask hjoin timers [] 0 (by simp)

lemma settles_after {r' : Run} {timers : List (Timestamp × Timer)} {doubled : List NodeId}
    {m : Moved} (hfirst : Goes now hand r { run := r', timers, doubled })
    (hm : Settles now hand r' k m) :
    Settles now hand r k
      { m with timers := timers ++ m.timers, doubled := doubled ++ m.doubled } := by
  refine ⟨?_, hm.2⟩
  have := goes_trans hfirst hm.1
  simpa only [after, List.nil_append, Nat.zero_add] using this

lemma settles_joined {timeout : Option CompactDuration}
    (c : StepsAt hand r k t (.join .all timeout)) (hfirst : (r.joinAt t.node).passed = false)
    (hin : ∃ w : Wire, (r.joinAt t.node).arrived[w]? = some k) (note : String) :
    Settles now hand r k { run := (r.setDoing k .joined).noteStep k note } := by
  have hjoined : Goes now hand r { run := r.setDoing k .joined } :=
    goes_single (.doing c.here c.opened rfl ⟨timeout, c.node⟩ fun _ => ⟨hfirst, hin⟩)
  exact ⟨hjoined.trans (goes_touch k (cosmetic_note note) goes_refl),
    done_withStep _ (done_setDoing r k rfl)⟩

lemma arrive_settles {mode : JoinMode} {timeout : Option CompactDuration}
    (c : StepsAt hand r k t (.join mode timeout)) (timeoutMs : Option Int) :
    Settles now hand r k (r.arrive k t.node mode timeoutMs now) := by
  cases mode with
  | first =>
    unfold Run.arrive
    dsimp only
    split
    · exact settles_late c _
    · next hfirst => exact settles_first c (by simpa using hfirst) _
  | all =>
    unfold Run.arrive
    dsimp only
    split
    · exact settles_late c _
    next hpassed =>
    have hfirst : (r.joinAt t.node).passed = false := by simpa using hpassed
    obtain ⟨via, hvia⟩ := Option.isSome_iff_exists.mp (c.fit.came c.here)
    simp only [c.here, Option.bind_some, hvia]
    have hdoubled : (if (r.joinAt t.node).arrived.contains via = true then [t.node] else []) = [] →
        (r.joinAt t.node).arrived[via]? = none := by
      intro hnil
      by_contra hsome
      rw [if_pos] at hnil
      · simp at hnil
      · rw [Std.ExtTreeMap.contains_eq_isSome_getElem?]
        exact Option.isSome_iff_ne_none.mpr hsome
    generalize ((if (r.joinAt t.node).arrived.isEmpty = true then timeoutMs.map (plus now)
      else none).or (r.joinAt t.node).deadline) = deadline
    have harrive := fun timers => @goes_arrival now hand r k t timeout c hfirst via deadline timers _ hdoubled
    -- The join as the token finds it, itself come in.
    have c' : StepsAt hand (r.setJoin t.node (arrival (r.joinAt t.node) via k deadline)) k t
        (.join .all timeout) := ⟨fit_goes c.fit (harrive []), c.here, c.opened, c.node⟩
    have hat : (r.setJoin t.node (arrival (r.joinAt t.node) via k deadline)).joinAt t.node =
        arrival (r.joinAt t.node) via k deadline := by rw [setJoin_joinAt, if_pos rfl]
    have hin : (arrival (r.joinAt t.node) via k deadline).arrived[via]? = some k := by
      rw [arrival, Map.get_insert, if_pos rfl]
    refine settles_after (harrive _) ?_
    split
    · exact ⟨goes_completeJoin c'.fit (by rw [hat]; exact hfirst) ⟨via, by rw [hat]; exact hin⟩ _ _,
        completeJoin_done (c'.fit.fresh c.here) _ _⟩
    · exact settles_joined c' (by rw [hat]; exact hfirst) ⟨via, by rw [hat]; exact hin⟩ _

lemma foldl_endToken_get (l : List Nat) (r : Run) (i : Nat) :
    (l.foldl (Run.endToken · · now) r).tokens[i]? = if i ∈ l then none else r.tokens[i]? := by
  induction l generalizing r with
  | nil => simp
  | cons k l ih =>
    rw [List.foldl_cons, ih, endToken_get]
    by_cases hl : i ∈ l
    · simp [hl]
    · by_cases hk : i = k
      · simp [hk]
      · simp [hl, hk]

lemma not_mem_keys {r : Run} {i : Nat} (h : i ∉ r.tokens.keys) : r.tokens[i]? = none := by
  rw [Std.ExtTreeMap.mem_keys] at h
  exact Std.ExtTreeMap.getElem?_eq_none h

lemma exhaust_settles (r : Run) (k : Nat) (node : NodeId) :
    Settles now hand r k { run := r.exhaust node now } := by
  unfold Run.exhaust
  refine Goes.settles (goes_mark goes_refl _ r.stopped r.record.endedAt) ⟨goes_foldl goes_endToken _ _, ?_⟩
  refine done_of_none ?_
  rw [foldl_endToken_get]
  split
  · rfl
  · next hk => exact not_mem_keys hk

lemma withStep_noStep (h : (r.tokens[k]?).bind Token.step = none) (f : Step → Step) :
    r.withStep k f = r := by
  unfold Run.withStep
  rw [h]

lemma withStep_ofStep {i : Nat} (h : (r.tokens[k]?).bind Token.step = some i) (f : Step → Step) :
    r.withStep k f =
      { r with record := { r.record with steps := r.record.steps.modify i f } } := by
  unfold Run.withStep
  rw [h]

lemma withStep_comm {a : Nat} (h : Fit hand r) (hne : a ≠ k) (f g : Step → Step) :
    (r.withStep k f).withStep a g = (r.withStep a g).withStep k f := by
  have hsteps : ∀ i : Nat, (r.tokens[k]?).bind Token.step = some i →
      (r.tokens[a]?).bind Token.step ≠ some i := by
    intro i hk ha
    obtain ⟨t, ht, hti⟩ := Option.bind_eq_some_iff.mp hk
    obtain ⟨t', ht', hti'⟩ := Option.bind_eq_some_iff.mp ha
    obtain ⟨s, hs, hstoken⟩ := h.own ht hti
    obtain ⟨s', hs', hstoken'⟩ := h.own ht' hti'
    rw [hs, Option.some.injEq] at hs'
    exact hne (by rw [← hstoken', ← hs', hstoken])
  cases hk : (r.tokens[k]?).bind Token.step with
  | none =>
    rw [withStep_noStep hk, withStep_noStep (r := r.withStep a g) (by rw [withStep_tokens]; exact hk)]
  | some i =>
    cases ha : (r.tokens[a]?).bind Token.step with
    | none =>
      rw [withStep_noStep ha, withStep_noStep (r := r.withStep k f) (by rw [withStep_tokens]; exact ha)]
    | some j =>
      have hij : i ≠ j := fun hij => hsteps i hk (hij ▸ ha)
      rw [withStep_ofStep (r := r.withStep k f) (i := j) (by rw [withStep_tokens]; exact ha),
        withStep_ofStep (r := r.withStep a g) (i := i) (by rw [withStep_tokens]; exact hk),
        withStep_ofStep hk, withStep_ofStep ha]
      simp only [List.modify_modify_ne f g _ hij]

lemma withStep_removeToken {a : Nat} (hne : a ≠ k) (f : Step → Step) :
    (r.removeToken a).withStep k f = (r.withStep k f).removeToken a := by
  have hsame : ((r.removeToken a).tokens[k]?).bind Token.step =
      (r.tokens[k]?).bind Token.step := by
    rw [removeToken_tokens, Map.get_erase, if_neg hne]
  cases hk : (r.tokens[k]?).bind Token.step with
  | none => rw [withStep_noStep hk, withStep_noStep (hsame.trans hk)]
  | some i =>
    rw [withStep_ofStep hk, withStep_ofStep (hsame.trans hk)]
    rfl

lemma cutShort_eq (r : Run) (k : Nat) :
    r.cutShort k now = dropped (r.withStep k fun step =>
      { step with note := some (step.note.getD "cut short by a stop") }) k none now := by
  unfold Run.cutShort dropped Run.closeStep
  rw [withStep_withStep]
  rfl

lemma cosmetic_cut : Cosmetic fun step =>
    { step with note := some (step.note.getD "cut short by a stop") } := fun _ => rfl

lemma goes_drop_any (r : Run) (k : Nat) : Goes now hand r { run := dropped r k none now } := by
  cases here : r.tokens[k]? with
  | none =>
    rw [dropped_of_none here]
    exact goes_refl
  | some t => exact goes_drop here (by simp) (by simp)

lemma goes_cutShort (r : Run) (k : Nat) : Goes now hand r { run := r.cutShort k now } := by
  rw [cutShort_eq]
  exact goes_touch k cosmetic_cut (goes_drop_any _ k)

lemma cutShort_withStep {a : Nat} (h : Fit hand r) (hne : a ≠ k) (f : Step → Step) :
    (r.withStep k f).cutShort a now = (r.cutShort a now).withStep k f := by
  unfold Run.cutShort
  rw [withStep_comm h hne, withStep_removeToken hne]

/-- Ending every path of a run: its own token's step is closed first, and the token goes when its
turn comes. -/
lemma foldl_stop (f : Step → Step) (l : List Nat) (hnodup : l.Nodup) (hk : k ∈ l) : ∀ r : Run,
    Fit hand r →
    l.foldl (fun run other => if other = k then run.removeToken other else run.cutShort other now)
        (r.withStep k f) =
      l.foldl (fun run other => if other = k then (run.withStep k f).removeToken k
        else run.cutShort other now) r := by
  induction l with
  | nil => simp at hk
  | cons a l ih =>
    intro r h
    rw [List.nodup_cons] at hnodup
    rw [List.foldl_cons, List.foldl_cons]
    by_cases ha : a = k
    · subst ha
      rw [if_pos rfl, if_pos rfl]
      -- The token is not met again.
      refine List.foldl_ext _ _ _ fun run other hother => ?_
      have hne : other ≠ a := fun he => hnodup.1 (he ▸ hother)
      rw [if_neg hne, if_neg hne]
    · rw [if_neg ha, if_neg ha, cutShort_withStep h ha]
      exact ih hnodup.2 ((List.mem_cons.mp hk).resolve_left (Ne.symm ha)) _
        (fit_goes h (goes_cutShort r a))

lemma foldl_stop_get (f : Step → Step) (l : List Nat) (r : Run) (i : Nat) :
    (l.foldl (fun run other => if other = k then (run.withStep k f).removeToken k
        else run.cutShort other now) r).tokens[i]? = if i ∈ l then none else r.tokens[i]? := by
  induction l generalizing r with
  | nil => simp
  | cons a l ih =>
    have hstep : (if a = k then (r.withStep k f).removeToken k
        else r.cutShort a now).tokens[i]? = if i = a then none else r.tokens[i]? := by
      split
      · next ha =>
        subst ha
        rw [removeToken_tokens, Map.get_erase, withStep_tokens]
        simp only [eq_comm]
      · rw [cutShort_eq, dropped_tokens, Map.get_erase, withStep_tokens]
        simp only [eq_comm]
    rw [List.foldl_cons, ih, hstep]
    by_cases hl : i ∈ l
    · simp [hl]
    · by_cases ha : i = a
      · simp [ha]
      · simp [hl, ha]

lemma stepStop_settles (h : Fit hand r) (here : r.tokens[k]? = some t) (node : NodeId)
    (reason : Option String) : Settles now hand r k (r.stepStop k node reason now) := by
  let noted := fun step : Step => { step with note := some (reason.getD "stop") }
  let closed := fun step : Step =>
    { step with finishedAt := some now, note := some (reason.getD "stop") }
  let r₀ : Run := { r with stopped := some (node, reason), record := { r.record with
    endedAt := r.record.endedAt ++ [⟨node, none⟩] } }
  have hmark : Goes now hand r { run := r₀ } := goes_mark goes_refl r.error _ _
  have h₀ : Fit hand r₀ := fit_goes h hmark
  have hsame : ({ r.withStep k closed with stopped := some (node, reason) } : Run).addEnding node
      none = r₀.withStep k closed := by
    simp only [Run.withStep, Run.addEnding, r₀]
    split <;> rfl
  have hkeys : k ∈ r₀.tokens.keys := by
    rw [Std.ExtTreeMap.mem_keys, Std.ExtTreeMap.mem_iff_isSome_getElem?]
    simp [r₀, here]
  have hnodup : r₀.tokens.keys.Nodup :=
    (Std.ExtTreeMap.distinct_keys (t := r₀.tokens)).imp fun hne => by simpa using hne
  have hstop : r.stepStop k node reason now = { run := r₀.tokens.keys.foldl (fun run other =>
      if other = k then (run.withStep k closed).removeToken k else run.cutShort other now) r₀ } := by
    unfold Run.stepStop
    dsimp only
    rw [hsame, withStep_tokens, foldl_stop closed _ hnodup hkeys _ h₀]
  rw [hstop]
  refine Goes.settles hmark ⟨goes_foldl (fun r other => ?_) _ _, done_of_none ?_⟩
  · split
    · have hdrop : (r.withStep k closed).removeToken k = dropped (r.withStep k noted) k none now := by
        unfold dropped Run.closeStep
        rw [withStep_withStep]
        rfl
      rw [hdrop]
      exact goes_touch k (cosmetic_note _) (goes_drop_any _ k)
    · exact goes_cutShort r other
  · rw [foldl_stop_get, if_pos hkeys]

lemma stepNode_settles {kind : Node} (c : StepsAt hand r k t kind) :
    Settles now hand r k (r.stepNode env view k t.node kind now) := by
  unfold Run.stepNode
  dsimp only
  refine (fun hs => ⟨goes_evaluate c.here hs.1, hs.2⟩ : Settles now hand r k _ → _) ?_
  cases kind with
  | trigger _ => exact settles_pass c rfl _
  | gate condition => exact stepGate_settles c
  | switch cases => exact stepSwitch_settles c
  | call service entity data => exact stepCall_settles c
  | set name expr => exact stepSet_settles c
  | delay hold => exact stepDelay_settles c
  | wait level timeout => exact stepWait_settles c
  | join mode timeout => exact arrive_settles c _
  | stop reason => exact stepStop_settles c.fit c.here _ _

theorem step_settles (h : Fit none r) : Settles now (some k) r k (r.step env view k now) := by
  unfold Run.step
  cases here : r.tokens[k]? with
  | none => exact ⟨goes_refl, done_of_none here⟩
  | some t =>
    dsimp only
    split
    · next hbusy =>
      refine ⟨goes_refl, fun t' ht' => ?_⟩
      rw [here, Option.some.injEq] at ht'
      subst ht'
      simpa using hbusy
    next hready =>
    split
    · exact settles_endToken r k
    next kind hnode =>
    split
    · exact exhaust_settles r k t.node
    next hroom =>
    have hready : t.doing.isReady = true := by simpa using hready
    have hopen : Prim now (some k) { run := r } { run := r.openStep k now } :=
      .openStep rfl here (h.unopened here hready (by simp)) (by simp [hnode]) (by simpa using hroom)
    have c : StepsAt (some k) (r.openStep k now) k { t with step := some r.record.steps.length }
        kind := by
      refine ⟨fit_prim hopen (h.take _), ?_, rfl, ?_⟩
      · rw [openStep_eq now here]
        dsimp only
        rw [Map.get_insert, if_pos rfl]
      · rw [openStep_eq now here]
        exact hnode
    exact Goes.settles (goes_single hopen)
      (@stepNode_settles env view now (some k) _ k { t with step := some _ } kind c)

theorem answerCall_goes (h : Fit hand r) (here : r.tokens[k]? = some t) {id : Nat}
    (hcall : t.doing = .call id) (result : Except String Unit) :
    Goes now hand r (r.answerCall k result now) := by
  obtain ⟨service, entity, data, hnode⟩ : DoingFits r.flow t.node (.call id) :=
    hcall ▸ h.fits here
  exact (answerCall_settles ⟨h, here, h.opened here (by rw [hcall]; rfl), hnode⟩ result).1

theorem tokenDue_goes (h : Fit hand r) : Goes now hand r (r.tokenDue env view k now) := by
  unfold Run.tokenDue
  cases here : r.tokens[k]? with
  | none => exact goes_refl
  | some t =>
    dsimp only
    have hopened : ∀ d : Doing, d.isReady = false → t.doing = d → t.step.isSome :=
      fun d hd hdoing => h.opened here (by rw [hdoing]; exact hd)
    have hfits : ∀ d : Doing, t.doing = d → DoingFits r.flow t.node d :=
      fun d hdoing => hdoing ▸ h.fits here
    split
    · next until_ hdoing =>
      obtain ⟨hold, hnode⟩ := hfits _ hdoing
      split
      · exact (settles_pass ⟨h, here, hopened _ rfl hdoing, hnode⟩ rfl _).1
      · exact goes_refl
    · next since timeout holdingSince watch hdoing =>
      obtain ⟨level, timeout', hnode⟩ := hfits _ hdoing
      split
      · exact (settles_touch_pass ⟨h, here, hopened _ rfl hdoing, hnode⟩ rfl (cosmetic_note _) _).1
      · exact (checkWait_goes h).1
    · exact goes_refl

theorem joinDue_goes {node : NodeId} (h : Fit hand r) : Goes now hand r (r.joinDue node now) := by
  unfold Run.joinDue
  cases hget : r.joins[node]? with
  | none => exact goes_refl
  | some join =>
    have hat : r.joinAt node = join := by rw [Run.joinAt, hget]; rfl
    dsimp only
    split
    · next hdue =>
      split
      · next through hlast =>
        obtain ⟨w, hw⟩ := Map.get_of_lastValue hlast
        exact goes_completeJoin h (by rw [hat]; simpa using hdue.1) ⟨w, by rw [hat]; exact hw⟩ _ _
      · exact goes_refl
    · exact goes_refl

lemma pass_joins (port : Port) : (r.pass k port now).run.joins = r.joins := by
  cases here : r.tokens[k]? with
  | none => rw [pass_of_none here]
  | some t => rw [pass_eq here, leave_joins, dropped_joins]

lemma completeJoin_joinAt {node other : NodeId} (hne : other ≠ node) (port : Port) (note : String) :
    (r.completeJoin k node port note now).run.joinAt other = r.joinAt other := by
  unfold Run.completeJoin
  rw [joinAt_congr (pass_joins port), Run.noteStep, joinAt_congr (withStep_joins _ _ _),
    joinAt_congr (setDoing_joins _ _ _), joinAt_congr (foldl_merge_parts _ _).2.1]
  cases r.joins[node]? with
  | none => rfl
  | some join => rw [setJoin_joinAt, if_neg (Ne.symm hne)]

lemma goes_completeJoins (port : Port) (l : List (NodeId × Nat × String))
    (hnodup : (l.map Prod.fst).Nodup) : ∀ m : Moved, Fit hand m.run →
    (∀ x ∈ l, (m.run.joinAt x.1).passed = false ∧
      ∃ w : Wire, (m.run.joinAt x.1).arrived[w]? = some x.2.1) →
    Path now hand m (l.foldl (fun m (node, through, note) =>
      m.andThen (Run.completeJoin · through node port note now)) m) := by
  induction l with
  | nil => exact fun _ _ _ => Relation.ReflTransGen.refl
  | cons x l ih =>
    intro m hfit hall
    obtain ⟨node, through, note⟩ := x
    rw [List.map_cons, List.nodup_cons] at hnodup
    obtain ⟨hpassed, hin⟩ := hall _ List.mem_cons_self
    have hgoes : Goes now hand m.run _ := goes_completeJoin hfit hpassed hin port note
    have hfit' := fit_goes hfit hgoes
    refine (path_after m hgoes).trans (ih hnodup.2 _ hfit' fun y hy => ?_)
    have hne : y.1 ≠ node := fun he => hnodup.1 (List.mem_map.mpr ⟨y, hy, he⟩)
    change ((m.run.completeJoin through node port note now).run.joinAt y.1).passed = false ∧
      ∃ w : Wire, ((m.run.completeJoin through node port note now).run.joinAt y.1).arrived[w]? =
        some y.2.1
    rw [completeJoin_joinAt hne]
    exact hall y (List.mem_cons_of_mem _ hy)

lemma sublist_filterMap_fst {α β γ : Type} {f : α × β → Option (α × γ)}
    (hf : ∀ (x : α × β) (y : α × γ), f x = some y → y.1 = x.1) (l : List (α × β)) :
    ((l.filterMap f).map Prod.fst).Sublist (l.map Prod.fst) := by
  induction l with
  | nil => simp
  | cons x l ih =>
    rw [List.filterMap_cons]
    split
    · exact ih.cons _
    · next y hy =>
      rw [List.map_cons, List.map_cons, hf x y hy]
      exact ih.cons_cons _

theorem giveUpJoins_goes (h : Fit hand r) : Goes now hand r (r.giveUpJoins now) := by
  unfold Run.giveUpJoins
  refine goes_completeJoins .timeout _ ?_ { run := r } h ?_
  · have hkeys : (r.joins.toList.map Prod.fst).Nodup := by
      rw [Std.ExtTreeMap.map_fst_toList_eq_keys]
      exact (Std.ExtTreeMap.distinct_keys (t := r.joins)).imp fun hne => by simpa using hne
    refine hkeys.sublist (sublist_filterMap_fst ?_ _)
    rintro ⟨node, join⟩ y hy
    dsimp only at hy
    split at hy
    · obtain ⟨through, -, rfl⟩ := Option.map_eq_some_iff.mp hy
      rfl
    · simp at hy
  · intro x hx
    obtain ⟨⟨node, join⟩, hmem, hx⟩ := List.mem_filterMap.mp hx
    rw [Std.ExtTreeMap.mem_toList_iff_getElem?_eq_some] at hmem
    have hat : r.joinAt node = join := by rw [Run.joinAt, hmem]; rfl
    dsimp only at hx
    split at hx
    · next hwaits =>
      obtain ⟨through, hlast, rfl⟩ := Option.map_eq_some_iff.mp hx
      obtain ⟨w, hw⟩ := Map.get_of_lastValue hlast
      exact ⟨by rw [hat]; simpa using hwaits.1, w, by rw [hat]; exact hw⟩
    · simp at hx

end

end Irori.Proofs
