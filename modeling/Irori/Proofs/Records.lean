import Irori.Proofs.Ops
import Irori.Sample

/-!
# What a record says of its run

A run's steps are numbered, few, and each was come to by a wire that an earlier step left by; the
ones still open are those of the tokens there are. So the record of a run that has ended has every
step closed.
-/

namespace Irori.Proofs

open Irori

def stamp (s : Step) : Step := { s with reads := [], note := none, call := none }

def way (t : Token) : Token := { t with doing := .ready }

lemma stamp_cosmetic {f : Step → Step} (hf : Cosmetic f) (s : Step) : stamp (f s) = stamp s := by
  have h := congrArg stamp (hf s)
  exact h

lemma stamp_same {s s' : Step} (h : stamp s = stamp s') :
    s.seq = s'.seq ∧ s.node = s'.node ∧ s.token = s'.token ∧ s.via = s'.via ∧
      s.finishedAt = s'.finishedAt ∧ s.port = s'.port := by
  cases s
  cases s'
  simp only [stamp, Step.mk.injEq] at h
  obtain ⟨hseq, hnode, htoken, hvia, -, hfinished, hport, -⟩ := h
  exact ⟨hseq, hnode, htoken, hvia, hfinished, hport⟩

/-- Before step `i`, the run left the wire's source by its port. -/
def Left (r : Run) (i : Nat) (w : Wire) : Prop :=
  w ∈ r.flow.wires ∧ ∃ (j : Nat) (s : Step), j < i ∧ r.record.steps[j]? = some s ∧
    s.node = w.source.node ∧ s.port = some w.source.port

/-- The record of a run that is going tells how its tokens came to be where they are. -/
structure Traced (r : Run) : Prop where
  few : r.record.steps.length ≤ maxSteps
  numbered : ∀ {i : Nat} {s : Step}, r.record.steps[i]? = some s → s.seq = i
  owned : ∀ {i : Nat} {s : Step}, r.record.steps[i]? = some s → s.finishedAt = none →
    ∃ t : Token, r.tokens[s.token]? = some t ∧ t.step = some i
  unported : ∀ {k i : Nat} {t : Token} {s : Step}, r.tokens[k]? = some t → t.step = some i →
    r.record.steps[i]? = some s → s.node = t.node ∧ s.via = t.via ∧ s.port = none
  trail : ∀ {i : Nat} {s : Step} {w : Wire}, r.record.steps[i]? = some s → s.via = some w →
    Left r i w ∧ s.node = w.target
  coming : ∀ {k : Nat} {t : Token} {w : Wire}, r.tokens[k]? = some t → t.via = some w →
    Left r r.record.steps.length w ∧ t.node = w.target
  first : ∃ s : Step, r.record.steps[0]? = some s ∧ s.node = r.record.trigger ∧ s.via = none
  others : ∀ {i : Nat} {s : Step}, r.record.steps[i]? = some s → s.via = none → i = 0

section

variable {now : Timestamp} {hand : Option Nat} {r r' : Run} {k : Nat} {t : Token} {w : Wire}

/-- Steps that were left by a port stay so. -/
def Passed (r r' : Run) : Prop :=
  ∀ (j : Nat) (s : Step) (port : Port), r.record.steps[j]? = some s → s.port = some port →
    ∃ s' : Step, r'.record.steps[j]? = some s' ∧ s'.node = s.node ∧ s'.port = some port

lemma Left.mono (h : Left r k w) {i : Nat} (hflow : r'.flow = r.flow) (hpassed : Passed r r')
    (hi : k ≤ i) : Left r' i w := by
  obtain ⟨hw, j, s, hj, hs, hnode, hport⟩ := h
  obtain ⟨s', hs', hnode', hport'⟩ := hpassed j s _ hs hport
  exact ⟨by rwa [hflow], j, s', by omega, hs', hnode'.trans hnode, hport'⟩

def SameSteps (r r' : Run) : Prop :=
  ∀ i : Nat, (r'.record.steps[i]?).map stamp = (r.record.steps[i]?).map stamp

lemma SameSteps.back (h : SameSteps r r') {i : Nat} {s' : Step}
    (hs : r'.record.steps[i]? = some s') :
    ∃ s : Step, r.record.steps[i]? = some s ∧ stamp s = stamp s' := by
  have hi := h i
  rw [hs, Option.map_some] at hi
  exact Option.map_eq_some_iff.mp hi.symm

lemma SameSteps.symm (h : SameSteps r r') : SameSteps r' r := fun i => (h i).symm

lemma SameSteps.passed (h : SameSteps r r') : Passed r r' := by
  intro j s port hs hport
  obtain ⟨s', hs', hsame⟩ := h.symm.back hs
  obtain ⟨-, hnode, -, -, -, hport'⟩ := stamp_same hsame
  exact ⟨s', hs', hnode, hport'.trans hport⟩

lemma SameSteps.length (h : SameSteps r r') :
    r'.record.steps.length = r.record.steps.length := by
  have hsome : ∀ i : Nat, i < r'.record.steps.length ↔ i < r.record.steps.length := by
    intro i
    have hi := congrArg Option.isSome (h i)
    rw [Option.isSome_map, Option.isSome_map, Bool.eq_iff_iff] at hi
    simpa only [isSome_getElem?, List.instGetElem?NatLtLength] using hi
  have h1 := hsome r'.record.steps.length
  have h2 := hsome r.record.steps.length
  omega

lemma sameSteps_of_eq (h : r'.record.steps = r.record.steps) : SameSteps r r' := fun i => by rw [h]

lemma sameSteps_withStep (r : Run) (k : Nat) {f : Step → Step} (hf : Cosmetic f) :
    SameSteps r (r.withStep k f) := by
  intro i
  rw [withStep_steps]
  split
  · rw [Option.map_map]
    congr 1
    exact funext fun s => stamp_cosmetic hf s
  · rfl

lemma way_back (h : ∀ i : Nat, (r'.tokens[i]?).map way = (r.tokens[i]?).map way) {i : Nat}
    {t' : Token} (ht : r'.tokens[i]? = some t') :
    ∃ t : Token, r.tokens[i]? = some t ∧ t.node = t'.node ∧ t.via = t'.via ∧ t.step = t'.step := by
  have hi := h i
  rw [ht, Option.map_some] at hi
  obtain ⟨t, ht', hsame⟩ := Option.map_eq_some_iff.mp hi.symm
  simp only [way, Token.mk.injEq] at hsame
  exact ⟨t, ht', hsame.1, hsame.2.1, hsame.2.2.1⟩

lemma Traced.congr (h : Traced r) (hflow : r'.flow = r.flow)
    (htrigger : r'.record.trigger = r.record.trigger) (hsteps : SameSteps r r')
    (htokens : ∀ i : Nat, (r'.tokens[i]?).map way = (r.tokens[i]?).map way) : Traced r' := by
  constructor
  · rw [hsteps.length]
    exact h.few
  · intro i s' hs'
    obtain ⟨s, hs, hsame⟩ := hsteps.back hs'
    rw [← (stamp_same hsame).1]
    exact h.numbered hs
  · intro i s' hs' hopen
    obtain ⟨s, hs, hsame⟩ := hsteps.back hs'
    obtain ⟨-, -, htoken, -, hfinished, -⟩ := stamp_same hsame
    obtain ⟨t, ht, hstep⟩ := h.owned hs (hfinished.trans hopen)
    obtain ⟨t', ht', -, -, hstep'⟩ := way_back (fun i => (htokens i).symm) ht
    exact ⟨t', htoken ▸ ht', hstep'.trans hstep⟩
  · intro k i t' s' ht' hstep hs'
    obtain ⟨t, ht, hnode, hvia, hstep'⟩ := way_back htokens ht'
    obtain ⟨s, hs, hsame⟩ := hsteps.back hs'
    obtain ⟨-, hsnode, -, hsvia, -, hsport⟩ := stamp_same hsame
    obtain ⟨hn, hv, hp⟩ := h.unported ht (hstep'.trans hstep) hs
    exact ⟨hsnode.symm.trans (hn.trans hnode), hsvia.symm.trans (hv.trans hvia), hsport ▸ hp⟩
  · intro i s' w hs' hvia
    obtain ⟨s, hs, hsame⟩ := hsteps.back hs'
    obtain ⟨-, hsnode, -, hsvia, -, -⟩ := stamp_same hsame
    obtain ⟨hleft, hnode⟩ := h.trail hs (hsvia.trans hvia)
    exact ⟨hleft.mono hflow hsteps.passed le_rfl, hsnode.symm.trans hnode⟩
  · intro k t' w ht' hvia
    obtain ⟨t, ht, hnode, hvia', -⟩ := way_back htokens ht'
    obtain ⟨hleft, hat⟩ := h.coming ht (hvia'.trans hvia)
    exact ⟨hleft.mono hflow hsteps.passed hsteps.length.ge, hnode.symm.trans hat⟩
  · obtain ⟨s, hs, hnode, hvia⟩ := h.first
    obtain ⟨s', hs', hsame⟩ := hsteps.symm.back hs
    obtain ⟨-, hsnode, -, hsvia, -, -⟩ := stamp_same hsame
    exact ⟨s', hs', by rw [hsnode, hnode, htrigger], hsvia.trans hvia⟩
  · intro i s' hs' hvia
    obtain ⟨s, hs, hsame⟩ := hsteps.back hs'
    obtain ⟨-, -, -, hsvia, -, -⟩ := stamp_same hsame
    exact h.others hs (hsvia.trans hvia)

lemma dropped_steps (r : Run) (k i : Nat) (port : Option Port) (now : Timestamp) :
    (dropped r k port now).record.steps[i]? =
      if (r.tokens[k]?).bind Token.step = some i then
        (r.record.steps[i]?).map fun s => { s with finishedAt := some now, port := port.or s.port }
      else r.record.steps[i]? :=
  withStep_steps r k i _

lemma dropped_back {i : Nat} {s' : Step} {port : Option Port}
    (hs : (dropped r k port now).record.steps[i]? = some s') :
    ∃ s : Step, r.record.steps[i]? = some s ∧ s'.seq = s.seq ∧ s'.node = s.node ∧
      s'.via = s.via ∧ s'.token = s.token ∧
      (s' = s ∧ (r.tokens[k]?).bind Token.step ≠ some i ∨ s'.finishedAt = some now) := by
  rw [dropped_steps] at hs
  split at hs
  · obtain ⟨s, hold, rfl⟩ := Option.map_eq_some_iff.mp hs
    exact ⟨s, hold, rfl, rfl, rfl, rfl, .inr rfl⟩
  · next hne => exact ⟨s', hs, rfl, rfl, rfl, rfl, .inl ⟨rfl, hne⟩⟩

lemma dropped_length (r : Run) (k : Nat) (port : Option Port) (now : Timestamp) :
    (dropped r k port now).record.steps.length = r.record.steps.length :=
  withStep_length _ _ _

lemma passed_dropped (h : Traced r) (here : r.tokens[k]? = some t) (port : Option Port)
    (now : Timestamp) : Passed r (dropped r k port now) := by
  intro j s left hs hport
  rw [dropped_steps, if_neg]
  · exact ⟨s, hs, rfl, hport⟩
  · intro hstep
    rw [here, Option.bind_some] at hstep
    rw [(h.unported here hstep hs).2.2] at hport
    simp at hport

lemma left_dropped (h : Traced r) (hfit : Fit hand r) (here : r.tokens[k]? = some t)
    (opened : t.step.isSome) {port : Port} (hw : w ∈ r.flow.wiresFrom t.node port) :
    Left (dropped r k (some port) now) (dropped r k (some port) now).record.steps.length w := by
  obtain ⟨i, hi⟩ := Option.isSome_iff_exists.mp opened
  obtain ⟨s, hs, -⟩ := hfit.own here hi
  obtain ⟨hmem, hsource⟩ := Flow.mem_wiresFrom.mp hw
  refine ⟨by rwa [dropped_flow], i, { s with finishedAt := some now, port := some port }, ?_, ?_, ?_,
    by rw [hsource]⟩
  · rw [dropped_length]
    exact (List.getElem?_eq_some_iff.mp hs).1
  · rw [dropped_steps, here, Option.bind_some, if_pos hi, hs]
    rfl
  · rw [hsource]
    exact (h.unported here hi hs).1

lemma Traced.drop (h : Traced r) (hfit : Fit hand r) (here : r.tokens[k]? = some t)
    (port : Option Port) (now : Timestamp) : Traced (dropped r k port now) := by
  have hpassed := passed_dropped h here port now
  have hold : ∀ {i : Nat} {t' : Token}, (dropped r k port now).tokens[i]? = some t' →
      i ≠ k ∧ r.tokens[i]? = some t' := by
    intro i t' hi
    rw [dropped_tokens, Map.get_erase] at hi
    split at hi
    · simp at hi
    · next hne => exact ⟨Ne.symm hne, hi⟩
  constructor
  · rw [dropped_length]
    exact h.few
  · intro i s' hs
    obtain ⟨s, hs, hseq, -⟩ := dropped_back hs
    exact hseq.trans (h.numbered hs)
  · intro i s' hs hopen
    obtain ⟨s, hs, -, -, -, -, ⟨rfl, hne⟩ | hclosed⟩ := dropped_back hs
    · obtain ⟨t', ht', hstep⟩ := h.owned hs hopen
      refine ⟨t', ?_, hstep⟩
      rw [dropped_tokens, Map.get_erase, if_neg]
      · exact ht'
      · intro hk
        rw [← hk] at ht'
        rw [ht'] at hne
        exact hne hstep
    · rw [hopen] at hclosed
      simp at hclosed
  · intro k' i t' s' ht' hstep hs
    obtain ⟨hne, ht'⟩ := hold ht'
    obtain ⟨s, hs, -, hnode, hvia, -, hcase⟩ := dropped_back hs
    obtain ⟨hn, hv, hp⟩ := h.unported ht' hstep hs
    refine ⟨hnode.trans hn, hvia.trans hv, ?_⟩
    have hother : (r.tokens[k]?).bind Token.step ≠ some i := by
      intro hk
      rw [here, Option.bind_some] at hk
      obtain ⟨s₁, hs₁, htoken₁⟩ := hfit.own here hk
      obtain ⟨s₂, hs₂, htoken₂⟩ := hfit.own ht' hstep
      rw [hs₁, Option.some.injEq] at hs₂
      exact hne (by rw [← htoken₂, ← hs₂, htoken₁])
    have hsame := dropped_steps r k i port now
    rw [if_neg hother, hs] at hsame
    rename_i hs₀
    rw [hs₀, Option.some.injEq] at hsame
    rw [hsame, hp]
  · intro i s' w hs hvia
    obtain ⟨s, hs, -, hnode, hvia', -⟩ := dropped_back hs
    obtain ⟨hleft, htarget⟩ := h.trail hs (hvia'.symm.trans hvia)
    exact ⟨hleft.mono (dropped_flow r k port now) hpassed le_rfl, hnode.trans htarget⟩
  · intro i t' w ht' hvia
    obtain ⟨hleft, htarget⟩ := h.coming (hold ht').2 hvia
    exact ⟨hleft.mono (dropped_flow r k port now) hpassed (dropped_length r k port now).ge, htarget⟩
  · obtain ⟨s, hs, hnode, hvia⟩ := h.first
    have hheader := congrArg RunRecord.trigger (dropped_header r k port now)
    have htrigger : (dropped r k port now).record.trigger = r.record.trigger := hheader
    rw [dropped_steps, htrigger]
    split
    · rw [hs]
      exact ⟨_, rfl, hnode, hvia⟩
    · exact ⟨s, hs, hnode, hvia⟩
  · intro i s' hs hvia
    obtain ⟨s, hs, -, -, hvia', -⟩ := dropped_back hs
    exact h.others hs (hvia'.symm.trans hvia)

lemma Traced.leave (h : Traced r) (hfit : Fit hand r) {node : NodeId} {port : Port}
    (hleft : ∀ w ∈ r.flow.wiresFrom node port, Left r r.record.steps.length w) :
    Traced (r.leave node port).run := by
  have hsteps : SameSteps r (r.leave node port).run := sameSteps_of_eq (leave_steps r node port)
  have hflow := leave_flow r node port
  constructor
  · rw [leave_steps]
    exact h.few
  · rw [leave_steps]
    exact h.numbered
  · intro i s hs hopen
    rw [leave_steps] at hs
    obtain ⟨t, ht, hstep⟩ := h.owned hs hopen
    refine ⟨t, ?_, hstep⟩
    rw [leave_tokens, if_neg, ht]
    -- The tokens put on the wires are new ones.
    intro hready
    rw [leave_ready, List.mem_range'_1] at hready
    have := hfit.fresh ht
    omega
  · intro k i t s ht hstep hs
    rw [leave_steps] at hs
    rcases leave_cases ht with ⟨w, -, rfl, -⟩ | ht
    · simp [onWire] at hstep
    · exact h.unported ht hstep hs
  · intro i s w hs hvia
    rw [leave_steps] at hs
    obtain ⟨hl, hnode⟩ := h.trail hs hvia
    exact ⟨hl.mono hflow hsteps.passed le_rfl, hnode⟩
  · intro k t w ht hvia
    rw [leave_steps]
    rcases leave_cases ht with ⟨w', hw', rfl, -⟩ | ht
    · rw [onWire, Option.some.injEq] at hvia
      subst hvia
      exact ⟨(hleft _ hw').mono hflow hsteps.passed le_rfl, rfl⟩
    · obtain ⟨hl, hnode⟩ := h.coming ht hvia
      exact ⟨hl.mono hflow hsteps.passed le_rfl, hnode⟩
  · have hheader := congrArg RunRecord.trigger (leave_header r node port)
    have htrigger : (r.leave node port).run.record.trigger = r.record.trigger := hheader
    rw [leave_steps, htrigger]
    exact h.first
  · rw [leave_steps]
    exact h.others

lemma openStep_steps (here : r.tokens[k]? = some t) {i : Nat} {s : Step}
    (hs : (r.openStep k now).record.steps[i]? = some s) :
    r.record.steps[i]? = some s ∨
      (i = r.record.steps.length ∧ s = stepOf r.record.steps.length k t now) := by
  rw [openStep_eq now here] at hs
  dsimp only at hs
  rw [List.getElem?_append] at hs
  split at hs
  · exact .inl hs
  · next hlen =>
    right
    rw [List.getElem?_singleton] at hs
    split at hs
    · exact ⟨by omega, (Option.some.inj hs).symm⟩
    · simp at hs

lemma openStep_parts (here : r.tokens[k]? = some t) (now : Timestamp) :
    (r.openStep k now).flow = r.flow ∧ (r.openStep k now).record.trigger = r.record.trigger ∧
      (r.openStep k now).record.steps.length = r.record.steps.length + 1 := by
  rw [openStep_eq now here]
  exact ⟨rfl, rfl, List.length_append⟩

lemma passed_openStep (here : r.tokens[k]? = some t) (now : Timestamp) :
    Passed r (r.openStep k now) := by
  intro j s port hs hport
  refine ⟨s, ?_, rfl, hport⟩
  rw [openStep_eq now here]
  dsimp only
  rw [List.getElem?_append_left (List.getElem?_eq_some_iff.mp hs).1, hs]

lemma Traced.openStep (h : Traced r) (hfit : Fit hand r) (here : r.tokens[k]? = some t)
    (unopened : t.step = none) (room : r.record.steps.length < maxSteps) (now : Timestamp) :
    Traced (r.openStep k now) := by
  obtain ⟨hflow, htrigger, hlength⟩ := openStep_parts here now
  have hpassed := passed_openStep here now
  have hown : (r.openStep k now).tokens[k]? =
      some { t with step := some r.record.steps.length } := by
    rw [openStep_eq now here]
    dsimp only
    rw [Map.get_insert, if_pos rfl]
  have hother : ∀ {i : Nat}, i ≠ k → (r.openStep k now).tokens[i]? = r.tokens[i]? := by
    intro i hi
    rw [openStep_eq now here]
    dsimp only
    rw [Map.get_insert, if_neg (Ne.symm hi)]
  constructor
  · rw [hlength]
    omega
  · intro i s hs
    rcases openStep_steps here hs with hs | ⟨rfl, rfl⟩
    · exact h.numbered hs
    · rfl
  · intro i s hs hopen
    rcases openStep_steps here hs with hs | ⟨rfl, rfl⟩
    · obtain ⟨t', ht', hstep⟩ := h.owned hs hopen
      refine ⟨t', ?_, hstep⟩
      rw [hother, ht']
      -- The token in hand had no step.
      intro hk
      rw [hk, here, Option.some.injEq] at ht'
      rw [← ht', unopened] at hstep
      simp at hstep
    · exact ⟨_, hown, rfl⟩
  · intro i j t' s ht' hstep hs
    rcases openStep_cases here ht' with ⟨rfl, rfl⟩ | ⟨hi, ht'⟩
    · rw [Option.some.injEq] at hstep
      subst hstep
      rcases openStep_steps here hs with hs | ⟨-, rfl⟩
      · have := (List.getElem?_eq_some_iff.mp hs).1
        omega
      · exact ⟨rfl, rfl, rfl⟩
    · rcases openStep_steps here hs with hs | ⟨rfl, rfl⟩
      · exact h.unported ht' hstep hs
      · obtain ⟨s, hs, -⟩ := hfit.own ht' hstep
        have := (List.getElem?_eq_some_iff.mp hs).1
        omega
  · intro i s w hs hvia
    rcases openStep_steps here hs with hs | ⟨rfl, rfl⟩
    · obtain ⟨hleft, hnode⟩ := h.trail hs hvia
      exact ⟨hleft.mono hflow hpassed le_rfl, hnode⟩
    · obtain ⟨hleft, hnode⟩ := h.coming here hvia
      exact ⟨hleft.mono hflow hpassed le_rfl, hnode⟩
  · intro i t' w ht' hvia
    rw [hlength]
    rcases openStep_cases here ht' with ⟨rfl, rfl⟩ | ⟨hi, ht'⟩
    · obtain ⟨hleft, hnode⟩ := h.coming here hvia
      exact ⟨hleft.mono hflow hpassed (by omega), hnode⟩
    · obtain ⟨hleft, hnode⟩ := h.coming ht' hvia
      exact ⟨hleft.mono hflow hpassed (by omega), hnode⟩
  · obtain ⟨s, hs, hnode, hvia⟩ := h.first
    refine ⟨s, ?_, by rw [htrigger, hnode], hvia⟩
    rw [openStep_eq now here]
    dsimp only
    rw [List.getElem?_append_left (List.getElem?_eq_some_iff.mp hs).1, hs]
  · intro i s hs hvia
    rcases openStep_steps here hs with hs | ⟨rfl, rfl⟩
    · exact h.others hs hvia
    · have := hfit.came here
      rw [show t.via = none from hvia] at this
      simp at this

lemma Traced.pass (h : Traced r) (hfit : Fit hand r) (here : r.tokens[k]? = some t)
    (opened : t.step.isSome) (port : Port) (now : Timestamp) :
    Traced ((dropped r k (some port) now).leave t.node port).run := by
  refine (h.drop hfit here (some port) now).leave (hfit.erase k (some port) now) fun w hw => ?_
  rw [dropped_flow] at hw
  exact left_dropped h hfit here opened hw

lemma Traced.setJoin (h : Traced r) (node : NodeId) (j : JoinState) : Traced (r.setJoin node j) :=
  h.congr rfl rfl (sameSteps_of_eq rfl) fun _ => rfl

theorem traced_prim {m m' : Moved} (hp : Prim now hand m m') (hfit : Fit hand m.run)
    (h : Traced m.run) : Traced m'.run := by
  cases hp with
  | @touch k f cosmetic =>
    have hheader := congrArg RunRecord.trigger (withStep_header m.run k f)
    exact h.congr (by simp) hheader (sameSteps_withStep _ _ cosmetic) fun i => by simp
  | mark error stopped endedAt => exact h.congr rfl rfl (sameSteps_of_eq rfl) fun _ => rfl
  | ask timers effects calls isCall => exact h
  | evaluate here => exact h
  | doing here opened busy fits parked =>
    refine h.congr (by simp) (by simp) (sameSteps_of_eq (by simp)) fun i => ?_
    rw [setDoing_tokens]
    split
    · rw [Option.map_map]
      rfl
    · rfl
  | var name value => exact h.congr rfl rfl (sameSteps_of_eq rfl) fun _ => rfl
  | openStep held here unopened known room => exact h.openStep hfit here unopened room now
  | drop port here noJoin noSet => exact h.drop hfit here port now
  | join isJoin stays comes keeps closes => exact h.setJoin _ _
  | pass port here opened noJoin set => exact h.pass hfit here opened port now
  | passJoin port here opened isJoin first passed arrived alone =>
    have hset := hfit.setJoin (fun w i ha => .inl (arrived ▸ ha))
    exact (h.setJoin _ _).pass hset here opened port now

end

lemma goes_keeps_fit {now : Timestamp} {hand : Option Nat} {P : Moved → Prop}
    (hprim : ∀ m m' : Moved, Prim now hand m m' → Fit hand m.run → P m → P m') {r : Run} {m : Moved}
    (h : Goes now hand r m) (hfit : Fit hand r) (hr : P { run := r }) : P m :=
  (goes_keeps (P := fun m => Fit hand m.run ∧ P m)
    (fun m m' hp hm => ⟨fit_prim hp hm.1, hprim m m' hp hm.1 hm.2⟩) h ⟨hfit, hr⟩).2

lemma lifts_of_prim {env : Env} {A : Arm → Prop} {P : Run → Prop}
    (hstart : ∀ {flow : RuleId} {loaded : Loaded}, Known env A flow loaded →
      ∀ (id : ContextId) (firing : Firing) (now : Timestamp),
        P (launched id flow loaded firing now).run)
    (hprim : ∀ {now : Timestamp} {hand : Option Nat} {m m' : Moved}, Prim now hand m m' →
      Fit hand m.run → P m.run → P m'.run) :
    Lifts env A fun _ _ run _ => Fit none run ∧ P run where
  more _ h := h
  start hknown id firing now _ _ :=
    ⟨(fit_newRun none id _ _ firing now).leave _ _, hstart hknown id firing now⟩
  move h hm := ⟨fit_goes h.1 hm, goes_keeps_fit (P := fun m => P m.run)
    (fun _ _ hp hfit hP => hprim hp hfit hP) hm h.1 h.2⟩
  step h hm := ⟨(fit_goes (h.1.take _) hm.1).release hm.2, goes_keeps_fit (P := fun m => P m.run)
    (fun _ _ hp hfit hP => hprim hp hfit hP) hm.1 (h.1.take _) h.2⟩

/-- The flow a run is of is one the engine was handed, under its id and version. -/
def Belongs (env : Env) (A : Arm → Prop) (run : Run) : Prop :=
  ∃ arm : Arm, A arm ∧ run.flow = arm.flow ∧ arm.flow.id = run.record.flowId ∧
    run.record.version = arm.flow.version env

lemma belongs_prim {env : Env} {A : Arm → Prop} {now : Timestamp} {hand : Option Nat}
    {m m' : Moved} (hp : Prim now hand m m') (h : Belongs env A m.run) : Belongs env A m'.run := by
  obtain ⟨arm, harm, hflow, hid, hversion⟩ := h
  obtain ⟨hheader, hflow'⟩ := prim_header hp
  have hid' := congrArg RunRecord.flowId hheader
  have hversion' := congrArg RunRecord.version hheader
  exact ⟨arm, harm, hflow'.trans hflow, hid.trans hid'.symm, hversion'.trans hversion⟩

section

variable {env : Env} {A : Arm → Prop} {flow : RuleId} {loaded : Loaded}

lemma belongs_launched (h : Known env A flow loaded) (id : ContextId) (firing : Firing)
    (now : Timestamp) : Belongs env A (launched id flow loaded firing now).run := by
  obtain ⟨arm, harm, hflow, hid, hversion⟩ := h
  have hheader := launched_header id flow loaded firing now
  have hid' : (launched id flow loaded firing now).run.record.flowId = flow :=
    congrArg RunRecord.flowId hheader
  have hversion' : (launched id flow loaded firing now).run.record.version = loaded.version :=
    congrArg RunRecord.version hheader
  exact ⟨arm, harm, (leave_flow _ _ _).trans hflow, hid.trans hid'.symm, hversion'.trans hversion⟩

lemma traced_launched (id : ContextId) (flow : RuleId) (loaded : Loaded) (firing : Firing)
    (now : Timestamp) : Traced (launched id flow loaded firing now).run := by
  have hsteps : ∀ {i : Nat} {s : Step},
      (Engine.newRun id flow loaded firing now).record.steps[i]? = some s →
      i = 0 ∧ s.seq = 0 ∧ s.node = firing.trigger ∧ s.via = none ∧ s.finishedAt = some now ∧
        s.port = some .out := by
    intro i s hs
    simp only [Engine.newRun, List.getElem?_singleton] at hs
    split at hs
    · next hi =>
      rw [Option.some.injEq] at hs
      subst hs
      exact ⟨hi, rfl, rfl, rfl, rfl, rfl⟩
    · simp at hs
  have hnew : Traced (Engine.newRun id flow loaded firing now) := by
    refine ⟨by simp [Engine.newRun, maxSteps], ?_, ?_, by simp [Engine.newRun], ?_,
      by simp [Engine.newRun], ⟨_, rfl, rfl, rfl⟩, fun hs _ => (hsteps hs).1⟩
    · intro i s hs
      rw [(hsteps hs).1, (hsteps hs).2.1]
    · intro i s hs hopen
      rw [(hsteps hs).2.2.2.2.1] at hopen
      simp at hopen
    · intro i s w hs hvia
      rw [(hsteps hs).2.2.2.1] at hvia
      simp at hvia
  refine hnew.leave (fit_newRun none id flow loaded firing now) fun w hw => ?_
  obtain ⟨hmem, hsource⟩ := Flow.mem_wiresFrom.mp hw
  exact ⟨hmem, 0, _, by simp [Engine.newRun], rfl, by rw [hsource], by rw [hsource]⟩

structure Whole (flow : Flow) (record : RunRecord) : Prop where
  few : record.steps.length ≤ 256
  numbered : ∀ (i : Nat) (s : Step), record.steps[i]? = some s → s.seq = i
  finished : record.finishedAt.isSome
  ended : record.outcome.isSome
  closed : ∀ s ∈ record.steps, s.finishedAt.isSome
  trail : ∀ (i : Nat) (s : Step) (w : Wire), record.steps[i]? = some s → s.via = some w →
    w ∈ flow.wires ∧ ∃ (j : Nat) (s' : Step), j < i ∧ record.steps[j]? = some s' ∧
      s'.node = w.source.node ∧ s'.port = some w.source.port

lemma finalRecord_back {run : Run} {outcome : Option RunOutcome} {now : Timestamp} {i : Nat}
    {s' : Step} (hs : (run.finalRecord outcome now).steps[i]? = some s') :
    ∃ s : Step, run.record.steps[i]? = some s ∧ s'.seq = s.seq ∧ s'.via = s.via := by
  unfold Run.finalRecord at hs
  dsimp only at hs
  split at hs
  · rw [List.getElem?_map] at hs
    obtain ⟨s, hold, rfl⟩ := Option.map_eq_some_iff.mp hs
    refine ⟨s, hold, ?_⟩
    split <;> exact ⟨rfl, rfl⟩
  · exact ⟨s', hs, rfl, rfl⟩

lemma finalRecord_forth {run : Run} (outcome : Option RunOutcome) (now : Timestamp) {i : Nat}
    {s : Step} (hs : run.record.steps[i]? = some s) :
    ∃ s' : Step, (run.finalRecord outcome now).steps[i]? = some s' ∧ s'.node = s.node ∧
      s'.port = s.port := by
  unfold Run.finalRecord
  dsimp only
  split
  · rw [List.getElem?_map, hs]
    refine ⟨_, rfl, ?_⟩
    dsimp only
    split <;> exact ⟨rfl, rfl⟩
  · exact ⟨s, hs, rfl, rfl⟩

lemma finalRecord_length (run : Run) (outcome : Option RunOutcome) (now : Timestamp) :
    (run.finalRecord outcome now).steps.length = run.record.steps.length := by
  unfold Run.finalRecord
  dsimp only
  split
  · exact List.length_map _
  · rfl

lemma finalRecord_closed {run : Run} (h : Traced run) {outcome : Option RunOutcome}
    (ends : outcome = none → run.tokens.isEmpty) (now : Timestamp) :
    ∀ s ∈ (run.finalRecord outcome now).steps, s.finishedAt.isSome := by
  intro s hs
  unfold Run.finalRecord at hs
  dsimp only at hs
  split at hs
  · obtain ⟨s, -, rfl⟩ := List.mem_map.mp hs
    split
    · next hfinished => rw [hfinished]; rfl
    · rfl
  · next hnone =>
    have hempty := Std.ExtTreeMap.isEmpty_iff.mp (ends (by simpa using hnone))
    obtain ⟨i, hi⟩ := List.getElem?_of_mem hs
    by_contra hopen
    obtain ⟨t, ht, -⟩ := h.owned hi (by simpa using hopen)
    rw [hempty] at ht
    simp at ht

lemma whole_finalRecord {run : Run} (h : Traced run) {outcome : Option RunOutcome}
    (ends : outcome = none → run.tokens.isEmpty) (now : Timestamp) :
    Whole run.flow (run.finalRecord outcome now) where
  few := by
    rw [finalRecord_length]
    exact h.few
  numbered i s' hs' := by
    obtain ⟨s, hs, hseq, -⟩ := finalRecord_back hs'
    exact hseq.trans (h.numbered hs)
  finished := rfl
  ended := rfl
  closed := finalRecord_closed h ends now
  trail i s' w hs' hvia := by
    obtain ⟨s, hs, -, hsvia⟩ := finalRecord_back hs'
    obtain ⟨⟨hw, j, s₀, hj, hs₀, hnode, hport⟩, -⟩ := h.trail hs (hsvia.symm.trans hvia)
    obtain ⟨s₁, hs₁, hnode₁, hport₁⟩ := finalRecord_forth outcome now hs₀
    exact ⟨hw, j, s₁, hj, hs₁, hnode₁.trans hnode, hport₁.trans hport⟩

/-- The record of every run that has ended, however it did, is whole: of a flow the engine was
handed. -/
theorem finished_whole {ops : List Op} {e : Engine} (h : Reaches env ops e) {record : RunRecord}
    (hrecord : .finished record ∈ e.ledger.taken ++ e.effects) :
    ∃ arm : Arm, ArmedBy ops arm ∧ arm.flow.id = record.flowId ∧
      arm.flow.version env = record.version ∧ Whole arm.flow record := by
  have hlifts : Lifts env (ArmedBy ops) fun _ _ run _ =>
      Fit none run ∧ Belongs env (ArmedBy ops) run ∧ Traced run :=
    lifts_of_prim
      (fun hknown id firing now => ⟨belongs_launched hknown id firing now,
        traced_launched id _ _ firing now⟩)
      (fun hp hfit hP => ⟨belongs_prim hp hP.1, traced_prim hp hfit hP.2⟩)
  obtain ⟨_, _, run, _, outcome, now, ⟨-, ⟨arm, harm, hflow, hid, hversion⟩, htraced⟩, rfl, ends⟩ :=
    (reaches_holds hlifts h).ended hrecord
  exact ⟨arm, harm, hid, hversion.symm, hflow ▸ whole_finalRecord htraced ends now⟩

end

def greeting : Flow := Sample.flow (.named .single) [(Sample.started, .trigger .startup)] []

theorem finished_whole_greeting : ∃ (e : Engine) (record : RunRecord), record ∈ e.records ∧
    ∃ arm : Arm, ArmedBy [.setFlows [⟨greeting, []⟩] 0, .start 0] arm ∧
      arm.flow.id = record.flowId ∧ arm.flow.version (Sample.env []) = record.version ∧
      Whole arm.flow record := by
  have hruns : (Op.performAll (Sample.env []) 9 [.setFlows [⟨greeting, []⟩] 0, .start 0]
      (Engine.new false)).any (fun e => 0 < e.records.length) = true := by decide
  obtain ⟨e, he, hlength⟩ := (Option.any_eq_true _ _).mp hruns
  obtain ⟨record, hrecord⟩ := List.exists_mem_of_length_pos (of_decide_eq_true hlength)
  exact ⟨e, record, hrecord,
    finished_whole (reaches_performAll _ (.new false) he) (mem_records.mp hrecord)⟩

/-- A run that is going is of a flow the engine was handed, each of its steps came over a wire that
an earlier one left by, and each step still open is that of one token. -/
theorem running_traced {env : Env} {ops : List Op} {e : Engine} (h : Reaches env ops e)
    {id : ContextId} {run : Run} (hrun : e.runs[id]? = some run) :
    Belongs env (ArmedBy ops) run ∧ Traced run ∧
      ∀ (i : ℕ) (s : Step), run.record.steps[i]? = some s → s.finishedAt = none →
        ∃! k : ℕ, (run.tokens[k]?).bind Token.step = some i := by
  have hlifts : Lifts env (ArmedBy ops) fun _ _ run _ =>
      Fit none run ∧ Belongs env (ArmedBy ops) run ∧ Traced run :=
    lifts_of_prim
      (fun hknown id firing now => ⟨belongs_launched hknown id firing now,
        traced_launched id _ _ firing now⟩)
      (fun hp hfit hP => ⟨belongs_prim hp hP.1, traced_prim hp hfit hP.2⟩)
  obtain ⟨hfit, hbelongs, htraced⟩ := (reaches_holds hlifts h).runs hrun
  refine ⟨hbelongs, htraced, fun i s hs hopen => ?_⟩
  obtain ⟨t, ht, hstep⟩ := htraced.owned hs hopen
  refine ⟨s.token, Option.bind_eq_some_iff.mpr ⟨t, ht, hstep⟩, fun k hk => ?_⟩
  obtain ⟨other, hother, hi⟩ := Option.bind_eq_some_iff.mp hk
  obtain ⟨s', hs', htoken⟩ := hfit.own hother hi
  rw [hs] at hs'
  exact htoken.symm.trans (congrArg Step.token (Option.some.inj hs')).symm

def goingDark : Flow :=
  Sample.flow (.named .single)
    [(Sample.started, .trigger .startup), (Sample.dark, .delay ⟨"1m", Sample.minute_parses⟩)]
    [Sample.wire Sample.started .out Sample.dark]

theorem running_traced_goingDark : ∃ (e : Engine) (id : ContextId) (run : Run),
    e.runs[id]? = some run ∧
      Belongs (Sample.env []) (ArmedBy [.setFlows [⟨goingDark, []⟩] 0, .start 0]) run ∧
        Traced run := by
  have hruns : (Op.performAll (Sample.env []) 9 [.setFlows [⟨goingDark, []⟩] 0, .start 0]
      (Engine.new false)).any (fun e => 0 < e.runs.toList.length) = true := by decide
  obtain ⟨e, he, hlength⟩ := (Option.any_eq_true _ _).mp hruns
  obtain ⟨⟨id, run⟩, hentry⟩ := List.exists_mem_of_length_pos (of_decide_eq_true hlength)
  have hrun := Std.ExtTreeMap.mem_toList_iff_getElem?_eq_some.mp hentry
  have h := running_traced (reaches_performAll _ (.new false) he) hrun
  exact ⟨e, id, run, hrun, h.1, h.2.1⟩

end Irori.Proofs
