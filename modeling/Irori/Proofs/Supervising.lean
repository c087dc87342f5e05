import Irori.Process.Supervise
import Mathlib.Algebra.Group.Nat.Defs

/-!
# Both loops by the same rules

The wait after a crash is the first one, doubled for each earlier crash that counts. It does as long
as changes are seen before they are undone. A process has to be luckier than a built-in: its loop
forgets that it ran long, doesn't look around while a greeting failed, and drops what it hasn't read
when the process is gone.
-/

namespace Irori.Process.Supervised
open Irori.Process

variable {σ μ : Type} [DecidableEq σ] {runner : Runner} {timing : Timing} {missing : σ → Bool}
  {d : Supervised σ μ} {seen : Look}

def backoff (timing : Timing) (earlier : Nat) : Nat :=
  min (timing.firstRetry * 2 ^ earlier) timing.maxRetry

/-- A start by the rules: never while turned off or stopping, with the settings there are, after the
wait there should be and only if there is no change to be seen, or at once because there is. -/
structure Start.Proper (timing : Timing) (first : Bool) (start : Start σ) : Prop where
  allowed : start.disabled = false ∧ start.stop = false ∧ start.startedWith = start.settings
  waited : ∀ wait, start.waited = some wait →
    start.changed = false ∧ 0 < start.crashes ∧ wait = backoff timing (start.crashes - 1)
  atOnce : start.waited = none → first = true ∨ start.changed = true

def rests (d : Supervised σ μ) (look : Look) : Bool :=
  match d.stage with
  | .running .. => false
  | .stopping _ _ grace => look.ended || decide (grace ≤ d.now)
  | .done => false
  | _ => true

/-- What was changed or turned on is started as the loop looks, if it may be. -/
def Prompt (runner : Runner) (timing : Timing) (missing : σ → Bool) (d : Supervised σ μ)
    (look : Look) : Prop :=
  d.changed = true → d.stop = false → d.disabled = false → missing d.settings = false →
    d.rests look = true → (d.look runner timing missing look).starts.length = d.starts.length + 1

structure Ruled (runner : Runner) (timing : Timing) (missing : σ → Bool) (d : Supervised σ μ) :
    Prop where
  starts : ∀ (i : Nat) (start : Start σ), d.starts[i]? = some start →
    Start.Proper timing (decide (i = 0)) start
  lost : d.lost = []
  prompt : ∀ look, Prompt runner timing missing d look

/-- What keeps the rules. Settings aren't changed back, and it isn't turned on again, before that is
seen, or where it isn't looked for. A run doesn't end on its own with a change of its settings
unseen. Of a process everything was read by then, and a long run had no crash to forget. -/
def Spares (runner : Runner) (timing : Timing) (d : Supervised σ μ) : Happening σ μ → Prop
  | .settings settings => settings ≠ d.settings →
    match d.stage with
    | .needsSetup startedWith => settings ≠ startedWith
    | .running startedWith _ => settings ≠ startedWith
    | .waiting startedWith _ => settings ≠ startedWith
    | .invalid startedWith => settings ≠ startedWith ∧ d.delay = timing.firstRetry
    | .greeting _ => False
    | _ => True
  | .turnedOn => d.disabled = true →
    match d.stage with
    | .off => True
    | .done => True
    | .running _ _ => d.delay = timing.firstRetry
    | .stopping _ _ _ => d.delay = timing.firstRetry
    | _ => False
  | .looks look =>
    match d.stage with
    | .running startedWith since => d.stop = false → look.ended = true →
      d.settings = startedWith ∧ (runner = .package →
        d.unread = [] ∧ (timing.healthyAfter ≤ d.now - since → d.delay = timing.firstRetry))
    | _ => True
  | _ => True

inductive Runs (runner : Runner) (timing : Timing) (missing : σ → Bool) : Supervised σ μ → Prop
  | start (settings : σ) (disabled : Bool) :
      Runs runner timing missing (.start timing settings disabled)
  | step {d : Supervised σ μ} (happening : Happening σ μ) : Runs runner timing missing d →
      Spares runner timing d happening →
        Runs runner timing missing (d.after runner timing missing happening)

lemma backoff_zero (timing : Timing) : backoff timing 0 = timing.firstRetry := by
  simp [backoff, timing.first_le]

lemma doubled_backoff (timing : Timing) (n : Nat) :
    doubled timing (backoff timing n) = backoff timing (n + 1) := by
  unfold doubled backoff
  rw [Nat.pow_succ, ← Nat.mul_assoc]
  generalize timing.firstRetry * 2 ^ n = wait
  omega

/-- How the delay, the crashes and the changes hang together wherever the loop waits. -/
def Counts (timing : Timing) (missing : σ → Bool) (d : Supervised σ μ) : Prop :=
  match d.stage with
  | .off => d.disabled = false → d.crashes = 0 ∧ (d.changed = true ∨ d.starts = [])
  | .needsSetup startedWith => missing startedWith = true ∧
      (d.settings ≠ startedWith → d.crashes = 0 ∧ d.changed = true)
  | .invalid startedWith => d.delay = backoff timing d.crashes ∧
      (d.settings ≠ startedWith ↔ d.changed = true)
  | .running startedWith _ => (d.settings = startedWith → d.delay = backoff timing d.crashes) ∧
      (d.settings ≠ startedWith → d.crashes = 0) ∧ (d.settings ≠ startedWith ↔ d.changed = true)
  | .stopping _ why _ =>
    match why with
    | .stopped => d.stop = true
    | .reconfigured => d.crashes = 0 ∧ d.changed = true
    | _ => d.disabled = false →
        d.crashes = 0 ∧ d.delay = timing.firstRetry ∧ d.changed = true
  | .waiting startedWith _ => (d.settings = startedWith →
        0 < d.crashes ∧ d.delay = backoff timing (d.crashes - 1)) ∧
      (d.settings ≠ startedWith → d.crashes = 0) ∧ (d.settings ≠ startedWith ↔ d.changed = true)
  | .greeting _ => 0 < d.crashes ∧ d.delay = backoff timing (d.crashes - 1) ∧ d.changed = false
  | .done => True

structure Keeps (timing : Timing) (missing : σ → Bool) (d : Supervised σ μ) : Prop where
  starts : ∀ (i : Nat) (start : Start σ), d.starts[i]? = some start →
    Start.Proper timing (decide (i = 0)) start
  lost : d.lost = []
  counts : Counts timing missing d

omit [DecidableEq σ] in
lemma Keeps.again (hstarts : ∀ (i : Nat) (start : Start σ), d.starts[i]? = some start →
      Start.Proper timing (decide (i = 0)) start) (hlost : d.lost = [])
    (hdelay : d.disabled = false → d.delay = backoff timing d.crashes) {waited : Option Nat}
    (hwaited : ∀ wait, waited = some wait →
      d.changed = false ∧ 0 < d.crashes ∧ wait = backoff timing (d.crashes - 1))
    (honce : waited = none → d.disabled = false → d.starts = [] ∨ d.changed = true) (begun : Begun) :
    Keeps timing missing (d.again runner missing waited begun) := by
  unfold Supervised.again
  split
  · next hdisabled =>
    refine ⟨hstarts, hlost, fun hon => ?_⟩
    exact absurd (hdisabled.symm.trans hon) (by simp)
  · next hdisabled =>
    rw [Bool.not_eq_true] at hdisabled
    split
    · exact ⟨hstarts, hlost, trivial⟩
    · next hstop =>
      split
      · next hmissing => exact ⟨hstarts, hlost, hmissing, fun hne => absurd rfl hne⟩
      · have hnew : ∀ (i : Nat) (start : Start σ), (d.starts ++ [⟨d.settings, d.settings,
            d.disabled, d.stop, waited, d.crashes, d.changed⟩])[i]? = some start →
              Start.Proper timing (decide (i = 0)) start := by
          intro i start hi
          rw [List.getElem?_append] at hi
          split at hi
          · exact hstarts i start hi
          · obtain ⟨hlt, rfl⟩ := List.getElem?_eq_some_iff.mp hi
            have hlast : i - d.starts.length = 0 := Nat.lt_one_iff.mp hlt
            simp only [hlast, List.getElem_cons_zero]
            refine ⟨⟨hdisabled, by simpa using hstop, rfl⟩, hwaited, fun hnone => ?_⟩
            refine (honce hnone hdisabled).imp_left fun hnil => ?_
            rw [hnil] at hlast
            simpa using hlast
        have hsame : d.settings ≠ d.settings ↔ false = true := by simp
        cases begun with
        | started => exact ⟨hnew, hlost, fun _ => hdelay hdisabled, fun hne => absurd rfl hne, hsame⟩
        | refused => exact ⟨hnew, hlost, hdelay hdisabled, hsame⟩
        | crashed =>
          cases runner with
          | builtIn =>
            exact ⟨hnew, hlost, fun _ => ⟨Nat.succ_pos _, hdelay hdisabled⟩,
              fun hne => absurd rfl hne, hsame⟩
          | package => exact ⟨hnew, hlost, Nat.succ_pos _, hdelay hdisabled, rfl⟩

omit [DecidableEq σ] in
lemma Keeps.ends (h : Keeps timing missing d) {startedWith : σ} {since : Nat}
    (hstage : d.stage = .running startedWith since) (hsettings : d.settings = startedWith)
    (hpackage : runner = .package →
      d.unread = [] ∧ (timing.healthyAfter ≤ d.now - since → d.delay = timing.firstRetry)) :
    Keeps timing missing (d.ends runner timing startedWith since) := by
  have hcounts := h.counts
  unfold Counts at hcounts
  rw [hstage] at hcounts
  obtain ⟨hdelay, -, hchanged⟩ := hcounts
  cases runner with
  | builtIn =>
    refine ⟨?_, ?_, ?_⟩
    · unfold Supervised.ends
      dsimp only
      split <;> exact h.starts
    · unfold Supervised.ends
      dsimp only
      split <;> exact (List.append_nil _).trans h.lost
    · unfold Supervised.ends
      dsimp only
      split
      · exact ⟨fun _ => ⟨Nat.succ_pos _, (backoff_zero timing).symm⟩,
          fun hne => absurd hsettings hne, hchanged⟩
      · exact ⟨fun _ => ⟨Nat.succ_pos _, hdelay hsettings⟩, fun hne => absurd hsettings hne,
          hchanged⟩
  | package =>
    obtain ⟨hread, hlong⟩ := hpackage rfl
    refine ⟨h.starts, ?_, fun _ => ⟨Nat.succ_pos _, ?_⟩, fun hne => absurd hsettings hne, hchanged⟩
    · show d.lost ++ d.unread = []
      rw [hread, List.append_nil, h.lost]
    · show d.delay = backoff timing ((if timing.healthyAfter ≤ d.now - since then 0
        else d.crashes) + 1 - 1)
      split
      · next hhealthy => exact (hlong hhealthy).trans (backoff_zero timing).symm
      · exact hdelay hsettings

omit [DecidableEq σ] in
lemma Keeps.leaves (h : Keeps timing missing d) {since grace : Nat} {why : Why}
    (hstage : d.stage = .stopping since why grace) (begun : Begun) :
    Keeps timing missing (d.leaves runner timing missing since why begun) := by
  have hcounts := h.counts
  unfold Counts at hcounts
  rw [hstage] at hcounts
  have hzero : d.crashes = 0 →
      (if timing.healthyAfter ≤ d.now - since then 0 else d.crashes) = 0 := by
    intro hcrashes
    split
    · rfl
    · exact hcrashes
  have hdelay : d.crashes = 0 → timing.firstRetry = backoff timing
      (if timing.healthyAfter ≤ d.now - since then 0 else d.crashes) := by
    intro hcrashes
    rw [hzero hcrashes, backoff_zero]
  have hstop : ∀ crashes, Keeps timing missing
      ({ d.close runner with crashes := crashes, stage := .done } : Supervised σ μ) := by
    intro crashes
    cases runner <;> exact ⟨h.starts, h.lost, trivial⟩
  have hrestart : d.crashes = 0 ∧ d.changed = true → Keeps timing missing
      (({ d.close runner with
          crashes := if timing.healthyAfter ≤ d.now - since then 0 else d.crashes
          delay := timing.firstRetry } : Supervised σ μ).again runner missing none begun) := by
    rintro ⟨hcrashes, hchanged⟩
    cases runner <;> refine Keeps.again ?_ ?_ ?_ ?_ ?_ begun
    iterate 2
      · exact h.starts
      · exact h.lost
      · exact fun _ => hdelay hcrashes
      · exact fun _ hno => (by cases hno)
      · exact fun _ _ => .inr hchanged
  have hon : (d.disabled = false → d.crashes = 0 ∧ d.delay = timing.firstRetry ∧
      d.changed = true) → Keeps timing missing
      (({ d.close runner with
          crashes := if timing.healthyAfter ≤ d.now - since then 0 else d.crashes } :
        Supervised σ μ).again runner missing none begun) := by
    intro hon
    cases runner <;> refine Keeps.again ?_ ?_ ?_ ?_ ?_ begun
    iterate 2
      · exact h.starts
      · exact h.lost
      · exact fun hoff => (hon hoff).2.1.trans (hdelay (hon hoff).1)
      · exact fun _ hno => (by cases hno)
      · exact fun _ hoff => .inr (hon hoff).2.2
  cases why with
  | stopped => exact hstop _
  | reconfigured => exact hrestart hcounts
  | disabled => exact hon hcounts
  | ended reason => exact hon hcounts

omit [DecidableEq σ] in
lemma Keeps.serve (h : Keeps timing missing d) (count : Nat) : Keeps timing missing (d.serve count) :=
  ⟨h.starts, h.lost, h.counts⟩

lemma Keeps.look (h : Keeps timing missing d) (hspares : Spares runner timing d (.looks seen)) :
    Keeps timing missing (d.look runner timing missing seen) := by
  have hcounts := h.counts
  unfold Counts at hcounts
  unfold Spares at hspares
  have hdone : Keeps timing missing { d with stage := .done } := ⟨h.starts, h.lost, trivial⟩
  -- Where it is started because its settings changed, the delay starts over.
  have hchange : d.crashes = 0 → d.changed = true → Keeps timing missing
      ({ d with delay := timing.firstRetry }.again runner missing none seen.begun) := by
    intro hcrashes hchanged
    refine Keeps.again ?_ ?_ (fun _ => ?_) ?_ ?_ seen.begun
    · exact h.starts
    · exact h.lost
    · show timing.firstRetry = backoff timing d.crashes
      rw [hcrashes, backoff_zero]
    · exact fun _ hno => (by cases hno)
    · exact fun _ _ => .inr hchanged
  -- Where it is found turned off, it isn't started.
  have hoff : d.disabled = true → Keeps timing missing (d.again runner missing none seen.begun) := by
    intro hdisabled
    have hnot : d.disabled = false → False := fun hon => by
      rw [hdisabled] at hon
      cases hon
    refine Keeps.again h.starts h.lost (fun hon => (hnot hon).elim) ?_
      (fun _ hon => (hnot hon).elim) seen.begun
    exact fun _ hno => (by cases hno)
  -- Where a wait ran out, the next one is twice as long.
  have hretry : 0 < d.crashes → d.delay = backoff timing (d.crashes - 1) → d.changed = false →
      Keeps timing missing ({ d with delay := doubled timing d.delay }.again runner missing
        (some d.delay) seen.begun) := by
    intro hcrashes hdelay hchanged
    refine Keeps.again ?_ ?_ (fun _ => ?_) (fun wait hwait => ?_) ?_ seen.begun
    · exact h.starts
    · exact h.lost
    · show doubled timing d.delay = backoff timing d.crashes
      rw [hdelay, doubled_backoff, Nat.sub_add_cancel hcrashes]
    · obtain rfl := Option.some.inj hwait
      exact ⟨hchanged, hcrashes, hdelay⟩
    · exact fun hno => (by cases hno)
  unfold Supervised.look
  cases hstage : d.stage with
  | off =>
    rw [hstage] at hcounts
    dsimp only at hcounts ⊢
    split
    · exact hdone
    · split
      · exact h
      · next hon =>
        rw [Bool.not_eq_true] at hon
        obtain ⟨hcrashes, honce⟩ := hcounts hon
        refine Keeps.again ?_ ?_ (fun _ => ?_) ?_ ?_ seen.begun
        · exact h.starts
        · exact h.lost
        · show timing.firstRetry = backoff timing d.crashes
          rw [hcrashes, backoff_zero]
        · exact fun _ hno => (by cases hno)
        · exact fun _ _ => honce.symm
  | needsSetup startedWith =>
    rw [hstage] at hcounts
    dsimp only at hcounts ⊢
    split
    · exact hdone
    · split
      · next hne => exact hchange (hcounts.2 hne).1 (hcounts.2 hne).2
      · split
        · next hdisabled => exact hoff hdisabled
        · exact h
  | invalid startedWith =>
    rw [hstage] at hcounts
    dsimp only at hcounts ⊢
    split
    · exact hdone
    · split
      · next hwhy =>
        refine Keeps.again h.starts h.lost (fun _ => hcounts.1) ?_
          (fun _ hon => .inr (hcounts.2.mp ?_)) seen.begun
        · exact fun _ hno => (by cases hno)
        · refine hwhy.resolve_right fun hdisabled => ?_
          rw [hdisabled] at hon
          cases hon
      · exact h
  | running startedWith since =>
    rw [hstage] at hcounts hspares
    dsimp only at hcounts hspares ⊢
    split
    · next hstop => exact ⟨h.starts, h.lost, hstop⟩
    · next hstop =>
      rw [Bool.not_eq_true] at hstop
      split
      · next hended =>
        obtain ⟨hsettings, hpackage⟩ := hspares hstop hended
        exact h.ends hstage hsettings hpackage
      · split
        · next hne => exact ⟨h.starts, h.lost, hcounts.2.1 hne, hcounts.2.2.mp hne⟩
        · split
          · next hdisabled =>
            refine ⟨h.starts, h.lost, fun hon => ?_⟩
            exact absurd (hdisabled.symm.trans hon) (by simp)
          · exact h.serve _
  | stopping since why grace =>
    dsimp only
    split
    · exact h.leaves hstage seen.begun
    · exact h.serve _
  | waiting startedWith until_ =>
    rw [hstage] at hcounts
    dsimp only at hcounts ⊢
    obtain ⟨hwait, hcrashes, hchanged⟩ := hcounts
    split
    · exact hdone
    · split
      · next hne => exact hchange (hcrashes hne) (hchanged.mp hne)
      · next heq =>
        split
        · next hdisabled => exact hoff hdisabled
        · split
          · obtain ⟨hpos, hdelay⟩ := hwait (not_not.mp heq)
            refine hretry hpos hdelay ?_
            rw [← Bool.not_eq_true]
            exact fun htrue => heq (hchanged.mpr htrue)
          · exact h
  | greeting until_ =>
    rw [hstage] at hcounts
    dsimp only at hcounts ⊢
    split
    · exact hdone
    · split
      · exact hretry hcounts.1 hcounts.2.1 hcounts.2.2
      · exact h
  | done => exact h

lemma Keeps.settings (h : Keeps timing missing d) {settings : σ}
    (hspares : Spares runner timing d (.settings settings)) :
    Keeps timing missing (d.after runner timing missing (.settings settings)) := by
  have hcounts := h.counts
  unfold Supervised.after
  dsimp only
  split
  · exact h
  · next hne =>
    have hspares := hspares hne
    refine ⟨h.starts, h.lost, ?_⟩
    unfold Counts at hcounts ⊢
    dsimp only
    cases hstage : d.stage with
    | off => exact fun _ => ⟨rfl, .inl rfl⟩
    | needsSetup startedWith =>
      rw [hstage] at hcounts
      exact ⟨hcounts.1, fun _ => ⟨rfl, rfl⟩⟩
    | invalid startedWith =>
      rw [hstage] at hspares
      exact ⟨hspares.2.trans (backoff_zero timing).symm, fun _ => rfl, fun _ => hspares.1⟩
    | running startedWith since =>
      rw [hstage] at hspares
      exact ⟨fun heq => absurd heq hspares, fun _ => rfl, fun _ => rfl, fun _ => hspares⟩
    | stopping since why grace =>
      rw [hstage] at hcounts
      cases why with
      | stopped => exact hcounts
      | reconfigured => exact ⟨rfl, rfl⟩
      | disabled => exact fun hon => ⟨rfl, (hcounts hon).2.1, rfl⟩
      | ended reason => exact fun hon => ⟨rfl, (hcounts hon).2.1, rfl⟩
    | waiting startedWith until_ =>
      rw [hstage] at hspares
      exact ⟨fun heq => absurd heq hspares, fun _ => rfl, fun _ => rfl, fun _ => hspares⟩
    | greeting until_ =>
      rw [hstage] at hspares
      exact hspares.elim
    | done => trivial

lemma Keeps.turnedOn (h : Keeps timing missing d) (hspares : Spares runner timing d .turnedOn) :
    Keeps timing missing (d.after runner timing missing .turnedOn) := by
  have hcounts := h.counts
  unfold Supervised.after
  dsimp only
  split
  · next hdisabled =>
    have hspares := hspares hdisabled
    refine ⟨h.starts, h.lost, ?_⟩
    unfold Counts at hcounts ⊢
    dsimp only
    cases hstage : d.stage with
    | off => exact fun _ => ⟨rfl, .inl (by simp [runs, hstage])⟩
    | running startedWith since =>
      rw [hstage] at hcounts hspares
      have hsame : (d.changed || !d.runs) = d.changed := by simp [runs, hstage]
      rw [hsame]
      exact ⟨fun _ => hspares.trans (backoff_zero timing).symm, fun _ => rfl, hcounts.2.2⟩
    | stopping since why grace =>
      rw [hstage] at hcounts hspares
      have hchanged : (d.changed || !d.runs) = true := by simp [runs, hstage]
      rw [hchanged]
      cases why with
      | stopped => exact hcounts
      | reconfigured => exact ⟨rfl, rfl⟩
      | disabled => exact fun _ => ⟨rfl, hspares, rfl⟩
      | ended reason => exact fun _ => ⟨rfl, hspares, rfl⟩
    | done => trivial
    | needsSetup startedWith =>
      rw [hstage] at hspares
      exact hspares.elim
    | invalid startedWith =>
      rw [hstage] at hspares
      exact hspares.elim
    | waiting startedWith until_ =>
      rw [hstage] at hspares
      exact hspares.elim
    | greeting until_ =>
      rw [hstage] at hspares
      exact hspares.elim
  · exact h

lemma Keeps.after (h : Keeps timing missing d) {happening : Happening σ μ}
    (hspares : Spares runner timing d happening) :
    Keeps timing missing (d.after runner timing missing happening) := by
  cases happening with
  | settings settings => exact h.settings hspares
  | turnedOff =>
    refine ⟨h.starts, h.lost, ?_⟩
    have hcounts := h.counts
    unfold Counts Supervised.after at *
    dsimp only
    cases hstage : d.stage with
    | off => exact fun hon => (by cases hon)
    | stopping since why grace =>
      rw [hstage] at hcounts
      cases why with
      | stopped => exact hcounts
      | reconfigured => exact hcounts
      | disabled => exact fun hon => (by cases hon)
      | ended reason => exact fun hon => (by cases hon)
    | needsSetup => rwa [hstage] at hcounts
    | invalid => rwa [hstage] at hcounts
    | running => rwa [hstage] at hcounts
    | waiting => rwa [hstage] at hcounts
    | greeting => rwa [hstage] at hcounts
    | done => trivial
  | turnedOn => exact h.turnedOn hspares
  | stopped =>
    refine ⟨h.starts, h.lost, ?_⟩
    have hcounts := h.counts
    unfold Counts Supervised.after at *
    dsimp only
    cases hstage : d.stage with
    | stopping since why grace =>
      rw [hstage] at hcounts
      cases why with
      | stopped => rfl
      | reconfigured => exact hcounts
      | disabled => exact hcounts
      | ended reason => exact hcounts
    | off => rwa [hstage] at hcounts
    | needsSetup => rwa [hstage] at hcounts
    | invalid => rwa [hstage] at hcounts
    | running => rwa [hstage] at hcounts
    | waiting => rwa [hstage] at hcounts
    | greeting => rwa [hstage] at hcounts
    | done => trivial
  | passes time => exact ⟨h.starts, h.lost, h.counts⟩
  | tells message =>
    unfold Supervised.after
    dsimp only
    split
    · exact ⟨h.starts, h.lost, h.counts⟩
    · exact h
  | looks seen => exact h.look hspares

omit [DecidableEq σ] in
lemma length_again (hdisabled : d.disabled = false) (hstop : d.stop = false)
    (hmissing : missing d.settings = false) (waited : Option Nat) (begun : Begun) :
    (d.again runner missing waited begun).starts.length = d.starts.length + 1 := by
  unfold Supervised.again
  rw [if_neg (by simp [hdisabled]), if_neg (by simp [hstop]), if_neg (by simp [hmissing])]
  cases begun <;> cases runner <;> exact List.length_append

omit [DecidableEq σ] in
lemma length_leaves (hdisabled : d.disabled = false) (hstop : d.stop = false)
    (hmissing : missing d.settings = false) {why : Why} (hwhy : why ≠ .stopped) (since : Nat)
    (begun : Begun) :
    (d.leaves runner timing missing since why begun).starts.length = d.starts.length + 1 := by
  have hrestart : ∀ (d' : Supervised σ μ), d'.disabled = d.disabled ∧ d'.stop = d.stop ∧
      d'.settings = d.settings ∧ d'.starts = d.starts →
        (d'.again runner missing none begun).starts.length = d.starts.length + 1 := by
    rintro d' ⟨hdisabled', hstop', hsettings', hstarts'⟩
    rw [← hstarts']
    exact length_again (hdisabled'.trans hdisabled) (hstop'.trans hstop)
      (by rw [hsettings', hmissing]) none begun
  unfold Supervised.leaves
  cases why with
  | stopped => exact absurd rfl hwhy
  | reconfigured => exact hrestart _ (by cases runner <;> exact ⟨rfl, rfl, rfl, rfl⟩)
  | disabled => exact hrestart _ (by cases runner <;> exact ⟨rfl, rfl, rfl, rfl⟩)
  | ended reason => exact hrestart _ (by cases runner <;> exact ⟨rfl, rfl, rfl, rfl⟩)

lemma Keeps.prompt (h : Keeps timing missing d) (seen : Look) :
    Prompt runner timing missing d seen := by
  intro hchanged hstop hdisabled hmissing hrests
  have hcounts := h.counts
  unfold Counts at hcounts
  unfold rests at hrests
  unfold Supervised.look
  cases hstage : d.stage with
  | off =>
    dsimp only
    rw [if_neg (by simp [hstop]), if_neg (by simp [hdisabled])]
    exact length_again (d := { d with delay := timing.firstRetry, stage := .off }) hdisabled hstop
      hmissing none seen.begun
  | needsSetup startedWith =>
    rw [hstage] at hcounts
    have hne : d.settings ≠ startedWith := by
      rintro rfl
      rw [hcounts.1] at hmissing
      cases hmissing
    dsimp only
    rw [if_neg (by simp [hstop]), if_pos hne]
    exact length_again (d := { d with delay := timing.firstRetry }) hdisabled hstop
      hmissing none seen.begun
  | invalid startedWith =>
    rw [hstage] at hcounts
    dsimp only
    rw [if_neg (by simp [hstop]), if_pos (.inl (hcounts.2.mpr hchanged))]
    exact length_again hdisabled hstop hmissing none seen.begun
  | running startedWith since =>
    rw [hstage] at hrests
    cases hrests
  | stopping since why grace =>
    rw [hstage] at hcounts hrests
    have hwhy : why ≠ .stopped := by
      rintro rfl
      rw [show d.stop = true from hcounts] at hstop
      cases hstop
    dsimp only
    rw [if_pos (by simpa using hrests)]
    exact length_leaves hdisabled hstop hmissing hwhy since seen.begun
  | waiting startedWith until_ =>
    rw [hstage] at hcounts
    dsimp only
    rw [if_neg (by simp [hstop]), if_pos (hcounts.2.2.mpr hchanged)]
    exact length_again (d := { d with delay := timing.firstRetry }) hdisabled hstop
      hmissing none seen.begun
  | greeting until_ =>
    rw [hstage] at hcounts
    rw [hcounts.2.2] at hchanged
    cases hchanged
  | done =>
    rw [hstage] at hrests
    cases hrests

lemma keeps_of_runs (h : Runs runner timing missing d) : Keeps timing missing d := by
  induction h with
  | start settings disabled =>
    exact ⟨fun _ _ hstart => (by cases hstart), rfl, fun _ => ⟨rfl, .inr rfl⟩⟩
  | step _ _ hspares ih => exact ih.after hspares

theorem ruled_of_runs (h : Runs runner timing missing d) : Ruled runner timing missing d :=
  ⟨(keeps_of_runs h).starts, (keeps_of_runs h).lost, (keeps_of_runs h).prompt⟩

def usual : Timing :=
  ⟨1000000000, 300000000000, 600000000000, 5000000000, by decide, by decide⟩

def afterAll (runner : Runner) (happenings : List (Happening Nat Nat)) : Supervised Nat Nat :=
  happenings.foldl (after runner usual fun _ => false) (.start usual 0 false)

def begins : Happening Nat Nat := .looks ⟨.started, false, 1⟩

def quits : Happening Nat Nat := .looks ⟨.started, true, 0⟩

def oneCrash : List (Happening Nat Nat) :=
  [begins, .tells 7, begins, quits, .passes 1000000000, begins]

theorem ruled_oneCrash : Ruled .package usual (fun _ => false) (afterAll .package oneCrash) := by
  refine ruled_of_runs ?_
  have hstart : Runs .package usual (fun _ => false) (.start usual 0 false : Supervised Nat Nat) :=
    .start 0 false
  have hheard := ((hstart.step begins trivial).step (.tells 7) trivial).step begins
    fun _ hended => (by cases hended)
  have hended := hheard.step quits fun _ _ => ⟨rfl, fun _ => ⟨rfl, fun _ => rfl⟩⟩
  exact (hended.step (.passes 1000000000) trivial).step begins trivial

def longRun : List (Happening Nat Nat) :=
  [begins, quits, .passes 1000000000, begins, .passes 600000000000, quits, .passes 2000000000,
    begins]

def secondThoughts : List (Happening Nat Nat) :=
  [begins, quits, .passes 1000000000, begins, .turnedOff, begins, .turnedOn, quits, quits,
    .passes 2000000000, begins]

/-- A process is waited for two seconds though it had run for ten minutes, a built-in though it had
been turned on since. And what a process said last is dropped. -/
theorem not_ruled :
    ¬ Ruled .package usual (fun _ => false) (afterAll .package longRun) ∧
      ¬ Ruled .builtIn usual (fun _ => false) (afterAll .builtIn secondThoughts) ∧
      ¬ Ruled .package usual (fun _ => false) (afterAll .package [begins, .tells 7, quits]) := by
  refine ⟨fun h => ?_, fun h => ?_, fun h => ?_⟩
  · have hwaited := (h.starts 2 _ rfl).waited _ rfl
    exact absurd hwaited.2.2 (by decide)
  · have hwaited := (h.starts 3 _ rfl).waited _ rfl
    exact absurd hwaited.2.2 (by decide)
  · exact absurd h.lost (by decide)

end Irori.Process.Supervised
