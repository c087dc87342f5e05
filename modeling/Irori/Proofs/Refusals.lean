import Irori.Proofs.Keys
import Irori.Home.Sample

/-!
# Refused operations

What a protocol is refused leaves the home as it was, except for a report that shows a skipped
version has been left behind: the skip is forgotten before the report is refused.
-/

namespace Irori.Proofs
open Irori Irori.Core

variable {κ σ : Type}

/-- A report of a newer version than the one passed over, for an update of the home, that is refused
for the call it names. -/
def ForgetsSkip (kinds : Kinds κ σ) (home : Home κ σ) : HomeOp κ σ → Prop
  | .reportState p report stamp =>
    let key : Key := ⟨p, report.uniqueId⟩
    (Home.cleaned report).validate kinds = .ok () ∧ home.foundEntities[key]? = none ∧
      ∃ (E : EntityId) (e : Entity κ) (update : UpdateState) (cause : ContextId),
        home.entityKeys[key]? = some E ∧ home.entities[E]? = some e ∧
        (Home.cleaned report).state = some (.update update) ∧
        kinds.fit e.capabilities (.update update) = .ok () ∧
        skipVerdict home.skipped[key]? update.latestVersion = .forgotten ∧
        report.causedBy = some cause ∧ home.knowsCall p cause stamp.now = false
  | _ => False

lemma skipVerdict_forgotten {skipped latest : Option String}
    (h : skipVerdict skipped latest = .forgotten) : skipped.isSome = true := by
  unfold skipVerdict at h
  split at h
  · cases h
  · next hsome => simpa [Option.isSome_iff_ne_none] using hsome

lemma foldUpdate_home (home : Home κ σ) (E : EntityId) (key : Key) (update : UpdateState) :
    (home.foldUpdate E key update).2 =
      if skipVerdict home.skipped[key]? update.latestVersion = .forgotten then
        { home with skipped := home.skipped.erase key, skipsChanged := true }
      else home := by
  unfold Home.foldUpdate fold
  dsimp only
  by_cases hverdict : skipVerdict home.skipped[key]? update.latestVersion = .forgotten
  · rw [if_pos hverdict, if_pos hverdict, if_pos]
    exact ⟨skipVerdict_forgotten hverdict, rfl⟩
  · rw [if_neg hverdict, if_neg hverdict, if_neg]
    rintro ⟨hsome, hnone⟩
    rw [Option.isNone_iff_eq_none] at hnone
    rw [hnone] at hsome
    cases hsome

lemma cleaned_causedBy (report : StateReport σ) :
    (Home.cleaned report).causedBy = report.causedBy ∧
      (Home.cleaned report).uniqueId = report.uniqueId := by
  unfold Home.cleaned
  split <;> exact ⟨rfl, rfl⟩

lemma foldReport_home (home : Home κ σ) (p : ProtocolId) (E : EntityId) (report : StateReport σ) :
    (home.foldReport p E report).1.causedBy = report.causedBy ∧
      ((home.foldReport p E report).2 = home ∨ ∃ update : UpdateState,
        report.state = some (.update update) ∧
        skipVerdict home.skipped[(⟨p, report.uniqueId⟩ : Key)]? update.latestVersion =
          .forgotten) := by
  unfold Home.foldReport
  split
  · next update hupdate =>
    refine ⟨rfl, ?_⟩
    have hhome := foldUpdate_home home E ⟨p, report.uniqueId⟩ update
    split at hhome
    · next hverdict => exact .inr ⟨update, hupdate, hverdict⟩
    · exact .inl hhome
  · exact ⟨rfl, .inl rfl⟩

section Reports

variable [DecidableEq σ] {kinds : Kinds κ σ} {home next : Home κ σ} {p : ProtocolId}
  {report : StateReport σ} {stamp : Stamp} {e : Rejected}

lemma reportLive_refused {E : EntityId} {entity : Entity κ} (hE : home.entities[E]? = some entity)
    (hrun : home.reportLive kinds p report stamp E = some (.error e, next)) :
    next = home ∨ ∃ (update : UpdateState) (cause : ContextId),
      report.state = some (.update update) ∧
        kinds.fit entity.capabilities (.update update) = .ok () ∧
        skipVerdict home.skipped[(⟨p, report.uniqueId⟩ : Key)]? update.latestVersion = .forgotten ∧
        report.causedBy = some cause ∧ home.knowsCall p cause stamp.now = false := by
  unfold Home.reportLive at hrun
  simp only [hE] at hrun
  split at hrun
  · cases hrun
    exact .inl rfl
  · next hfit =>
    obtain ⟨hcause, hhome⟩ := foldReport_home home p E report
    have hcalls : ∀ cause : ContextId,
        (home.foldReport p E report).2.knowsCall p cause stamp.now =
          home.knowsCall p cause stamp.now := by
      intro cause
      obtain ⟨s, m, k, x, heq, -⟩ := foldReport_restated home p E report
      rw [heq]
      rfl
    generalize home.foldReport p E report = folded at hcause hhome hcalls hrun
    obtain ⟨folded, mid⟩ := folded
    dsimp only at hcause hhome hcalls hrun
    split at hrun
    · next cause hnamed =>
      split at hrun
      · split at hrun <;> cases hrun
      · next hunknown =>
        cases hrun
        rw [hcalls, Bool.not_eq_true] at hunknown
        rcases hhome with rfl | ⟨update, hupdate, hverdict⟩
        · exact .inl rfl
        · rw [hupdate] at hfit
          exact .inr ⟨update, cause, hupdate, hfit, hverdict, hcause ▸ hnamed, hunknown⟩
    · split at hrun <;> cases hrun

lemma reportState_refused (h : Keyed home)
    (hrun : home.reportState kinds p report stamp = some (.error e, next)) :
    next = home ∨ ForgetsSkip kinds home (.reportState p report stamp) := by
  obtain ⟨hcause, huid⟩ := cleaned_causedBy report
  unfold Home.reportState at hrun
  dsimp only at hrun
  split at hrun
  · cases hrun
    exact .inl rfl
  · next hvalid =>
    split at hrun
    · cases hrun
    · next hfound =>
      split at hrun
      · cases hrun
        exact .inl rfl
      · next E hE =>
        obtain ⟨entity, hentity, -⟩ := h.entities.row hE
        rcases reportLive_refused hentity hrun with rfl | ⟨update, cause, hstate, hfit, hverdict,
          hnamed, hunknown⟩
        · exact .inl rfl
        · rw [huid] at hfound hE hverdict
          rw [hcause] at hnamed
          exact .inr ⟨hvalid, hfound, E, entity, update, cause, hE, hentity, hstate, hfit,
            hverdict, hnamed, hunknown⟩

lemma forgetsSkip_changes (hforgets : ForgetsSkip kinds home (.reportState p report stamp)) :
    ∃ (e : Rejected) (next : Home κ σ),
      home.reportState kinds p report stamp = some (.error e, next) ∧ next ≠ home := by
  obtain ⟨hcause, huid⟩ := cleaned_causedBy report
  obtain ⟨hvalid, hfound, E, entity, update, cause, hE, hentity, hstate, hfit, hverdict, hnamed,
    hunknown⟩ := hforgets
  rw [← huid] at hfound hE hverdict
  rw [← hcause] at hnamed
  have hhome := foldUpdate_home home E ⟨p, (Home.cleaned report).uniqueId⟩ update
  rw [if_pos hverdict] at hhome
  unfold Home.reportState
  simp only [hvalid, hfound, hE]
  unfold Home.reportLive Home.foldReport
  simp only [hentity, hstate, hfit, hnamed, hhome]
  rw [if_neg]
  · refine ⟨_, _, rfl, fun heq => ?_⟩
    have hskipped := congrArg
      (fun home : Home κ σ => home.skipped[(⟨p, (Home.cleaned report).uniqueId⟩ : Key)]?) heq
    have hsome := skipVerdict_forgotten hverdict
    rw [← hskipped] at hsome
    simp at hsome
  · rw [Bool.not_eq_true]
    exact hunknown

end Reports

section Described

variable {kinds : Kinds κ σ} {home next : Home κ σ} {p : ProtocolId} {e : Rejected}

lemma describeDevice_refused {said : DeviceDescription}
    (hrun : home.describeDevice kinds p said = some (.error e, next)) : next = home := by
  unfold Home.describeDevice at hrun
  split at hrun
  · cases hrun
    rfl
  · dsimp only at hrun
    split at hrun
    · cases hrun
    · split at hrun
      · cases hrun
        rfl
      · split at hrun
        · unfold Home.updateDevice at hrun
          split at hrun
          · cases hrun
            rfl
          · split at hrun
            · cases hrun
            · dsimp only at hrun
              split at hrun
              · cases hrun
              · split at hrun
                · cases hrun
                · obtain ⟨changes, -, heq⟩ := Option.map_eq_some_iff.mp hrun
                  cases heq
        · rw [Option.some.injEq] at hrun
          unfold Home.addDevice at hrun
          dsimp only at hrun
          split at hrun <;> cases hrun
          rfl

lemma describeEntity_refused [DecidableEq κ] {listed : List EntityKind}
    {said : EntityDescription κ} {stamp : Stamp}
    (hrun : home.describeEntity kinds p listed said stamp = some (.error e, next)) :
    next = home := by
  have hlive : ∀ device : Option Device,
      home.describeLive kinds p listed said stamp device = some (.error e, next) →
        next = home := by
    intro device hrun
    unfold Home.describeLive at hrun
    split at hrun
    · unfold Home.updateEntity at hrun
      split at hrun
      · cases hrun
      · split at hrun
        · cases hrun
          rfl
        · dsimp only at hrun
          split at hrun <;> cases hrun
    · unfold Home.addEntity at hrun
      split at hrun
      · split at hrun <;> cases hrun
      · cases hrun
  unfold Home.describeEntity at hrun
  split at hrun
  · cases hrun
    rfl
  · dsimp only at hrun
    split at hrun
    · cases hrun
      rfl
    · split at hrun
      · exact hlive _ hrun
      · split at hrun
        · cases hrun
        · split at hrun
          · cases hrun
            rfl
          · split at hrun
            · cases hrun
            · exact hlive _ hrun

lemma removeEntity_refused {u : UniqueId} (hrun : home.removeEntity p u = (.error e, next)) :
    next = home := by
  unfold Home.removeEntity at hrun
  dsimp only at hrun
  split at hrun
  · cases hrun
  · split at hrun <;> cases hrun
    rfl

lemma setAvailability_refused {target : AvailabilityTarget} {availability : Availability}
    {stamp : Stamp}
    (hrun : home.setAvailability p target availability stamp = (.error e, next)) :
    next = home := by
  unfold Home.setAvailability at hrun
  dsimp only at hrun
  split at hrun
  · split at hrun
    · cases hrun
    · split at hrun <;> cases hrun
      rfl
  · split at hrun
    · cases hrun
    · split at hrun <;> cases hrun
      rfl

end Described

variable [DecidableEq κ] [DecidableEq σ] (kinds : Kinds κ σ) {home : Home κ σ}

def skippedOps : List (HomeOp Sample.Ability Sample.On) :=
  [.describeDevice Sample.demo (Sample.described Sample.deviceA),
    .describeEntity Sample.demo [.update]
      (Sample.nameless Sample.relay Sample.deviceA .update) Sample.stamp,
    .reportState Sample.demo (Sample.offered "2" none) Sample.stamp,
    .skipUpdate Sample.updateId (systemContext Sample.stamp) Sample.stamp]

def unheard : HomeOp Sample.Ability Sample.On :=
  .reportState Sample.demo (Sample.offered "3" (some (ulid 0 7))) Sample.stamp

end Irori.Proofs
