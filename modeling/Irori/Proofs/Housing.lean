import Irori.Proofs.Keys
import Irori.Proofs.Integrity

/-!
# Homes in order

In every home there can be, each device, entity and state is kept under its own id, and each device
is in the room a person put it in, or else the one it asked for.
-/

namespace Irori.Proofs
open Irori Irori.Core

variable {κ σ : Type}

/-- Every state is kept under its entity's id. -/
def Stated (home : Home κ σ) : Prop :=
  ∀ (E : EntityId) (s : Core.EntityState σ), home.states[E]? = some s → s.entityId = E

lemma Stated.congr {home next : Home κ σ} (h : Stated home) (hstates : next.states = home.states) :
    Stated next := by
  intro E s hs
  rw [hstates] at hs
  exact h E s hs

lemma Stated.insert {home next : Home κ σ} (h : Stated home) {E : EntityId}
    {new : Core.EntityState σ} (hstates : next.states = home.states.insert E new)
    (hnew : new.entityId = E) : Stated next := by
  intro X s hs
  rw [hstates, Map.get_insert] at hs
  split at hs
  · next hsame =>
    cases hs
    exact hnew.trans hsame
  · exact h X s hs

lemma setAvailabilityOf1_stated {home : Home κ σ} (h : Stated home) (availability : Availability)
    (now : Timestamp) (context : Core.Context) (reported : Reported) (E : EntityId) :
    Stated (home.setAvailabilityOf1 availability now context reported E).2 := by
  unfold Home.setAvailabilityOf1
  split
  · exact h
  · next old hold =>
    have hE := h E old hold
    split
    · dsimp only
      split
      · exact h.insert rfl hE
      · exact h
    · exact h.insert rfl hE

lemma setAvailabilityOf_stated {home : Home κ σ} (h : Stated home) (ids : List EntityId)
    (availability : Availability) (now : Timestamp) (context : Core.Context)
    (reported : Reported) :
    Stated (home.setAvailabilityOf ids availability now context reported).2 := by
  refine Home.setAvailabilityOf_induct (motive := fun changes => Stated changes.2) h
    fun changes E _ h => ?_
  exact setAvailabilityOf1_stated h availability now context reported E

lemma setAvailability_stated {home : Home κ σ} (h : Stated home) (p : ProtocolId)
    (target : AvailabilityTarget) (availability : Availability) (stamp : Stamp) :
    Stated (home.setAvailability p target availability stamp).2 := by
  unfold Home.setAvailability
  dsimp only
  split
  · split
    · exact h.congr rfl
    · split
      · exact h
      · exact setAvailabilityOf_stated h _ _ _ _ _
  · split
    · exact h
    · split
      · exact h
      · exact setAvailabilityOf_stated h _ _ _ _ _

lemma forgetMisfit_stated {home : Home κ σ} (h : Stated home) (kinds : Kinds κ σ) {E : EntityId}
    (capabilities : κ) {old : Core.EntityState σ} (hold : old.entityId = E) (stamp : Stamp) :
    Stated (home.forgetMisfit kinds E capabilities old stamp).2 := by
  unfold Home.forgetMisfit
  split
  · exact h
  · split
    · exact h
    · exact h.insert rfl hold

lemma changeUpdate_stated {home : Home κ σ} (h : Stated home) (E : EntityId)
    (context : Core.Context) (stamp : Stamp) (change : UpdateState → UpdateState) :
    Stated (home.changeUpdate E context stamp change).2 := by
  unfold Home.changeUpdate
  split
  · exact h
  · next old hold =>
    have hE := h E old hold
    split
    · dsimp only
      split
      · exact h
      · exact h.insert rfl hE
    · exact h

lemma skipUpdate_stated {home : Home κ σ} (h : Stated home) (E : EntityId)
    (context : Core.Context) (stamp : Stamp) : Stated (home.skipUpdate E context stamp).2 := by
  unfold Home.skipUpdate
  dsimp only
  split
  · exact h
  · split
    · exact h
    · split
      · exact h
      · exact h
      · exact changeUpdate_stated (by exact h.congr rfl) _ _ _ _

lemma clearSkippedUpdate_stated {home : Home κ σ} (h : Stated home) (E : EntityId)
    (context : Core.Context) (stamp : Stamp) :
    Stated (home.clearSkippedUpdate E context stamp).2 := by
  unfold Home.clearSkippedUpdate
  split
  · exact h
  · exact changeUpdate_stated (by exact h.congr rfl) _ _ _ _

section Reports

variable [DecidableEq σ] {kinds : Kinds κ σ} {home next : Home κ σ} {p : ProtocolId}
  {result : Except Rejected (List (Event κ σ))}

lemma keepReport_stated (h : Stated home) (p : ProtocolId) (report : StateReport σ)
    (parent : Option ContextId) (stamp : Stamp) {E : EntityId} {old : Core.EntityState σ}
    (hold : old.entityId = E) : Stated (home.keepReport p report parent stamp E old).2 := by
  unfold Home.keepReport
  dsimp only
  split
  · refine h.insert rfl ?_
    split
    · exact hold
    · exact hold
  · split
    · exact h.insert rfl hold
    · exact h.insert rfl hold

lemma reportLive_stated (h : Stated home) {report : StateReport σ} {stamp : Stamp} {E : EntityId}
    (hrun : home.reportLive kinds p report stamp E = some (result, next)) : Stated next := by
  unfold Home.reportLive at hrun
  split at hrun
  · cases hrun
  · split at hrun
    · cases hrun
      exact h
    · have hfold : Stated (home.foldReport p E report).2 := h.congr (foldReport_states home p E report)
      generalize home.foldReport p E report = folded at hfold hrun
      obtain ⟨report, mid⟩ := folded
      dsimp only at hfold hrun
      split at hrun
      · split at hrun
        · split at hrun
          · cases hrun
          · next old hold =>
            cases hrun
            exact keepReport_stated hfold _ _ _ _ (hfold E old hold)
        · cases hrun
          exact hfold
      · split at hrun
        · cases hrun
        · next old hold =>
          cases hrun
          exact keepReport_stated hfold _ _ _ _ (hfold E old hold)

lemma reportState_stated (h : Stated home) {report : StateReport σ} {stamp : Stamp}
    (hrun : home.reportState kinds p report stamp = some (result, next)) : Stated next := by
  unfold Home.reportState at hrun
  dsimp only at hrun
  split at hrun
  · cases hrun
    exact h
  · split at hrun
    · cases hrun
      exact h.congr rfl
    · split at hrun
      · cases hrun
        exact h
      · exact reportLive_stated h hrun

end Reports

/-- A device is in the room a person put it in, or else the one it asked for. -/
def AtPlace (kinds : Kinds κ σ) (home : Home κ σ) (D : DeviceId) : Prop :=
  ∀ d : Device, home.devices[D]? = some d → d.areaId = home.areaForDevice kinds D d.suggestedArea

/-- The devices of `S` are where they should be, and every state is kept under its entity's id. -/
structure Housed (S : DeviceId → Prop) (kinds : Kinds κ σ) (home : Home κ σ) : Prop where
  placed : ∀ D : DeviceId, S D → AtPlace kinds home D
  stated : Stated home

section Steps

variable {S : DeviceId → Prop} {kinds : Kinds κ σ} {home next : Home κ σ} {p : ProtocolId}
  {result : Except Rejected (List (Event κ σ))}

lemma AtPlace.congr {D : DeviceId} (h : AtPlace kinds home D)
    (hdevices : next.devices[D]? = home.devices[D]?) (hsettings : next.settings = home.settings) :
    AtPlace kinds next D := by
  intro d hd
  rw [hdevices] at hd
  unfold Home.areaForDevice
  rw [hsettings]
  exact h d hd

lemma Housed.congr (h : Housed S kinds home) (hdevices : next.devices = home.devices)
    (hsettings : next.settings = home.settings) (hstated : Stated next) : Housed S kinds next :=
  ⟨fun D hD => (h.placed D hD).congr (by rw [hdevices]) hsettings, hstated⟩

lemma Housed.setDevice (h : Housed S kinds home) {D : DeviceId} {device : Device}
    (hdevices : next.devices = home.devices.insert D device)
    (hsettings : next.settings = home.settings) (hstates : next.states = home.states)
    (harea : device.areaId = home.areaForDevice kinds D device.suggestedArea) :
    Housed S kinds next := by
  refine ⟨fun X hX d hd => ?_, h.stated.congr hstates⟩
  unfold Home.areaForDevice
  rw [hsettings]
  rw [hdevices] at hd
  rcases Map.get_insert_some hd with ⟨rfl, rfl⟩ | ⟨_, hd⟩
  · exact harea
  · exact h.placed X hX d hd

lemma Housed.renamed (h : Housed S kinds home) (hnext : Renamed home next) : Housed S kinds next := by
  obtain ⟨entities, rfl, _⟩ := hnext
  exact h.congr rfl rfl h.stated

lemma Housed.restated (h : Housed S kinds home) (hnext : Restated home next) (hstated : Stated next) :
    Housed S kinds next := by
  obtain ⟨_, _, _, _, rfl, _⟩ := hnext
  exact h.congr rfl rfl hstated

lemma Housed.unsaid (h : Housed S kinds home) (hnext : Unsaid home next) (hstated : Stated next) :
    Housed S kinds next :=
  h.congr hnext.devices hnext.settings hstated

lemma updateDevice_housed (h : Housed S kinds home) {D : DeviceId} {said : DeviceDescription}
    {via : Option DeviceId} (hrun : home.updateDevice kinds D said via = some (result, next)) :
    Housed S kinds next := by
  unfold Home.updateDevice at hrun
  split at hrun
  · cases hrun
    exact h
  · split at hrun
    · cases hrun
    · next before _ =>
      dsimp only at hrun
      split at hrun
      · cases hrun
        exact h.setDevice rfl rfl rfl rfl
      · split at hrun
        · cases hrun
          exact h.setDevice rfl rfl rfl rfl
        · obtain ⟨changes, hchanges, heq⟩ := Option.map_eq_some_iff.mp hrun
          cases heq
          refine sweep_run (Housed S kinds) (fun E _ home changes hstep h => ?_) ?_ hchanges
          · exact h.renamed (renameEntity_run hstep)
          · exact h.setDevice rfl rfl rfl rfl

lemma describeDevice_housed (h : Housed S kinds home) {said : DeviceDescription}
    (hrun : home.describeDevice kinds p said = some (result, next)) : Housed S kinds next := by
  unfold Home.describeDevice at hrun
  split at hrun
  · cases hrun
    exact h
  · dsimp only at hrun
    split at hrun
    · cases hrun
      unfold Home.keepFound
      dsimp only
      split <;> exact h.congr rfl rfl (h.stated.congr rfl)
    · split at hrun
      · cases hrun
        exact h
      · split at hrun
        · exact updateDevice_housed h hrun
        · rw [Option.some.injEq] at hrun
          unfold Home.addDevice at hrun
          dsimp only at hrun
          split at hrun
          · cases hrun
            exact h
          · cases hrun
            exact h.setDevice rfl rfl rfl rfl

section Describing

variable [DecidableEq κ] {said : EntityDescription κ} {listed : List EntityKind} {stamp : Stamp}

lemma describeLive_housed (h : Housed S kinds home) {device : Option Device}
    (hrun : home.describeLive kinds p listed said stamp device = some (result, next)) :
    Housed S kinds next := by
  unfold Home.describeLive at hrun
  split at hrun
  · next E _ =>
    unfold Home.updateEntity at hrun
    split at hrun
    · cases hrun
    · split at hrun
      · cases hrun
        exact h
      · dsimp only at hrun
        split at hrun
        · next name old _ hold =>
          simp only [Option.some.injEq, Prod.mk.injEq] at hrun
          obtain ⟨-, rfl⟩ := hrun
          have hmid : ∀ (mid : Home κ σ) (capabilities : κ), Housed S kinds mid →
              mid.states[E]? = some old →
                Housed S kinds ((mid.forgetMisfit kinds E capabilities old stamp).2.setAvailabilityOf
                  [E] .available stamp.now (deviceContext p stamp none) .yes).2 := by
            intro mid capabilities h hold
            have hfits := h.restated (forgetMisfit_restated mid kinds capabilities hold stamp)
              (forgetMisfit_stated h.stated kinds capabilities (h.stated E old hold) stamp)
            exact hfits.restated (setAvailabilityOf_restated _ _ _ _ _ _)
              (setAvailabilityOf_stated hfits.stated _ _ _ _ _)
          exact hmid _ _ (by exact h.congr rfl rfl (h.stated.congr rfl)) hold
        · cases hrun
  · unfold Home.addEntity at hrun
    split at hrun
    · split at hrun
      · cases hrun
      · cases hrun
        exact h.congr rfl rfl (h.stated.insert rfl rfl)
    · cases hrun

lemma describeEntity_housed (h : Housed S kinds home)
    (hrun : home.describeEntity kinds p listed said stamp = some (result, next)) :
    Housed S kinds next := by
  unfold Home.describeEntity at hrun
  split at hrun
  · cases hrun
    exact h
  · dsimp only at hrun
    split at hrun
    · cases hrun
      exact h
    · split at hrun
      · exact describeLive_housed h hrun
      · split at hrun
        · cases hrun
          exact h.congr rfl rfl (h.stated.congr rfl)
        · split at hrun
          · cases hrun
            exact h
          · split at hrun
            · cases hrun
            · exact describeLive_housed h hrun

end Describing

lemma Stated.erase (h : Stated home) {E : EntityId} (hstates : next.states = home.states.erase E) :
    Stated next := by
  intro X s hs
  rw [hstates] at hs
  exact h X s (Map.get_erase_some hs).2

lemma removeEntity_housed (h : Housed S kinds home) (p : ProtocolId) (u : UniqueId) :
    Housed S kinds (home.removeEntity p u).2 := by
  unfold Home.removeEntity
  dsimp only
  split
  · exact h.congr rfl rfl (h.stated.congr rfl)
  · split
    · exact h
    · exact h.congr rfl rfl (h.stated.erase rfl)

lemma removeEntities_housed (es : List (Entity κ)) (h : Housed S kinds home) :
    Housed S kinds (Home.removeEntities es home).2 := by
  induction es generalizing home with
  | nil => exact h
  | cons e es ih =>
    have hmid := removeEntity_housed h e.protocol e.uniqueId
    rw [Home.removeEntities]
    split
    · next _ hremoved =>
      rw [hremoved] at hmid
      exact hmid
    · next _ hremoved =>
      rw [hremoved] at hmid
      exact ih hmid

lemma dropDevice_housed (h : Housed S kinds home) (D : DeviceId) :
    Housed S kinds (home.dropDevice D).2 := by
  refine ⟨fun X hX d hd => ?_, h.stated.congr rfl⟩
  obtain ⟨_, hd⟩ := Map.get_erase_some hd
  rw [Std.ExtTreeMap.getElem?_map, Option.map_eq_some_iff] at hd
  obtain ⟨before, hbefore, rfl⟩ := hd
  have hplaced := h.placed X hX before hbefore
  unfold Home.unreach
  split
  · exact hplaced
  · exact hplaced

lemma removeDevice_housed (h : Housed S kinds home) (p : ProtocolId) (u : UniqueId) :
    Housed S kinds (home.removeDevice p u).2 := by
  unfold Home.removeDevice
  dsimp only
  split
  · exact h.congr rfl rfl (h.stated.congr rfl)
  · split
    · exact h
    · next D _ =>
      have hmid : Housed S kinds { home with
          deviceKeys := home.deviceKeys.erase ⟨p, u⟩
          deviceDescriptions := home.deviceDescriptions.erase D } :=
        h.congr rfl rfl (h.stated.congr rfl)
      have hremoved := fun es => removeEntities_housed es hmid
      split
      · next heq => exact (congrArg (fun left => Housed S kinds left.2) heq).mp (hremoved _)
      · next heq =>
        have hleft := (congrArg (fun left => Housed S kinds left.2) heq).mp (hremoved _)
        exact dropDevice_housed hleft D

lemma hold_housed (h : Housed S kinds home) (D : DeviceId) : Housed S kinds (home.hold D).2 := by
  unfold Home.hold
  split
  · next device _ _ _ =>
    have hremoved := removeDevice_housed h device.protocol device.uniqueId
    exact hremoved.congr rfl rfl (hremoved.stated.congr rfl)
  · exact h

lemma refreshDevice_place {D : DeviceId} {changes : Changes κ σ}
    (hrun : home.refreshDevice kinds D = some changes) :
    AtPlace kinds changes.2 D ∧ (∀ X : DeviceId, AtPlace kinds home X → AtPlace kinds changes.2 X) ∧
      changes.2.states = home.states := by
  unfold Home.refreshDevice at hrun
  split at hrun
  · next reported device _ hD =>
    dsimp only at hrun
    split at hrun
    · next hsame =>
      cases hrun
      refine ⟨fun d hd => ?_, fun X hX => hX, rfl⟩
      rw [hD, Option.some.injEq] at hd
      rw [← hd, ← hsame]
    · cases hrun
      refine ⟨fun d hd => ?_, fun X hX d hd => ?_, rfl⟩
      · rcases Map.get_insert_some hd with ⟨-, rfl⟩ | ⟨hne, -⟩
        · rfl
        · exact absurd rfl hne
      · rcases Map.get_insert_some hd with ⟨rfl, rfl⟩ | ⟨-, hd⟩
        · rfl
        · exact hX d hd
  · cases hrun

lemma refreshDevices_housed {Ds : List DeviceId} {changes changes' : Changes κ σ}
    (hrun : sweep (fun id home => home.refreshDevice kinds id) Ds changes = some changes')
    (hstated : Stated changes.2)
    (hothers : ∀ X : DeviceId, X ∉ Ds → AtPlace kinds changes.2 X) : Housed S kinds changes'.2 := by
  induction Ds generalizing changes with
  | nil =>
    rw [sweep, Option.some.injEq] at hrun
    rw [← hrun]
    exact ⟨fun D _ => hothers D List.not_mem_nil, hstated⟩
  | cons D Ds ih =>
    rw [sweep] at hrun
    split at hrun
    · cases hrun
    · next more mid hmid =>
      obtain ⟨hat, hkeeps, hstates⟩ := refreshDevice_place hmid
      refine ih hrun (hstated.congr hstates) fun X hX => ?_
      by_cases hsame : X = D
      · rw [hsame]
        exact hat
      · exact hkeeps X (hothers X fun hmem => (List.mem_cons.mp hmem).elim hsame hX)

section Settings

variable [DecidableEq κ] [DecidableEq σ] {stamp : Stamp}

lemma admits_housed (S : DeviceId → Prop) (kinds : Kinds κ σ) (stamp : Stamp) :
    Admitting kinds stamp (Housed S kinds) where
  dropFound _ _ h := h.congr rfl rfl (h.stated.congr rfl)
  device h hrun := describeDevice_housed h hrun
  entity h hrun := describeEntity_housed h hrun
  report h hrun := h.unsaid (reportState_run hrun) (reportState_stated h.stated hrun)
  availability _ _ _ h := h.unsaid (setAvailability_unsaid _ _ _ _ _)
    (setAvailability_stated h.stated _ _ _ _)

lemma applySettings_housed (h : Housed (fun _ => True) kinds home) {settings : Settings}
    {changes : Changes κ σ} (hrun : home.applySettings kinds settings stamp = some changes) :
    Housed (fun _ => True) kinds changes.2 := by
  by_cases hsame : home.settings = settings
  · unfold Home.applySettings at hrun
    rw [if_pos hsame] at hrun
    cases hrun
    exact h
  · obtain ⟨held, admitted, devices, entities, hheld, hadmitted, hdevices, hentities, rfl⟩ :=
      applySettings_parts hrun hsame
    -- The devices are where the settings before had them, until they are refreshed.
    have hset : Housed (fun _ => False) kinds { home with settings } :=
      ⟨fun _ hD => hD.elim, h.stated.congr rfl⟩
    have hheld : Housed (fun _ => False) kinds held.2 := by
      refine sweep_run (Housed (fun _ => False) kinds) (fun D _ home changes hstep h => ?_) hset hheld
      cases hstep
      exact hold_housed h D
    have hadmitted : Housed (fun _ => False) kinds admitted.2 :=
      sweep_run (Housed (fun _ => False) kinds)
        (fun D _ home changes hstep h => (admits_housed _ kinds stamp).admitDevice h hstep) hheld hadmitted
    have hdevices : Housed (fun _ => True) kinds devices.2 := by
      refine refreshDevices_housed hdevices hadmitted.stated fun X hX d hd => absurd ?_ hX
      rw [Std.ExtTreeMap.mem_keys, Std.ExtTreeMap.mem_iff_isSome_getElem?, hd]
      rfl
    have hentities : Housed (fun _ => True) kinds entities.2 := by
      refine sweep_run (Housed (fun _ => True) kinds) (fun E _ home changes hstep h => ?_) hdevices
        hentities
      unfold Home.refreshEntity at hstep
      split at hstep
      · exact h.renamed (renameEntity_run hstep)
      · cases hstep
    exact hentities

end Settings

lemma removeProtocol_housed (h : Housed S kinds home) (p : ProtocolId) :
    Housed S kinds (home.removeProtocol p).2 :=
  removeProtocol_run (Housed S kinds) (fun p u h => removeDevice_housed h p u) h p

lemma forgetDevice_housed (h : Housed S kinds home) (D : DeviceId) :
    Housed S kinds (home.forgetDevice D).2 := by
  unfold Home.forgetDevice
  split
  · exact hold_housed h D
  · split <;> exact h

variable [DecidableEq κ] [DecidableEq σ]

lemma perform_housed (h : Housed (fun _ => True) kinds home) {op : HomeOp κ σ}
    (hrun : home.perform kinds op = some (result, next)) : Housed (fun _ => True) kinds next := by
  cases op with
  | describeDevice p said => exact describeDevice_housed h hrun
  | describeEntity p listed said stamp => exact describeEntity_housed h hrun
  | removeDevice p u => exact run_snd hrun ▸ removeDevice_housed h p u
  | removeEntity p u => exact run_snd hrun ▸ removeEntity_housed h p u
  | reportState p report stamp =>
    exact h.unsaid (reportState_run hrun) (reportState_stated h.stated hrun)
  | setAvailability p target availability stamp =>
    exact run_snd hrun ▸ h.unsaid (setAvailability_unsaid home p target availability stamp)
      (setAvailability_stated h.stated p target availability stamp)
  | markUnavailable p stamp =>
    exact run_snd hrun ▸ h.restated (setAvailabilityOf_restated home _ _ _ _ _)
      (setAvailabilityOf_stated h.stated _ _ _ _ _)
  | applySettings settings stamp =>
    obtain ⟨changes, hchanges, htold⟩ := Option.bind_eq_some_iff.mp hrun
    exact run_snd htold ▸ applySettings_housed h hchanges
  | forgetDevice D => exact run_snd hrun ▸ forgetDevice_housed h D
  | removeProtocol p => exact run_snd hrun ▸ removeProtocol_housed h p
  | skipUpdate E context stamp =>
    exact run_snd hrun ▸ h.restated (skipUpdate_restated home E context stamp)
      (skipUpdate_stated h.stated E context stamp)
  | clearSkippedUpdate E context stamp =>
    exact run_snd hrun ▸ h.restated (clearSkippedUpdate_restated home E context stamp)
      (clearSkippedUpdate_stated h.stated E context stamp)
  | beginUpdate E stamp =>
    exact run_snd hrun ▸ h.restated (changeUpdate_restated home E _ stamp _)
      (changeUpdate_stated h.stated E _ stamp _)
  | failUpdate E why stamp =>
    exact run_snd hrun ▸ h.restated (changeUpdate_restated home E _ stamp _)
      (changeUpdate_stated h.stated E _ stamp _)
  | recordCommand | forgetCommand | recordCall | forgetCall | skipsToStore | restoreSkips =>
    exact run_snd hrun ▸ h.congr rfl rfl (h.stated.congr rfl)

omit [DecidableEq κ] [DecidableEq σ] in
lemma housed_new : Housed (fun _ => True) kinds (Home.new : Home κ σ) := by
  refine ⟨fun D _ d hd => ?_, fun E s hs => ?_⟩
  · simp [Home.new] at hd
  · simp [Home.new] at hs

lemma comesTo_housed {Allowed : Home κ σ → HomeOp κ σ → Prop} (h : ComesTo kinds Allowed home) :
    Housed (fun _ => True) kinds home := by
  induction h with
  | new => exact housed_new
  | step op _ _ hrun ih => exact perform_housed ih hrun

end Steps

end Irori.Proofs
