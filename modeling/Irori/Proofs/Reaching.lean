import Irori.Home.Reach
import Irori.Proofs.Integrity
import Irori.Proofs.Keys

/-!
# A person's reach is up to date

Which changes of a home are told with an event that counts, and what a question can answer while
changes are made and published around it.
-/

namespace Irori.Proofs
open Irori Irori.Core

variable {κ σ : Type}

/-! ### Changes that nothing tells of -/

/-- None of the events means the registry changed. -/
def Uncounted (events : List (Event κ σ)) : Prop := ∀ event ∈ events, event.counts = false

lemma uncounted_append {events more : List (Event κ σ)} :
    Uncounted (events ++ more) ↔ Uncounted events ∧ Uncounted more := List.forall_mem_append

lemma not_uncounted {events : List (Event κ σ)} {event : Event κ σ} (h : event ∈ events)
    (hcounts : event.counts = true) : ¬ Uncounted events := fun hall => by
  rw [hall event h] at hcounts
  cases hcounts

def eventsOf (result : Except Rejected (List (Event κ σ))) : List (Event κ σ) :=
  result.toOption.getD []

/-- Nothing is different that says where things are. -/
structure Unmoved (a b : Home κ σ) : Prop where
  devices : b.devices = a.devices
  deviceKeys : b.deviceKeys = a.deviceKeys
  entities : b.entities = a.entities
  entityKeys : b.entityKeys = a.entityKeys
  settings : b.settings = a.settings

namespace Unmoved

variable {a b c : Home κ σ}

lemma refl (a : Home κ σ) : Unmoved a a := ⟨rfl, rfl, rfl, rfl, rfl⟩

lemma trans (hab : Unmoved a b) (hbc : Unmoved b c) : Unmoved a c :=
  ⟨hbc.devices.trans hab.devices, hbc.deviceKeys.trans hab.deviceKeys,
    hbc.entities.trans hab.entities, hbc.entityKeys.trans hab.entityKeys,
    hbc.settings.trans hab.settings⟩

lemma of_unsaid (h : Unsaid a b) : Unmoved a b :=
  ⟨h.devices, h.deviceKeys, h.entities, h.entityKeys, h.settings⟩

lemma of_restated (h : Restated a b) : Unmoved a b := of_unsaid h.unsaid

end Unmoved

lemma insert_same {α β : Type} [LinearOrder α] {m : Map α β} {k : α} {v : β}
    (h : m[k]? = some v) : m.insert k v = m := by
  refine Std.ExtTreeMap.ext_getElem? fun i => ?_
  rw [Map.get_insert]
  split
  · next heq => rw [← heq, h]
  · rfl

section

variable {kinds : Kinds κ σ} {home next : Home κ σ} {p : ProtocolId} {stamp : Stamp}
  {result : Except Rejected (List (Event κ σ))}

/-! ### What protocols say -/

lemma keepFound_stays (home : Home κ σ) (p : ProtocolId) (said : DeviceDescription) :
    Unmoved home (home.keepFound p said).2 := by
  unfold Home.keepFound
  dsimp only
  split <;> exact ⟨rfl, rfl, rfl, rfl, rfl⟩

lemma updateDevice_stays {D : DeviceId} {said : DeviceDescription} {via : Option DeviceId}
    (hrun : home.updateDevice kinds D said via = some (result, next))
    (hun : Uncounted (eventsOf result)) : Unmoved home next := by
  unfold Home.updateDevice at hrun
  split at hrun
  · cases hrun
    exact .refl home
  · split at hrun
    · cases hrun
    · next before hD =>
      dsimp only at hrun
      split at hrun
      · next hsame =>
        cases hrun
        refine ⟨?_, rfl, rfl, rfl, rfl⟩
        dsimp only
        rw [hsame]
        exact insert_same hD
      · split at hrun
        · cases hrun
          exact absurd hun (not_uncounted (List.mem_singleton_self _) rfl)
        · obtain ⟨changes, -, heq⟩ := Option.map_eq_some_iff.mp hrun
          cases heq
          exact absurd hun (not_uncounted List.mem_cons_self rfl)

lemma addDevice_stays {said : DeviceDescription} {via : Option DeviceId}
    (hrun : home.addDevice kinds p said via = (result, next))
    (hun : Uncounted (eventsOf result)) : (∃ e, result = .error e) ∧ next = home := by
  unfold Home.addDevice at hrun
  dsimp only at hrun
  split at hrun
  · cases hrun
    exact ⟨⟨_, rfl⟩, rfl⟩
  · cases hrun
    exact absurd hun (not_uncounted (List.mem_singleton_self _) rfl)

lemma describeDevice_stays {said : DeviceDescription}
    (hrun : home.describeDevice kinds p said = some (result, next))
    (hun : Uncounted (eventsOf result)) : Unmoved home next := by
  unfold Home.describeDevice at hrun
  split at hrun
  · cases hrun
    exact .refl home
  · dsimp only at hrun
    split at hrun
    · cases hrun
      exact keepFound_stays home p said
    · split at hrun
      · cases hrun
        exact .refl home
      · split at hrun
        · exact updateDevice_stays hrun hun
        · rw [Option.some.injEq] at hrun
          exact (addDevice_stays hrun hun).2 ▸ .refl home

section Describing

variable [DecidableEq κ] {said : EntityDescription κ} {listed : List EntityKind}

omit [DecidableEq κ] in
lemma addEntity_counts {device : Option Device}
    (hrun : home.addEntity kinds p listed said device stamp = some (result, next)) :
    ¬ Uncounted (eventsOf result) := by
  unfold Home.addEntity at hrun
  split at hrun
  · split at hrun
    · cases hrun
    · cases hrun
      exact not_uncounted List.mem_cons_self rfl
  · cases hrun

lemma updateEntity_stays {device : Option DeviceId} {E : EntityId}
    (hrun : home.updateEntity kinds p listed said device stamp E = some (result, next))
    (hun : Uncounted (eventsOf result)) : Unmoved home next := by
  unfold Home.updateEntity at hrun
  split at hrun
  · cases hrun
  · next before hE =>
    split at hrun
    · cases hrun
      exact .refl home
    · dsimp only at hrun
      split at hrun
      · next name old hname hold =>
        simp only [Option.some.injEq, Prod.mk.injEq] at hrun
        obtain ⟨rfl, rfl⟩ := hrun
        rw [eventsOf, Except.toOption, Option.getD_some, uncounted_append, uncounted_append] at hun
        obtain ⟨⟨hupdated, -⟩, -⟩ := hun
        refine Unmoved.trans ?_ ((Unmoved.of_restated (forgetMisfit_restated _ _ _ ?_ _)).trans
          (.of_restated (setAvailabilityOf_restated _ _ _ _ _ _)))
        · split at hupdated
          · next hsame =>
            refine ⟨rfl, rfl, ?_, rfl, rfl⟩
            dsimp only
            rw [hsame]
            exact insert_same hE
          · exact absurd hupdated (not_uncounted (List.mem_singleton_self _) rfl)
        · exact hold
      · cases hrun

lemma describeLive_stays {device : Option Device}
    (hrun : home.describeLive kinds p listed said stamp device = some (result, next))
    (hun : Uncounted (eventsOf result)) : Unmoved home next := by
  unfold Home.describeLive at hrun
  split at hrun
  · exact updateEntity_stays hrun hun
  · exact absurd hun (addEntity_counts hrun)

lemma describeEntity_stays
    (hrun : home.describeEntity kinds p listed said stamp = some (result, next))
    (hun : Uncounted (eventsOf result)) : Unmoved home next := by
  unfold Home.describeEntity at hrun
  split at hrun
  · cases hrun
    exact .refl home
  · dsimp only at hrun
    split at hrun
    · cases hrun
      exact .refl home
    · split at hrun
      · exact describeLive_stays hrun hun
      · split at hrun
        · cases hrun
          exact ⟨rfl, rfl, rfl, rfl, rfl⟩
        · split at hrun
          · cases hrun
            exact .refl home
          · split at hrun
            · cases hrun
            · exact describeLive_stays hrun hun

end Describing

/-! ### Removals -/

lemma removeEntity_stays (home : Home κ σ) (p : ProtocolId) (u : UniqueId)
    (hun : Uncounted (eventsOf (home.removeEntity p u).1)) :
    Unmoved home (home.removeEntity p u).2 := by
  unfold Home.removeEntity at hun ⊢
  dsimp only at hun ⊢
  split at hun
  · exact ⟨rfl, rfl, rfl, rfl, rfl⟩
  · split at hun
    · exact .refl home
    · exact absurd hun (not_uncounted (List.mem_singleton_self _) rfl)

structure Fewer (a b : Home κ σ) : Prop where
  found : ∀ (D : DeviceId) (f : Found κ σ), b.found[D]? = some f → a.found[D]? = some f
  foundEntities : ∀ (k : Key) (D : DeviceId),
    b.foundEntities[k]? = some D → a.foundEntities[k]? = some D

lemma Fewer.refl (a : Home κ σ) : Fewer a a := ⟨fun _ _ h => h, fun _ _ h => h⟩

lemma dropFound_fewer (home : Home κ σ) (p : ProtocolId) (D : DeviceId) (f : Found κ σ) :
    Fewer home (home.dropFound p D f) where
  found X g hg := (Map.get_erase_some hg).2
  foundEntities k X hk := by
    have hkey := get_foldl_erase p f.entities.keys home.foundEntities k
    rw [Home.dropFound] at hk
    rw [hkey] at hk
    split at hk
    · cases hk
    · exact hk

lemma removeDevice_stays (h : Keyed home) (p : ProtocolId) (u : UniqueId)
    (hun : Uncounted (eventsOf (home.removeDevice p u).1)) :
    eventsOf (home.removeDevice p u).1 = [] ∧ Unmoved home (home.removeDevice p u).2 ∧
      Fewer home (home.removeDevice p u).2 := by
  cases hresult : (home.removeDevice p u).1 with
  | error e =>
    rw [(removeDevice_keyed h p u).2 e hresult]
    exact ⟨rfl, .refl home, .refl home⟩
  | ok events =>
    rw [hresult] at hun
    unfold Home.removeDevice at hresult ⊢
    dsimp only at hresult ⊢
    split at hresult
    · next f hf =>
      cases hresult
      exact ⟨rfl, ⟨rfl, rfl, rfl, rfl, rfl⟩, dropFound_fewer home p _ f⟩
    · split at hresult
      · cases hresult
      · next D hD =>
        split at hresult
        · cases hresult
        · cases hresult
          refine absurd hun (not_uncounted (?_ : Event.deviceRemoved D ∈ _) rfl)
          exact List.mem_append_right _ (List.mem_append_right _ (List.mem_singleton_self _))

lemma removeProtocol_stays (h : Keyed home) (p : ProtocolId)
    (hun : Uncounted (home.removeProtocol p).1) : Unmoved home (home.removeProtocol p).2 := by
  have hfold : ∀ (us : List UniqueId) (changes : Changes κ σ), Keyed changes.2 →
      Uncounted (us.foldl (fun changes u =>
        (changes.1 ++ (changes.2.removeDevice p u).1.toOption.getD [],
          (changes.2.removeDevice p u).2)) changes).1 →
      Uncounted changes.1 ∧ Unmoved changes.2 (us.foldl (fun changes u =>
        (changes.1 ++ (changes.2.removeDevice p u).1.toOption.getD [],
          (changes.2.removeDevice p u).2)) changes).2 := by
    intro us
    induction us with
    | nil => exact fun changes _ hun => ⟨hun, .refl changes.2⟩
    | cons u us ih =>
      intro changes hkeyed hun
      obtain ⟨hmid, hstays⟩ := ih _ (removeDevice_keyed hkeyed p u).1 hun
      obtain ⟨hfirst, hdevice⟩ := uncounted_append.mp hmid
      exact ⟨hfirst, (removeDevice_stays hkeyed p u hdevice).2.1.trans hstays⟩
  exact (hfold _ ([], home) h hun).2

lemma foldl_holdEntity_protocol (home : Home κ σ) (es : List (Entity κ)) (f : Found κ σ) :
    (es.foldl home.holdEntity f).protocol = f.protocol := by
  induction es generalizing f with
  | nil => rfl
  | cons e es ih =>
    rw [List.foldl_cons, ih]
    unfold Home.holdEntity
    dsimp only
    split <;> split <;> rfl

/-- A device that is held without being taken out was not in the home, or its protocol found it
too. -/
lemma hold_stays (h : Keyed home) (D : DeviceId) (hun : Uncounted (home.hold D).1) :
    (home.hold D).1 = [] ∧ Unmoved home (home.hold D).2 ∧ ((home.hold D).2 = home ∨
      (∀ (X : DeviceId) (f : Found κ σ), (home.hold D).2.found[X]? = some f →
        (D ≠ X ∧ home.found[X]? = some f) ∨
          X = D ∧ ∃ d : Device, home.devices[D]? = some d ∧ d.protocol = f.protocol) ∧
      ∀ (k : Key) (X : DeviceId), (home.hold D).2.foundEntities[k]? = some X →
        home.foundEntities[k]? = some X ∨ X = D) := by
  unfold Home.hold at hun ⊢
  split at hun
  · next device said hD hsaid =>
    dsimp only at hun ⊢
    obtain ⟨hnone, hstays, hfewer⟩ :=
      removeDevice_stays h device.protocol device.uniqueId hun
    refine ⟨hnone, ⟨hstays.devices, hstays.deviceKeys, hstays.entities, hstays.entityKeys,
      hstays.settings⟩, .inr ⟨fun X f hf => ?_, fun k X hk => ?_⟩⟩
    · rcases Map.get_insert_some hf with ⟨rfl, rfl⟩ | ⟨hne, hf⟩
      · exact .inr ⟨rfl, device, hD, by rw [foldl_holdEntity_protocol]⟩
      · exact .inl ⟨hne, hfewer.found X f hf⟩
    · rw [get_foldl_insert] at hk
      split at hk
      · exact .inr (Option.some.inj hk).symm
      · exact .inl (hfewer.foundEntities k X hk)
  · exact ⟨rfl, .refl home, .inl rfl⟩

/-! ### Settings -/

lemma refreshDevice_stays {D : DeviceId} {changes : Changes κ σ}
    (hrun : home.refreshDevice kinds D = some changes) (hun : Uncounted changes.1) :
    changes = ([], home) := by
  unfold Home.refreshDevice at hrun
  split at hrun
  · dsimp only at hrun
    split at hrun
    · exact (Option.some.inj hrun).symm
    · cases hrun
      exact absurd hun (not_uncounted (List.mem_singleton_self _) rfl)
  · cases hrun

lemma refreshEntity_stays {E : EntityId} {changes : Changes κ σ}
    (hrun : home.refreshEntity E = some changes) (hun : Uncounted changes.1) :
    changes = ([], home) := by
  unfold Home.refreshEntity at hrun
  split at hrun
  · unfold Home.renameEntity at hrun
    split at hrun
    · split at hrun
      · exact (Option.some.inj hrun).symm
      · cases hrun
        exact absurd hun (not_uncounted (List.mem_singleton_self _) rfl)
    · cases hrun
  · cases hrun

lemma sweep_events {α : Type} {step : α → Home κ σ → Option (Changes κ σ)} {as : List α}
    {changes changes' : Changes κ σ} (hrun : sweep step as changes = some changes') :
    ∃ more : List (Event κ σ), changes'.1 = changes.1 ++ more := by
  induction as generalizing changes with
  | nil =>
    rw [sweep, Option.some.injEq] at hrun
    exact ⟨[], by rw [hrun, List.append_nil]⟩
  | cons a as ih =>
    rw [sweep] at hrun
    split at hrun
    · cases hrun
    · obtain ⟨more, hmore⟩ := ih hrun
      exact ⟨_, by rw [hmore, List.append_assoc]⟩

lemma sweep_uncounted {α : Type} {step : α → Home κ σ → Option (Changes κ σ)} {as : List α}
    (P : Changes κ σ → Prop) (hstep : ∀ a ∈ as, ∀ changes more : Changes κ σ, P changes →
      step a changes.2 = some more → Uncounted more.1 → P (changes.1 ++ more.1, more.2))
    {changes changes' : Changes κ σ} (h : P changes)
    (hrun : sweep step as changes = some changes') (hun : Uncounted changes'.1) : P changes' := by
  induction as generalizing changes with
  | nil =>
    rw [sweep, Option.some.injEq] at hrun
    exact hrun ▸ h
  | cons a as ih =>
    rw [sweep] at hrun
    split at hrun
    · cases hrun
    · next more next hnext =>
      obtain ⟨rest, hrest⟩ := sweep_events hrun
      have hmore : Uncounted more :=
        (uncounted_append.mp (uncounted_append.mp (hrest ▸ hun)).1).2
      exact ih (fun b hb => hstep b (List.mem_cons_of_mem _ hb))
        (hstep a List.mem_cons_self changes (more, next) h hnext hmore) hrun

lemma sweep_before {α : Type} {step : α → Home κ σ → Option (Changes κ σ)} {as : List α}
    {changes changes' : Changes κ σ} (hrun : sweep step as changes = some changes')
    (hun : Uncounted changes'.1) : Uncounted changes.1 := by
  obtain ⟨more, hmore⟩ := sweep_events hrun
  exact (uncounted_append.mp (hmore ▸ hun)).1

lemma quiet_told {outcome : Outcome κ σ} {changes : Changes κ σ}
    (h : outcome.quiet = some changes) :
    ∃ result : Except Rejected (List (Event κ σ)), outcome = some (result, changes.2) ∧
      eventsOf result = changes.1 := by
  unfold Outcome.quiet at h
  obtain ⟨⟨result, next⟩, hnext, rfl⟩ := Option.map_eq_some_iff.mp h
  exact ⟨result, hnext, rfl⟩

section Settings

variable [DecidableEq κ] [DecidableEq σ]

lemma admitDevice_stays {D : DeviceId} {changes : Changes κ σ}
    (hrun : home.admitDevice kinds D stamp = some changes) (hun : Uncounted changes.1) :
    Unmoved home changes.2 := by
  unfold Home.admitDevice at hrun
  split at hrun
  · cases hrun
    exact .refl home
  · next f hf =>
    obtain ⟨reported, hreported, rfl⟩ := Option.map_eq_some_iff.mp hrun
    obtain ⟨described, hdescribed, hreports⟩ := Option.bind_eq_some_iff.mp hreported
    obtain ⟨device, hdevice, hentities⟩ := Option.bind_eq_some_iff.mp hdescribed
    obtain ⟨result, hdescribe, htold⟩ := quiet_told hdevice
    have hunReports : Uncounted reported.1 := by
      dsimp only at hun
      split at hun
      · exact hun
      · exact (uncounted_append.mp hun).1
    have hunEntities := sweep_before hreports hunReports
    have hunDevice := sweep_before hentities hunEntities
    have hstart : Unmoved home (home.dropFound f.protocol D f) := ⟨rfl, rfl, rfl, rfl, rfl⟩
    have hlive := hstart.trans (describeDevice_stays hdescribe (htold ▸ hunDevice))
    have hwith : Unmoved home described.2 := by
      refine sweep_uncounted (fun changes => Unmoved home changes.2)
        (fun x _ changes more h hstep hmore => ?_) hlive hentities hunEntities
      obtain ⟨result, hstep, htold⟩ := quiet_told hstep
      exact h.trans (describeEntity_stays hstep (htold ▸ hmore))
    have hsaid : Unmoved home reported.2 := by
      refine sweep_uncounted (fun changes => Unmoved home changes.2)
        (fun x _ changes more h hstep hmore => ?_) hwith hreports hunReports
      obtain ⟨result, hstep, -⟩ := quiet_told hstep
      exact h.trans (.of_unsaid (reportState_run hstep))
    dsimp only
    split
    · exact hsaid
    · exact hsaid.trans (.of_unsaid (setAvailability_unsaid _ _ _ _ _))

lemma applySettings_stays (h : Keyed home) {settings : Settings} {changes : Changes κ σ}
    (hrun : home.applySettings kinds settings stamp = some changes) (hun : Uncounted changes.1) :
    Unmoved { home with settings } changes.2 := by
  by_cases hsame : home.settings = settings
  · unfold Home.applySettings at hrun
    rw [if_pos hsame] at hrun
    cases hrun
    exact ⟨rfl, rfl, rfl, rfl, hsame⟩
  · obtain ⟨held, admitted, devices, entities, hheld, hadmitted, hdevices, hentities, rfl⟩ :=
      applySettings_parts hrun hsame
    have hunEntities : Uncounted entities.1 := by
      dsimp only at hun
      split at hun
      · exact absurd hun (not_uncounted (List.mem_singleton_self _) rfl)
      · exact hun
    have hunDevices := sweep_before hentities hunEntities
    have hunAdmitted := sweep_before hdevices hunDevices
    have hunHeld := sweep_before hadmitted hunAdmitted
    have hset : Keyed { home with settings } := { h with }
    generalize ({ home with settings } : Home κ σ) = start at *
    have hheld := sweep_uncounted (fun changes => Unmoved start changes.2 ∧ Keyed changes.2)
      (fun D _ changes more h hstep hmore => by
        cases hstep
        exact ⟨h.1.trans (hold_stays h.2 D hmore).2.1, hold_keyed h.2 D⟩)
      ⟨.refl start, hset⟩ hheld hunHeld
    have hadmitted : Unmoved start admitted.2 := by
      refine sweep_uncounted (fun changes => Unmoved start changes.2)
        (fun D _ changes more h hstep hmore => ?_) hheld.1 hadmitted hunAdmitted
      have hone := admitDevice_stays hstep hmore
      exact h.trans hone
    have hdevices : Unmoved start devices.2 := by
      refine sweep_uncounted (fun changes => Unmoved start changes.2)
        (fun D _ changes more h hstep hmore => ?_) hadmitted hdevices hunDevices
      rw [refreshDevice_stays hstep hmore]
      exact h
    have hentities : Unmoved start entities.2 := by
      refine sweep_uncounted (fun changes => Unmoved start changes.2)
        (fun E _ changes more h hstep hmore => ?_) hdevices hentities hunEntities
      rw [refreshEntity_stays hstep hmore]
      exact h
    exact hentities

end Settings

/-! ### Every operation -/

def given (home : Home κ σ) : HomeOp κ σ → Home κ σ
  | .applySettings settings _ => { home with settings }
  | _ => home

lemma forgetDevice_stays (h : Keyed home) (D : DeviceId)
    (hun : Uncounted (eventsOf (home.forgetDevice D).1)) :
    Unmoved home (home.forgetDevice D).2 := by
  unfold Home.forgetDevice at hun ⊢
  by_cases hlive : home.devices.contains D = true
  · rw [if_pos hlive] at hun ⊢
    exact (hold_stays h D hun).2.1
  · rw [if_neg hlive]
    split <;> exact .refl home

lemma pair_some {pair : Except Rejected (List (Event κ σ)) × Home κ σ}
    (h : some pair = some (result, next)) : pair.1 = result ∧ pair.2 = next := by
  cases h
  exact ⟨rfl, rfl⟩

variable [DecidableEq κ] [DecidableEq σ]

lemma perform_stays (h : Keyed home) {op : HomeOp κ σ}
    (hrun : home.perform kinds op = some (result, next)) (hun : Uncounted (eventsOf result)) :
    Unmoved (given home op) next := by
  cases op with
  | describeDevice p said => exact describeDevice_stays hrun hun
  | describeEntity p listed said stamp => exact describeEntity_stays hrun hun
  | removeDevice p u =>
    obtain ⟨rfl, rfl⟩ := pair_some hrun
    exact (removeDevice_stays h p u hun).2.1
  | removeEntity p u =>
    obtain ⟨rfl, rfl⟩ := pair_some hrun
    exact removeEntity_stays home p u hun
  | reportState p report stamp => exact .of_unsaid (reportState_run hrun)
  | setAvailability p target availability stamp =>
    exact run_snd hrun ▸ .of_unsaid (setAvailability_unsaid home p target availability stamp)
  | markUnavailable p stamp =>
    exact run_snd hrun ▸ .of_restated (setAvailabilityOf_restated home _ _ _ _ _)
  | applySettings settings stamp =>
    obtain ⟨changes, hchanges, htold⟩ := Option.bind_eq_some_iff.mp hrun
    obtain ⟨rfl, rfl⟩ := pair_some htold
    exact applySettings_stays h hchanges hun
  | forgetDevice D =>
    obtain ⟨rfl, rfl⟩ := pair_some hrun
    exact forgetDevice_stays h D hun
  | removeProtocol p =>
    obtain ⟨rfl, rfl⟩ := pair_some hrun
    exact removeProtocol_stays h p hun
  | skipUpdate E context stamp =>
    exact run_snd hrun ▸ .of_restated (skipUpdate_restated home E context stamp)
  | clearSkippedUpdate E context stamp =>
    exact run_snd hrun ▸ .of_restated (clearSkippedUpdate_restated home E context stamp)
  | beginUpdate E stamp =>
    exact run_snd hrun ▸ .of_restated (changeUpdate_restated home E _ stamp _)
  | failUpdate E why stamp =>
    exact run_snd hrun ▸ .of_restated (changeUpdate_restated home E _ stamp _)
  | recordCommand | forgetCommand | recordCall | forgetCall | skipsToStore | restoreSkips =>
    exact run_snd hrun ▸ ⟨rfl, rfl, rfl, rfl, rfl⟩

end

/-! ### Settings that nothing is mixed up in -/

/-- Nothing of a found device is in the home: it is kept under the id it would have there, with
entities of its own, and none of its keys leads to anything in the home. -/
structure Outside (home : Home κ σ) (D : DeviceId) (f : Found κ σ) : Prop where
  id : deviceIdFor f.protocol f.description.uniqueId = D
  device : home.deviceKeys[(⟨f.protocol, f.description.uniqueId⟩ : Key)]? = none
  entity : ∀ x ∈ Map.vals f.entities,
    x.2.deviceUniqueId.map (deviceIdFor f.protocol) = some D ∧
      home.entityKeys[(⟨f.protocol, x.2.uniqueId⟩ : Key)]? = none
  report : ∀ report ∈ Map.vals f.reports,
    home.entityKeys[(⟨f.protocol, report.uniqueId⟩ : Key)]? = none
  own : ∀ k : Key, home.foundEntities[k]? = some D → k.protocol = f.protocol

/-- Nothing of a found device that the settings let in is in the home. -/
def AllOutside (home : Home κ σ) : Prop :=
  ∀ (D : DeviceId) (f : Found κ σ), home.found[D]? = some f →
    home.isHeld f.protocol D = false → Outside home D f

section

variable {kinds : Kinds κ σ} {home next : Home κ σ} {stamp : Stamp} {D : DeviceId} {f : Found κ σ}
  {result : Except Rejected (List (Event κ σ))}

lemma isHeld_settings {a b : Home κ σ} (h : b.settings = a.settings) (p : ProtocolId)
    (D : DeviceId) : b.isHeld p D = a.isHeld p D := by
  rw [Home.isHeld, Home.isHeld, h]

lemma Outside.stays (h : Outside home D f) (hnext : Unmoved home next)
    (hkeys : ∀ k : Key, next.foundEntities[k]? = some D → k.protocol = f.protocol) :
    Outside next D f where
  id := h.id
  device := by rw [hnext.deviceKeys, h.device]
  entity x hx := by
    rw [hnext.entityKeys]
    exact h.entity x hx
  report report hreport := by rw [hnext.entityKeys, h.report report hreport]
  own := hkeys

lemma AllOutside.fewer (h : AllOutside home) (hstays : Unmoved home next)
    (hfewer : Fewer home next) : AllOutside next := by
  intro X g hg hheld
  rw [isHeld_settings hstays.settings] at hheld
  have hout := h X g (hfewer.found X g hg) hheld
  exact hout.stays hstays fun k hk => hout.own k (hfewer.foundEntities k X hk)

lemma AllOutside.hold (h : AllOutside home) (hkeyed : Keyed home)
    (hheld : ∀ d : Device, home.devices[D]? = some d → home.isHeld d.protocol D = true)
    (hun : Uncounted (home.hold D).1) : AllOutside (home.hold D).2 := by
  obtain ⟨-, hstays, hsame | ⟨hfound, hkeys⟩⟩ := hold_stays hkeyed D hun
  · rwa [hsame]
  · intro X g hg hin
    rw [isHeld_settings hstays.settings] at hin
    rcases hfound X g hg with ⟨hne, hg⟩ | ⟨rfl, d, hd, hprotocol⟩
    · have hout := h X g hg hin
      exact hout.stays hstays fun k hk => hout.own k ((hkeys k X hk).resolve_right hne.symm)
    · have hheld := hheld d hd
      rw [hprotocol, hin] at hheld
      cases hheld

/-! Each thing a found device has is refused, or told of. -/

lemma describeDevice_outside (h : Outside home D f) (hheld : home.isHeld f.protocol D = false)
    (hnone : home.found[D]? = none)
    (hrun : home.describeDevice kinds f.protocol f.description = some (result, next))
    (hun : Uncounted (eventsOf result)) : eventsOf result = [] ∧ next = home := by
  unfold Home.describeDevice at hrun
  split at hrun
  · cases hrun
    exact ⟨rfl, rfl⟩
  · have hcontains : home.found.contains D = false := by
      rw [Std.ExtTreeMap.contains_eq_isSome_getElem?, hnone]
      rfl
    simp only [h.id, hheld, hcontains, Bool.or_self, Bool.false_eq_true, if_false, h.device] at hrun
    split at hrun
    · cases hrun
      exact ⟨rfl, rfl⟩
    · rw [Option.some.injEq] at hrun
      obtain ⟨⟨e, rfl⟩, rfl⟩ := addDevice_stays hrun hun
      exact ⟨rfl, rfl⟩

section Settings

variable [DecidableEq κ] [DecidableEq σ]

omit [DecidableEq σ] in
lemma describeEntity_outside (h : Outside home D f) (hnone : home.found[D]? = none)
    {x : List EntityKind × EntityDescription κ} (hx : x ∈ Map.vals f.entities)
    (hrun : home.describeEntity kinds f.protocol x.1 x.2 stamp = some (result, next))
    (hun : Uncounted (eventsOf result)) : eventsOf result = [] ∧ next = home := by
  obtain ⟨hdevice, hkey⟩ := h.entity x hx
  obtain ⟨u, hu, hD⟩ := Option.map_eq_some_iff.mp hdevice
  unfold Home.describeEntity at hrun
  split at hrun
  · cases hrun
    exact ⟨rfl, rfl⟩
  · dsimp only at hrun
    split at hrun
    · cases hrun
      exact ⟨rfl, rfl⟩
    · simp only [hu, hD, hnone] at hrun
      split at hrun
      · cases hrun
        exact ⟨rfl, rfl⟩
      · split at hrun
        · cases hrun
        · unfold Home.describeLive at hrun
          simp only [hkey] at hrun
          exact absurd hun (addEntity_counts hrun)

omit [DecidableEq κ] in
lemma reportState_outside (h : AllOutside home) (hout : Outside home D f)
    (hnone : home.found[D]? = none) {report : StateReport σ} (hreport : report ∈ Map.vals f.reports)
    (hrun : home.reportState kinds f.protocol { report with replayed := true } stamp =
      some (result, next)) :
    eventsOf result = [] ∧ AllOutside next ∧ next.found[D]? = none ∧
      next.foundEntities = home.foundEntities ∧ FoundLess home next := by
  have hcleaned : (Home.cleaned { report with replayed := true }).uniqueId = report.uniqueId := by
    unfold Home.cleaned
    split <;> rfl
  unfold Home.reportState at hrun
  dsimp only at hrun
  split at hrun
  · cases hrun
    exact ⟨rfl, h, hnone, rfl, .of_eq rfl⟩
  · rw [hcleaned] at hrun
    split at hrun
    · next X hX =>
      cases hrun
      refine ⟨rfl, ?_, ?_, rfl, ?_⟩
      · cases hg : home.found[X]? with
        | none => exact h
        | some g =>
          intro Y g' hg' hheld
          rcases Map.get_insert_some hg' with ⟨rfl, rfl⟩ | ⟨-, hg'⟩
          · -- The report came to a found device of the same protocol.
            have hout' := h X g hg hheld
            have hprotocol : f.protocol = g.protocol := hout'.own _ hX
            refine { hout' with report := fun other hother => ?_ }
            obtain ⟨u, hu⟩ := Map.mem_vals.mp hother
            rcases Map.get_insert_some hu with ⟨-, rfl⟩ | ⟨-, hu⟩
            · rw [← hout.report report hreport, ← hprotocol, ← hcleaned]
            · exact hout'.report other (Map.mem_vals.mpr ⟨u, hu⟩)
          · exact { h Y g' hg' hheld with }
      · cases hg : home.found[X]? with
        | none => exact hnone
        | some g =>
          dsimp only
          rw [Map.get_insert, if_neg, hnone]
          rintro rfl
          rw [hnone] at hg
          cases hg
      · cases hg : home.found[X]? with
        | none => exact .of_eq rfl
        | some g =>
          intro Y g' hg'
          rcases Map.get_insert_some hg' with ⟨rfl, rfl⟩ | ⟨-, hg'⟩
          · exact ⟨g, hg, rfl⟩
          · exact ⟨g', hg', rfl⟩
    · simp only [hout.report report hreport] at hrun
      cases hrun
      exact ⟨rfl, h, hnone, rfl, .of_eq rfl⟩

omit [DecidableEq κ] [DecidableEq σ] in
lemma setAvailability_outside (h : Outside home D f) (hnone : home.found[D]? = none)
    (availability : Availability) (stamp : Stamp) :
    ∃ e : Rejected, home.setAvailability f.protocol (.device f.description.uniqueId) availability
      stamp = (.error e, home) := by
  unfold Home.setAvailability
  simp only [h.id, hnone, h.device]
  exact ⟨_, rfl⟩

lemma admitDevice_outside (h : AllOutside home)
    (hheld : ∀ f : Found κ σ, home.found[D]? = some f → home.isHeld f.protocol D = false)
    {changes : Changes κ σ} (hrun : home.admitDevice kinds D stamp = some changes)
    (hun : Uncounted changes.1) :
    changes.1 = [] ∧ AllOutside changes.2 ∧ FoundLess home changes.2 := by
  unfold Home.admitDevice at hrun
  cases hf : home.found[D]? with
  | none =>
    rw [hf] at hrun
    cases hrun
    exact ⟨rfl, h, .of_eq rfl⟩
  | some f =>
    simp only [hf] at hrun
    obtain ⟨reported, hreported, rfl⟩ := Option.map_eq_some_iff.mp hrun
    obtain ⟨described, hdescribed, hreports⟩ := Option.bind_eq_some_iff.mp hreported
    obtain ⟨device, hdevice, hentities⟩ := Option.bind_eq_some_iff.mp hdescribed
    obtain ⟨result, hdescribe, htold⟩ := quiet_told hdevice
    have hunReports : Uncounted reported.1 := by
      split at hun
      · exact hun
      · exact (uncounted_append.mp hun).1
    have hunEntities := sweep_before hreports hunReports
    have hunDevice := sweep_before hentities hunEntities
    have hstays : Unmoved home (home.dropFound f.protocol D f) := ⟨rfl, rfl, rfl, rfl, rfl⟩
    have hfewer := dropFound_fewer home f.protocol D f
    have hnone : (home.dropFound f.protocol D f).found[D]? = none :=
      (Map.get_erase _ _ _).trans (if_pos rfl)
    have hless : FoundLess home (home.dropFound f.protocol D f) :=
      fun X g hg => ⟨g, hfewer.found X g hg, rfl⟩
    have hall := h.fewer hstays hfewer
    have hin : (home.dropFound f.protocol D f).isHeld f.protocol D = false := hheld f hf
    have hout : Outside (home.dropFound f.protocol D f) D f :=
      (h D f hf (hheld f hf)).stays hstays fun k hk =>
        (h D f hf (hheld f hf)).own k (hfewer.foundEntities k D hk)
    generalize home.dropFound f.protocol D f = start at *
    -- Its description and those of its entities are refused, so they change nothing.
    obtain ⟨hdeviceNone, hdeviceSame⟩ :=
      describeDevice_outside hout hin hnone hdescribe (htold ▸ hunDevice)
    have hdevice : device = ([], start) := Prod.ext (htold ▸ hdeviceNone) hdeviceSame
    have hwith : described = ([], start) := by
      refine sweep_uncounted (fun changes => changes = ([], start))
        (fun x hx changes more hchanges hstep hmore => ?_) hdevice hentities hunEntities
      subst hchanges
      obtain ⟨result, hstep, htold⟩ := quiet_told hstep
      obtain ⟨hempty, hsame⟩ := describeEntity_outside hout hnone hx hstep (htold ▸ hmore)
      rw [← htold, hempty, hsame]
      rfl
    -- Its reports are refused too, or kept for another found device.
    have hsaid : reported.1 = [] ∧ AllOutside reported.2 ∧ reported.2.found[D]? = none ∧
        Outside reported.2 D f ∧ FoundLess home reported.2 := by
      refine sweep_uncounted (fun changes => changes.1 = [] ∧ AllOutside changes.2 ∧
          changes.2.found[D]? = none ∧ Outside changes.2 D f ∧ FoundLess home changes.2)
        (fun x hx changes more hchanges hstep hmore => ?_) ?_ hreports hunReports
      · obtain ⟨hempty, hall, hnone, hout, hless⟩ := hchanges
        obtain ⟨result, hstep, htold⟩ := quiet_told hstep
        obtain ⟨hempty', hall', hnone', hkeys, hless'⟩ :=
          reportState_outside hall hout hnone hx hstep
        refine ⟨?_, hall', hnone', hout.stays (.of_unsaid (reportState_run hstep)) fun k hk => ?_,
          hless.trans hless'⟩
        · rw [hempty, ← htold, hempty']
          rfl
        · rw [hkeys] at hk
          exact hout.own k hk
      · rw [hwith]
        exact ⟨rfl, hall, hnone, hout, hless⟩
    obtain ⟨hempty, hall, hnone, hout, hless⟩ := hsaid
    split
    · exact ⟨hempty, hall, hless⟩
    · obtain ⟨e, he⟩ := setAvailability_outside hout hnone .unavailable stamp
      simp only [he]
      exact ⟨by rw [hempty]; rfl, hall, hless⟩

lemma applySettings_counts (h : Keyed home) {settings : Settings} (hne : home.settings ≠ settings)
    (hall : AllOutside { home with settings }) {changes : Changes κ σ}
    (hrun : home.applySettings kinds settings stamp = some changes) : ¬ Uncounted changes.1 := by
  intro hun
  obtain ⟨held, admitted, devices, entities, hheld, hadmitted, hdevices, hentities, rfl⟩ :=
    applySettings_parts hrun hne
  have hunEntities : Uncounted entities.1 := by
    dsimp only at hun
    split at hun
    · exact absurd hun (not_uncounted (List.mem_singleton_self _) rfl)
    · exact hun
  have hunDevices := sweep_before hentities hunEntities
  have hunAdmitted := sweep_before hdevices hunDevices
  have hunHeld := sweep_before hadmitted hunAdmitted
  have hset : Keyed { home with settings } := { h with }
  generalize ({ home with settings } : Home κ σ) = start at *
  have hheld : held.1 = [] ∧ AllOutside held.2 ∧ Unmoved start held.2 ∧ Keyed held.2 := by
    refine sweep_uncounted (fun changes => changes.1 = [] ∧ AllOutside changes.2 ∧
        Unmoved start changes.2 ∧ Keyed changes.2)
      (fun D hD changes more hchanges hstep hmore => ?_) ⟨rfl, hall, .refl start, hset⟩ hheld
      hunHeld
    cases hstep
    obtain ⟨hempty, hall, hstays, hkeyed⟩ := hchanges
    obtain ⟨hempty', hstays', -⟩ := hold_stays hkeyed D hmore
    refine ⟨?_, hall.hold hkeyed (fun d hd => ?_) hmore, hstays.trans hstays', hold_keyed hkeyed D⟩
    · rw [hempty, hempty']
      rfl
    · obtain ⟨⟨D', d'⟩, hd', rfl⟩ := List.mem_map.mp hD
      obtain ⟨hd', hheld⟩ := List.mem_filter.mp hd'
      have hd' := Std.ExtTreeMap.mem_toList_iff_getElem?_eq_some.mp hd'
      rw [hstays.devices, hd', Option.some.injEq] at hd
      rw [isHeld_settings hstays.settings, ← hd]
      exact hheld
  obtain ⟨hempty, hall, -, -⟩ := hheld
  have hadmitted : admitted.1 = [] ∧ AllOutside admitted.2 ∧ FoundLess held.2 admitted.2 ∧
      admitted.2.settings = held.2.settings := by
    refine sweep_uncounted (fun changes => changes.1 = [] ∧ AllOutside changes.2 ∧
        FoundLess held.2 changes.2 ∧ changes.2.settings = held.2.settings)
      (fun D hD changes more hchanges hstep hmore => ?_) ⟨hempty, hall, .of_eq rfl, rfl⟩ hadmitted
      hunAdmitted
    obtain ⟨hempty, hall, hless, hsettings⟩ := hchanges
    obtain ⟨⟨D', f⟩, hf, rfl⟩ := List.mem_map.mp hD
    obtain ⟨hf, hin⟩ := List.mem_filter.mp hf
    have hf := Std.ExtTreeMap.mem_toList_iff_getElem?_eq_some.mp hf
    have hlet : ∀ g : Found κ σ, changes.2.found[D']? = some g →
        changes.2.isHeld g.protocol D' = false := by
      intro g hg
      obtain ⟨g', hg', hprotocol⟩ := hless D' g hg
      rw [hf, Option.some.injEq] at hg'
      rw [isHeld_settings hsettings, ← hprotocol, ← hg']
      simpa using hin
    obtain ⟨hempty', hall', hless'⟩ := admitDevice_outside hall hlet hstep hmore
    refine ⟨?_, hall', hless.trans hless', ?_⟩
    · rw [hempty, hempty']
      rfl
    · exact (admitDevice_stays hstep hmore).settings.trans hsettings
  have hdevices : devices.1 = [] := by
    refine sweep_uncounted (fun changes => changes.1 = [])
      (fun D _ changes more hchanges hstep hmore => ?_) hadmitted.1 hdevices hunDevices
    rw [refreshDevice_stays hstep hmore, hchanges]
    rfl
  have hentities : entities.1 = [] := by
    refine sweep_uncounted (fun changes => changes.1 = [])
      (fun E _ changes more hchanges hstep hmore => ?_) hdevices hentities hunEntities
    rw [refreshEntity_stays hstep hmore, hchanges]
    rfl
  rw [hentities] at hun
  exact absurd hun (not_uncounted (List.mem_singleton_self _) rfl)

end Settings

end

/-! ### Rooms -/

structure SameRooms (home : Home κ σ) (settings : Settings) : Prop where
  areas : ∀ id : AreaId, (settings.area id).map Area.floorId =
    (home.settings.area id).map Area.floorId
  placed : ∀ (D : DeviceId) (d : Device), home.devices[D]? = some d →
    (settings.devices[d.id]?).bind (fun saved => saved.area.area) =
      (home.settings.devices[d.id]?).bind fun saved => saved.area.area

/-- Settings either leave every room as it is, or let nothing in the home that is partly in it
already. -/
def Unmixed (home : Home κ σ) : HomeOp κ σ → Prop
  | .applySettings settings _ => SameRooms home settings ∨ AllOutside { home with settings }
  | _ => True

section

variable {kinds : Kinds κ σ} {home next : Home κ σ}

lemma rooms_stays (h : Unmoved home next) (wanted : List AreaId) :
    Rooms.of next wanted = Rooms.of home wanted := by
  unfold Rooms.of Rooms.devicesIn
  rw [h.devices, h.entities, h.settings]

lemma rooms_same {settings : Settings} (h : SameRooms home settings) (wanted : List AreaId) :
    Rooms.of { home with settings } wanted = Rooms.of home wanted := by
  have hthere : ∀ id : AreaId, (settings.area id).isSome = (home.settings.area id).isSome := by
    intro id
    have harea := congrArg Option.isSome (h.areas id)
    rwa [Option.isSome_map, Option.isSome_map] at harea
  have hfloor : ∀ id : AreaId, (settings.area id).bind Area.floorId =
      (home.settings.area id).bind Area.floorId := by
    intro id
    have hjoin : ∀ o : Option Area, o.bind Area.floorId = (o.map Area.floorId).join := by
      intro o
      cases o <;> rfl
    rw [hjoin, hjoin, h.areas]
  have hareas : Rooms.areasOf settings wanted = Rooms.areasOf home.settings wanted := by
    unfold Rooms.areasOf
    simp only [hthere]
  have hdevices : ∀ areas : Finset AreaId,
      Rooms.devicesIn { home with settings } areas = Rooms.devicesIn home areas := by
    intro areas
    unfold Rooms.devicesIn
    refine congrArg (fun ds : List Device => (ds.map Device.id).toFinset)
      (List.filter_congr fun d hd => ?_)
    obtain ⟨D, hD⟩ := Map.mem_vals.mp hd
    rw [h.placed D d hD]
  unfold Rooms.of
  simp only [hareas, hdevices, hfloor]

lemma rooms_tidied (home : Home κ σ) (rooms : List AreaId) :
    Rooms.of home (Shared.tidied rooms) = Rooms.of home rooms := by
  have hmem : ∀ id : AreaId, id ∈ Shared.tidied rooms ↔ id ∈ rooms := by
    intro id
    rw [Shared.tidied, List.mem_dedup, List.mem_insertionSort]
  have hareas : (Rooms.areasOf home.settings (Shared.tidied rooms)).toFinset =
      (Rooms.areasOf home.settings rooms).toFinset := by
    ext id
    simp [Rooms.areasOf, hmem]
  have hfloors : ∀ f : AreaId → Option FloorId,
      ((Rooms.areasOf home.settings (Shared.tidied rooms)).filterMap f).toFinset =
        ((Rooms.areasOf home.settings rooms).filterMap f).toFinset := by
    intro f
    ext id
    simp [Rooms.areasOf, hmem]
  unfold Rooms.of
  simp only [hareas, hfloors]

variable [DecidableEq κ] [DecidableEq σ]

/-- A change of what is in some rooms is told of with an event that counts. -/
def TellsOf (kinds : Kinds κ σ) (home : Home κ σ) (op : HomeOp κ σ) : Prop :=
  ∀ (result : Except Rejected (List (Event κ σ))) (next : Home κ σ),
    home.perform kinds op = some (result, next) →
    (∃ wanted : List AreaId, Rooms.of next wanted ≠ Rooms.of home wanted) →
    ∃ event ∈ eventsOf result, event.counts = true

lemma tellsOf_of_unmixed (h : Keyed home) {op : HomeOp κ σ} (hop : Unmixed home op) :
    TellsOf kinds home op := by
  rintro result next hrun ⟨wanted, hne⟩
  by_contra hnone
  have hun : Uncounted (eventsOf result) := fun event hevent => by
    cases hcounts : event.counts with
    | false => rfl
    | true => exact absurd ⟨event, hevent, hcounts⟩ hnone
  have hsame := rooms_stays (perform_stays h hrun hun) wanted
  cases op with
  | applySettings settings stamp =>
    obtain ⟨changes, hchanges, htold⟩ := Option.bind_eq_some_iff.mp hrun
    obtain ⟨rfl, rfl⟩ := pair_some htold
    rcases hop with hrooms | hall
    · exact hne (hsame.trans (rooms_same hrooms wanted))
    · refine applySettings_counts h (fun heq => ?_) hall hchanges hun
      subst heq
      exact hne hsame
  | _ => exact hne hsame

end

/-! ### Questions among changes -/

/-- An answer is what is in the rooms of some home there was from a moment on. -/
def TrueSince (s : Shared κ σ) (moment : Nat) (wanted : List AreaId) (held : Rooms) : Prop :=
  ∃ (i : Nat) (home : Home κ σ),
    moment ≤ i ∧ s.homes[i]? = some home ∧ held = Rooms.of home wanted

/-- Every answer is what is in the rooms of some home there was at or after the last change that was
published before the question. -/
def UpToDate (s : Shared κ σ) : Prop :=
  ∀ (n : Nat) (rooms : List AreaId) (held : Rooms),
    s.questions n = some (.answered (Shared.tidied rooms) held) →
    TrueSince s (s.since n) rooms held

/-- What is known of a question, with the moments the revisions began at. -/
def Asks (s : Shared κ σ) (marks : Nat → Nat) (n : Nat) : Question → Prop
  | .asked _ => s.since n ≤ marks s.revision
  | .began _ revision | .looking _ revision =>
    revision ≤ s.revision ∧ s.since n ≤ marks revision
  | .keeping wanted revision held =>
    revision ≤ s.revision ∧ s.since n ≤ marks revision ∧ TrueSince s (marks revision) wanted held
  | .answered wanted held => TrueSince s (s.since n) wanted held

/-- What holds while changes and questions go on: each revision began at some moment, what is kept
for it is true since then, and no change that matters was published later than the last began. -/
structure Abreast (s : Shared κ σ) (marks : Nat → Nat) : Prop where
  keyed : Keyed s.home
  homes : s.homes[s.now]? = some s.home
  mark : ∀ r ≤ s.revision, marks r ≤ s.now
  published : ∀ wanted : List AreaId, s.published wanted ≤ marks s.revision
  reaches : ∀ (wanted : List AreaId) (r : Nat) (held : Rooms), s.reaches wanted = some (r, held) →
    r ≤ s.revision ∧ TrueSince s (marks r) wanted held
  questions : ∀ (n : Nat) (question : Question), s.questions n = some question →
    Asks s marks n question
  changes : ∀ (n : Nat) (change : Publishing κ σ), s.changes n = some change →
    change.counts = false → ∀ wanted : List AreaId, change.changed wanted = false

section

variable {kinds : Kinds κ σ} {s s' : Shared κ σ} {marks marks' : Nat → Nat}

lemma TrueSince.mono {moment moment' : Nat} {wanted : List AreaId} {held : Rooms}
    (h : TrueSince s moment wanted held) (hle : moment' ≤ moment)
    (hhomes : ∀ (i : Nat) (home : Home κ σ), s.homes[i]? = some home →
      s'.homes[i]? = some home) : TrueSince s' moment' wanted held := by
  obtain ⟨i, home, hi, hhome, rfl⟩ := h
  exact ⟨i, home, hle.trans hi, hhomes i home hhome, rfl⟩

lemma Asks.mono {n : Nat} {question : Question} (h : Asks s marks n question)
    (hrevision : s.revision ≤ s'.revision) (hmarks : ∀ r ≤ s.revision, marks' r = marks r)
    (hmark : marks s.revision ≤ marks' s'.revision) (hsince : s'.since n = s.since n)
    (hhomes : ∀ (i : Nat) (home : Home κ σ), s.homes[i]? = some home →
      s'.homes[i]? = some home) : Asks s' marks' n question := by
  cases question with
  | asked wanted =>
    change s'.since n ≤ _
    rw [hsince]
    exact le_trans h hmark
  | began wanted r | looking wanted r =>
    refine ⟨h.1.trans hrevision, ?_⟩
    rw [hsince, hmarks r h.1]
    exact h.2
  | keeping wanted r held =>
    obtain ⟨hr, hsinceLe, htrue⟩ := h
    refine ⟨hr.trans hrevision, ?_, ?_⟩
    · rw [hsince, hmarks r hr]
      exact hsinceLe
    · exact htrue.mono (hmarks r hr).le hhomes
  | answered wanted held => exact TrueSince.mono h hsince.le hhomes

lemma abreast_start : Abreast (Shared.start : Shared κ σ) fun _ => 0 := by
  constructor
  · exact keyed_new
  · rfl
  · exact fun _ _ => Nat.zero_le _
  · exact fun _ => le_rfl
  · rintro wanted r held h
    cases h
  · rintro n question h
    cases h
  · rintro n change h
    cases h

lemma Abreast.revise (h : Abreast s marks) {changes : Nat → Option (Publishing κ σ)}
    {published : List AreaId → Nat} (hpublished : ∀ wanted : List AreaId, published wanted ≤ s.now)
    (hchanges : ∀ (n : Nat) (change : Publishing κ σ), changes n = some change →
      change.counts = false → ∀ wanted : List AreaId, change.changed wanted = false) :
    Abreast { s with revision := s.revision + 1, changes, published }
      (Function.update marks (s.revision + 1) s.now) := by
  have hmarks : ∀ r ≤ s.revision, Function.update marks (s.revision + 1) s.now r = marks r :=
    fun r hr => Function.update_of_ne (by omega) _ _
  have hnew : Function.update marks (s.revision + 1) s.now (s.revision + 1) = s.now :=
    Function.update_self _ _ _
  refine { h with mark := ?_, published := ?_, reaches := ?_, questions := ?_, changes := hchanges }
  · intro r hr
    rcases Nat.lt_or_ge s.revision r with hlt | hle
    · rw [show r = s.revision + 1 from le_antisymm hr hlt]
      exact hnew.le
    · exact (hmarks r hle).le.trans (h.mark r hle)
  · intro wanted
    rw [hnew]
    exact hpublished wanted
  · intro wanted r held hheld
    obtain ⟨hr, htrue⟩ := h.reaches wanted r held hheld
    exact ⟨hr.trans (Nat.le_succ _), htrue.mono (hmarks r hr).le fun _ _ hi => hi⟩
  · intro n question hquestion
    refine (h.questions n question hquestion).mono (Nat.le_succ _) hmarks ?_ rfl fun _ _ hi => hi
    rw [hnew]
    exact h.mark s.revision le_rfl

lemma Abreast.told (h : Abreast s marks) {n : Nat} {change : Publishing κ σ}
    {event : Event κ σ} {rest : List (Event κ σ)} (hn : s.changes n = some change) :
    ∃ marks', Abreast (s.told n change event rest) marks' := by
  have hchanges : ∀ (m : Nat) (other : Publishing κ σ),
      Function.update s.changes n (some { change with left := rest }) m = some other →
      other.counts = false → ∀ wanted : List AreaId, other.changed wanted = false := by
    intro m other hother
    by_cases hm : m = n
    · subst hm
      rw [Function.update_self, Option.some.injEq] at hother
      subst hother
      exact h.changes m change hn
    · rw [Function.update_of_ne hm] at hother
      exact h.changes m other hother
  by_cases hcounts : event.counts = true
  · refine ⟨Function.update marks (s.revision + 1) s.now, ?_⟩
    unfold Shared.told
    rw [if_pos hcounts]
    refine h.revise (fun wanted => ?_) hchanges
    split
    · exact le_rfl
    · exact (h.published wanted).trans (h.mark s.revision le_rfl)
  · refine ⟨marks, ?_⟩
    unfold Shared.told
    rw [if_neg hcounts]
    -- It matters to no list: it isn't the last that counts, and what counts not changes nothing.
    have hnone : ∀ wanted : List AreaId, (Shared.Publishing.done event rest change.counts &&
        (change.counts || change.changed wanted)) = false := by
      intro wanted
      cases hchange : change.counts with
      | false => simp [h.changes n change hn hchange wanted]
      | true => simp [Shared.Publishing.done, hcounts]
    simp only [hnone, Bool.false_eq_true, if_false]
    refine { h with published := h.published, questions := ?_, changes := hchanges }
    exact fun m question hm => (h.questions m question hm).mono le_rfl (fun _ _ => rfl) le_rfl rfl
      fun _ _ hi => hi

lemma now_changed (s : Shared κ σ) (n : Nat) (result : Except Rejected (List (Event κ σ)))
    (next : Home κ σ) : (s.changed n result next).now = s.homes.length := by
  rw [Shared.now, Shared.changed]
  simp

lemma Abreast.changed (h : Abreast s marks) {n : Nat}
    {result : Except Rejected (List (Event κ σ))} {next : Home κ σ} (hkeyed : Keyed next)
    (htells : (∃ wanted : List AreaId, Rooms.of next wanted ≠ Rooms.of s.home wanted) →
      ∃ event ∈ eventsOf result, event.counts = true) :
    Abreast (s.changed n result next) marks := by
  have hhomes : ∀ (i : Nat) (home : Home κ σ), s.homes[i]? = some home →
      (s.changed n result next).homes[i]? = some home := by
    intro i home hi
    obtain ⟨hlt, -⟩ := List.getElem?_eq_some_iff.mp hi
    exact (List.getElem?_append_left hlt).trans hi
  have hnow : (s.changed n result next).now = s.homes.length := now_changed s n result next
  have hlater : s.now ≤ s.homes.length := Nat.sub_le _ _
  constructor
  · exact hkeyed
  · rw [hnow]
    exact List.getElem?_concat_length
  · intro r hr
    rw [hnow]
    exact (h.mark r hr).trans hlater
  · exact h.published
  · intro wanted r held hheld
    obtain ⟨hr, htrue⟩ := h.reaches wanted r held hheld
    exact ⟨hr, htrue.mono le_rfl hhomes⟩
  · intro m question hm
    exact (h.questions m question hm).mono le_rfl (fun _ _ => rfl) le_rfl rfl hhomes
  · intro m change hchange hcounts wanted
    simp only [Shared.changed] at hchange
    by_cases hm : m = n
    · subst hm
      rw [Function.update_self, Option.some.injEq] at hchange
      subst hchange
      dsimp only at hcounts ⊢
      rw [decide_eq_false_iff_not, not_not]
      by_contra hne
      obtain ⟨event, hevent, hcount⟩ := htells ⟨wanted, hne⟩
      rw [List.any_eq_false] at hcounts
      exact hcounts event hevent hcount
    · rw [Function.update_of_ne hm] at hchange
      exact h.changes m change hchange hcounts wanted

lemma Abreast.proceed (h : Abreast s marks) {n : Nat} {question : Question}
    (hquestion : Asks s marks n question) (lock : Option Nat) :
    Abreast { s.proceed n question with lock } marks := by
  refine { h with questions := fun m other hm => ?_ }
  by_cases hmn : m = n
  · subst hmn
    have hother : Function.update s.questions m (some question) m = some other := hm
    rw [Function.update_self, Option.some.injEq] at hother
    subst hother
    exact hquestion.mono le_rfl (fun _ _ => rfl) le_rfl rfl fun _ _ hi => hi
  · have hother : Function.update s.questions n (some question) m = some other := hm
    rw [Function.update_of_ne hmn] at hother
    exact (h.questions m other hother).mono le_rfl (fun _ _ => rfl) le_rfl rfl fun _ _ hi => hi

lemma Abreast.keep (h : Abreast s marks) {wanted : List AreaId} {r : Nat} {held : Rooms}
    (hr : r ≤ s.revision) (htrue : TrueSince s (marks r) wanted held) :
    Abreast (s.keep wanted r held) marks := by
  refine { h with reaches := fun list r' held' hlist => ?_, questions := fun m other hm => ?_ }
  · simp only [Shared.keep] at hlist
    by_cases heq : list = wanted
    · subst heq
      rw [Function.update_self, Option.some.injEq, Prod.mk.injEq] at hlist
      obtain ⟨rfl, rfl⟩ := hlist
      exact ⟨hr, htrue.mono le_rfl fun _ _ hi => hi⟩
    · rw [Function.update_of_ne heq, Option.filter_eq_some_iff] at hlist
      obtain ⟨hr', htrue'⟩ := h.reaches list r' held' hlist.1
      exact ⟨hr', htrue'.mono le_rfl fun _ _ hi => hi⟩
  · exact (h.questions m other hm).mono le_rfl (fun _ _ => rfl) le_rfl rfl fun _ _ hi => hi

lemma Abreast.goOn (h : Abreast s marks) {n : Nat} {question : Question}
    (hn : s.questions n = some question) : Abreast (s.goOn n question) marks := by
  have hknown := h.questions n question hn
  cases question with
  | asked wanted =>
    have hbegan : Asks s marks n (.began wanted s.revision) := ⟨le_rfl, hknown⟩
    exact h.proceed hbegan s.lock
  | began wanted r =>
    unfold Shared.goOn
    dsimp only
    split
    · have hlooking : Asks s marks n (.looking wanted r) := hknown
      exact h.proceed hlooking (some n)
    · exact h
  | looking wanted r =>
    obtain ⟨hr, hsince⟩ := hknown
    have hkeeping : Asks s marks n (.keeping wanted r (Rooms.of s.home wanted)) :=
      ⟨hr, hsince, s.now, s.home, h.mark r hr, h.homes, rfl⟩
    have hworked := h.proceed hkeeping s.lock
    unfold Shared.goOn
    dsimp only
    split
    · next at_ held hheld =>
      split
      · next heq =>
        have htrue := (h.reaches wanted at_ held hheld).2
        rw [heq] at htrue
        have hanswered : Asks s marks n (.answered wanted held) :=
          htrue.mono hsince fun _ _ hi => hi
        exact h.proceed hanswered none
      · exact hworked
    · exact hworked
  | keeping wanted r held =>
    obtain ⟨hr, hsince, htrue⟩ := hknown
    have hanswered : Asks (s.keep wanted r held) marks n (.answered wanted held) :=
      htrue.mono hsince fun _ _ hi => hi
    exact (h.keep hr htrue).proceed hanswered none
  | answered wanted held => exact h

variable [DecidableEq κ] [DecidableEq σ]

/-- Every change of the home in a run mixes nothing up. -/
def AllUnmixed (kinds : Kinds κ σ) : Shared κ σ → List (SharedEvent κ σ) → Prop
  | _, [] => True
  | s, event :: events =>
    (∀ (n : Nat) (op : HomeOp κ σ), event = .change n op → Unmixed s.home op) ∧
      AllUnmixed kinds (s.after kinds event) events

lemma Abreast.after (h : Abreast s marks) {event : SharedEvent κ σ}
    (hevent : ∀ (n : Nat) (op : HomeOp κ σ), event = .change n op → Unmixed s.home op) :
    ∃ marks', Abreast (s.after kinds event) marks' := by
  cases event with
  | change n op =>
    unfold Shared.after
    dsimp only
    split
    · exact ⟨marks, h⟩
    · split
      · next result next hrun =>
        exact ⟨marks, h.changed (perform_keyed h.keyed hrun)
          (tellsOf_of_unmixed h.keyed (hevent n op rfl) result next hrun)⟩
      · exact ⟨marks, h⟩
  | publish n =>
    unfold Shared.after
    dsimp only
    split
    · next change hchange =>
      split
      · exact h.told hchange
      · exact ⟨marks, h⟩
    · exact ⟨marks, h⟩
  | count =>
    exact ⟨_, h.revise (fun wanted => (h.published wanted).trans (h.mark _ le_rfl)) h.changes⟩
  | ask n rooms =>
    unfold Shared.after
    dsimp only
    split
    · exact ⟨marks, h⟩
    · next hnone =>
      refine ⟨marks, { h with questions := fun m question hm => ?_ }⟩
      simp only [Shared.proceed] at hm
      by_cases hmn : m = n
      · subst hmn
        rw [Function.update_self, Option.some.injEq] at hm
        subst hm
        change Function.update s.since m _ m ≤ _
        rw [Function.update_self]
        exact h.published _
      · rw [Function.update_of_ne hmn] at hm
        refine (h.questions m question hm).mono le_rfl (fun _ _ => rfl) le_rfl ?_ fun _ _ hi => hi
        exact Function.update_of_ne hmn _ _
  | go n =>
    unfold Shared.after
    dsimp only
    split
    · next question hn => exact ⟨marks, h.goOn hn⟩
    · exact ⟨marks, h⟩

lemma Abreast.afterAll (h : Abreast s marks) {events : List (SharedEvent κ σ)}
    (hevents : AllUnmixed kinds s events) :
    ∃ marks', Abreast (events.foldl (fun s event => s.after kinds event) s) marks' := by
  induction events generalizing s marks with
  | nil => exact ⟨marks, h⟩
  | cons event events ih =>
    obtain ⟨marks', h'⟩ := h.after hevents.1
    exact ih h' hevents.2

end

/-! ### A device that leaves a room unnoticed -/

open Sample in
/-- Settings with one room, whether device `a` was put in it, and whether to ask before adding. -/
def denSettings (ask : Bool) (placed : Placement) : Settings :=
  { Settings.empty with
    areas := [⟨⟨"den", by decide⟩, lamp, none⟩]
    devices := (∅ : Map DeviceId DeviceSettings).insert (deviceIdFor demo deviceA)
      ⟨none, none, placed, true⟩
    askBeforeAdding := ask }

def den : AreaId := ⟨"den", by decide⟩

def askedWhole (n : Nat) : List (SharedEvent Sample.Ability Sample.On) :=
  [.ask n [den], .go n, .go n, .go n, .go n]

open Sample in
/-- Device `a` suggests the room it is in. A device that is only found is reached through one that
isn't there, and was last described with the entity of device `a`. -/
def mixed : List (SharedEvent Ability On) :=
  [.change 0 (.describeDevice demo { described deviceA with suggestedArea := some lamp }),
    .publish 0,
    .change 0 (.applySettings (denSettings true (.within den)) stamp), .publish 0,
    .change 0 (.describeEntity demo [.switch] (nameless relay deviceA .switch) stamp),
    .publish 0, .publish 0,
    .change 0 (.describeDevice demo
      { described deviceB with viaDeviceUniqueId := some colon }), .publish 0,
    .change 0 (.describeEntity demo [.switch] (nameless relay deviceB .switch) stamp),
    .change 0 (.reportState demo ⟨relay, some (.other true), ∅, none, false⟩ stamp)]

open Sample in
/-- The settings take device `a` out of the room and let every device in. All that comes of it that
is told is what the entity is said to be. -/
def unnoticed : List (SharedEvent Ability On) :=
  mixed ++ askedWhole 0 ++
    [.change 0 (.applySettings (denSettings false .unsaid) stamp), .publish 0] ++ askedWhole 1

def denMade : List (SharedEvent Sample.Ability Sample.On) :=
  [.change 0 (.applySettings (denSettings true .unsaid) Sample.stamp), .publish 0] ++ askedWhole 0

end Irori.Proofs
