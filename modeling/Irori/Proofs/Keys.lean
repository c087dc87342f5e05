import Irori.Proofs.Removals

/-!
# Keys

Whatever is asked of a home, and whatever worlds get mixed up by it, every key leads to the one
device or entity that has it.
-/

namespace Irori.Proofs
open Irori Irori.Core

variable {κ σ : Type}

/-- Every device and entity is found by its own key, and a device is reached through one of the
same protocol. -/
structure Keyed (home : Home κ σ) : Prop where
  devices : Map.Indexed Device.key home.devices home.deviceKeys
  deviceId : ∀ (D : DeviceId) (d : Device), home.devices[D]? = some d → d.id = D
  via : ∀ (D V : DeviceId) (d : Device), home.devices[D]? = some d → d.viaDeviceId = some V →
    ∃ v : Device, home.devices[V]? = some v ∧ v.protocol = d.protocol
  entities : Map.Indexed Entity.key home.entities home.entityKeys
  entityId : ∀ (E : EntityId) (e : Entity κ), home.entities[E]? = some e → e.id = E

lemma keyed_new : Keyed (Home.new : Home κ σ) := by
  constructor <;> try simp [Home.new]
  · exact Map.indexed_empty
  · exact Map.indexed_empty

section

variable {home next : Home κ σ}

lemma Keyed.alike (h : Keyed home) (hnext : Alike home next) : Keyed next where
  devices := by
    rw [hnext.deviceKeys]
    refine h.devices.congr fun D => ?_
    have hkey := congrArg (Option.map fun tie => tie.2.1) (hnext.devices D)
    rwa [Option.map_map, Option.map_map] at hkey
  deviceId D d hd := by
    obtain ⟨d', hd', hid, -⟩ := hnext.device hd
    rw [← hid, h.deviceId D d' hd']
  via D V d hd hV := by
    obtain ⟨d', hd', -, hprotocol, -, hvia⟩ := hnext.device hd
    obtain ⟨v, hv, hvp⟩ := h.via D V d' hd' (hvia.trans hV)
    obtain ⟨v', hv', hvp'⟩ := hnext.device' hv
    exact ⟨v', hv', by rw [hvp', hvp, hprotocol]⟩
  entities := by
    rw [hnext.entityKeys]
    refine h.entities.congr fun E => ?_
    have hkey := congrArg (Option.map fun tie => tie.2.1) (hnext.entities E)
    rwa [Option.map_map, Option.map_map] at hkey
  entityId E e he := by
    obtain ⟨e', he', hid, -⟩ := hnext.entity he
    rw [← hid, h.entityId E e' he']

lemma Keyed.restated (h : Keyed home) (hnext : Restated home next) : Keyed next :=
  h.alike hnext.alike

lemma Keyed.setDevice (h : Keyed home) {D : DeviceId} {before device : Device}
    (hD : home.devices[D]? = some before) (hid : device.id = before.id)
    (hkey : device.key = before.key)
    (hvia : ∀ V : DeviceId, device.viaDeviceId = some V →
      ∃ v : Device, home.devices[V]? = some v ∧ v.protocol = device.protocol)
    {names : Map DeviceId Name} {said : Map DeviceId DeviceDescription} :
    Keyed { home with
      reportedDeviceNames := names
      deviceDescriptions := said
      devices := home.devices.insert D device } where
  devices := h.devices.update hD hkey
  deviceId X d hd := by
    rcases Map.get_insert_some hd with ⟨rfl, rfl⟩ | ⟨-, hd⟩
    · rw [hid, h.deviceId D before hD]
    · exact h.deviceId X d hd
  via X V d hd hV := by
    have hprotocol : device.protocol = before.protocol := congrArg Key.protocol hkey
    have hat : ∃ v : Device, home.devices[V]? = some v ∧ v.protocol = d.protocol := by
      rcases Map.get_insert_some hd with ⟨rfl, rfl⟩ | ⟨-, hd⟩
      · exact hvia V hV
      · exact h.via X V d hd hV
    obtain ⟨v, hv, hvp⟩ := hat
    by_cases hDV : D = V
    · subst hDV
      rw [hD, Option.some.injEq] at hv
      exact ⟨device, by rw [Map.get_insert, if_pos rfl], by rw [← hvp, ← hv, hprotocol]⟩
    · exact ⟨v, by rw [Map.get_insert, if_neg hDV, hv], hvp⟩
  entities := h.entities
  entityId := h.entityId

lemma Keyed.addDevice (h : Keyed home) {D : DeviceId} {device : Device}
    (hD : home.devices[D]? = none) (hkey : home.deviceKeys[device.key]? = none)
    (hid : device.id = D)
    (hvia : ∀ V : DeviceId, device.viaDeviceId = some V →
      ∃ v : Device, home.devices[V]? = some v ∧ v.protocol = device.protocol)
    {names : Map DeviceId Name} {said : Map DeviceId DeviceDescription} :
    Keyed { home with
      deviceDescriptions := said
      reportedDeviceNames := names
      deviceKeys := home.deviceKeys.insert device.key D
      devices := home.devices.insert D device } where
  devices := h.devices.insert hD hkey
  deviceId X d hd := by
    rcases Map.get_insert_some hd with ⟨rfl, rfl⟩ | ⟨-, hd⟩
    · exact hid
    · exact h.deviceId X d hd
  via X V d hd hV := by
    have hat : ∃ v : Device, home.devices[V]? = some v ∧ v.protocol = d.protocol := by
      rcases Map.get_insert_some hd with ⟨-, rfl⟩ | ⟨-, hd⟩
      · exact hvia V hV
      · exact h.via X V d hd hV
    obtain ⟨v, hv, hvp⟩ := hat
    have hDV : D ≠ V := by
      rintro rfl
      rw [hD] at hv
      cases hv
    exact ⟨v, by rw [Map.get_insert, if_neg hDV, hv], hvp⟩
  entities := h.entities
  entityId := h.entityId

lemma Keyed.dropDevice (h : Keyed home) {k : Key} {D : DeviceId}
    (hk : home.deviceKeys[k]? = some D) (said : Map DeviceId DeviceDescription) :
    Keyed ({ home with
      deviceKeys := home.deviceKeys.erase k
      deviceDescriptions := said }.dropDevice D).2 := by
  have hget : ∀ {X : DeviceId} {d : Device},
      ((home.devices.map fun _ d => Home.unreach D d).erase D)[X]? = some d →
      D ≠ X ∧ ∃ d' : Device, home.devices[X]? = some d' ∧ Home.unreach D d' = d := by
    intro X d hd
    obtain ⟨hne, hd⟩ := Map.get_erase_some hd
    rw [Std.ExtTreeMap.getElem?_map, Option.map_eq_some_iff] at hd
    exact ⟨hne, hd⟩
  have hkeep : ∀ d : Device, (Home.unreach D d).id = d.id ∧ (Home.unreach D d).key = d.key := by
    intro d
    unfold Home.unreach
    split <;> exact ⟨rfl, rfl⟩
  constructor
  · have hmapped : Map.Indexed Device.key (home.devices.map fun _ d => Home.unreach D d)
        home.deviceKeys := by
      refine h.devices.congr fun X => ?_
      rw [Std.ExtTreeMap.getElem?_map, Option.map_map]
      exact congrArg (Option.map · _) (funext fun d => (hkeep d).2)
    exact hmapped.erase hk
  · intro X d hd
    obtain ⟨-, d', hd', rfl⟩ := hget hd
    rw [(hkeep d').1, h.deviceId X d' hd']
  · intro X V d hd hV
    obtain ⟨-, d', hd', rfl⟩ := hget hd
    have hprotocol : (Home.unreach D d').protocol = d'.protocol :=
      congrArg Key.protocol (hkeep d').2
    unfold Home.unreach at hV
    split at hV
    · cases hV
    · next hne =>
      obtain ⟨v, hv, hvp⟩ := h.via X V d' hd' hV
      have hDV : D ≠ V := fun heq => hne (heq ▸ hV)
      refine ⟨Home.unreach D v, ?_, ?_⟩
      · change ((home.devices.map fun _ d => Home.unreach D d).erase D)[V]? = _
        rw [Map.get_erase, if_neg hDV, Std.ExtTreeMap.getElem?_map, hv, Option.map_some]
      · rw [hprotocol, ← hvp]
        exact congrArg Key.protocol (hkeep v).2
  · exact h.entities
  · exact h.entityId

lemma Keyed.setEntity (h : Keyed home) {E : EntityId} {before entity : Entity κ}
    (hE : home.entities[E]? = some before) (hid : entity.id = before.id)
    (hkey : entity.key = before.key) {names : Map EntityId Name}
    {said : Map EntityId (List EntityKind × EntityDescription κ)} :
    Keyed { home with
      reportedEntityNames := names
      entityDescriptions := said
      entities := home.entities.insert E entity } where
  devices := h.devices
  deviceId := h.deviceId
  via := h.via
  entities := h.entities.update hE hkey
  entityId X e he := by
    rcases Map.get_insert_some he with ⟨rfl, rfl⟩ | ⟨-, he⟩
    · rw [hid, h.entityId E before hE]
    · exact h.entityId X e he

lemma Keyed.addEntity (h : Keyed home) {E : EntityId} {entity : Entity κ}
    (hE : home.entities[E]? = none) (hkey : home.entityKeys[entity.key]? = none)
    (hid : entity.id = E) {names : Map EntityId Name}
    {said : Map EntityId (List EntityKind × EntityDescription κ)}
    {states : Map EntityId (Core.EntityState σ)} :
    Keyed { home with
      reportedEntityNames := names
      entityDescriptions := said
      entityKeys := home.entityKeys.insert entity.key E
      entities := home.entities.insert E entity
      states } where
  devices := h.devices
  deviceId := h.deviceId
  via := h.via
  entities := h.entities.insert hE hkey
  entityId X e he := by
    rcases Map.get_insert_some he with ⟨rfl, rfl⟩ | ⟨-, he⟩
    · exact hid
    · exact h.entityId X e he

lemma Keyed.dropEntity (h : Keyed home) {k : Key} {E : EntityId}
    (hk : home.entityKeys[k]? = some E) {names : Map EntityId Name}
    {said : Map EntityId (List EntityKind × EntityDescription κ)}
    {states : Map EntityId (Core.EntityState σ)} {commanded : Map EntityId Typed} :
    Keyed { home with
      entityKeys := home.entityKeys.erase k
      entityDescriptions := said
      entities := home.entities.erase E
      states
      reportedEntityNames := names
      commanded } where
  devices := h.devices
  deviceId := h.deviceId
  via := h.via
  entities := h.entities.erase hk
  entityId X e he := h.entityId X e (Map.get_erase_some he).2

end

lemma sweep_run {α : Type} {step : α → Home κ σ → Option (Changes κ σ)} {as : List α}
    (P : Home κ σ → Prop) (hstep : ∀ a ∈ as, ∀ (home : Home κ σ) (changes : Changes κ σ),
      step a home = some changes → P home → P changes.2)
    {changes changes' : Changes κ σ} (h : P changes.2)
    (hrun : sweep step as changes = some changes') : P changes'.2 := by
  induction as generalizing changes with
  | nil =>
    rw [sweep, Option.some.injEq] at hrun
    exact hrun ▸ h
  | cons a as ih =>
    rw [sweep] at hrun
    split at hrun
    · cases hrun
    · next more next hnext =>
      refine ih (fun b hb => hstep b (List.mem_cons_of_mem _ hb)) ?_ hrun
      exact hstep a List.mem_cons_self _ (more, next) hnext h

lemma quiet_run {outcome : Outcome κ σ} {changes : Changes κ σ}
    (h : outcome.quiet = some changes) :
    ∃ result : Except Rejected (List (Event κ σ)), outcome = some (result, changes.2) := by
  unfold Outcome.quiet at h
  obtain ⟨⟨result, next⟩, hnext, rfl⟩ := Option.map_eq_some_iff.mp h
  exact ⟨result, hnext⟩

section Whole

variable [DecidableEq κ] [DecidableEq σ] {kinds : Kinds κ σ} {stamp : Stamp}
  {P : Home κ σ → Prop} {home : Home κ σ} {changes : Changes κ σ}

/-- A property of homes that everything that admits a device keeps. -/
structure Admitting (kinds : Kinds κ σ) (stamp : Stamp) (P : Home κ σ → Prop) : Prop where
  dropFound : ∀ {home : Home κ σ} (D : DeviceId) (f : Found κ σ), P home →
    P (home.dropFound f.protocol D f)
  device : ∀ {home next : Home κ σ} {p : ProtocolId} {said : DeviceDescription}
    {result : Except Rejected (List (Event κ σ))}, P home →
    home.describeDevice kinds p said = some (result, next) → P next
  entity : ∀ {home next : Home κ σ} {p : ProtocolId} {listed : List EntityKind}
    {said : EntityDescription κ} {result : Except Rejected (List (Event κ σ))}, P home →
    home.describeEntity kinds p listed said stamp = some (result, next) → P next
  report : ∀ {home next : Home κ σ} {p : ProtocolId} {report : StateReport σ}
    {result : Except Rejected (List (Event κ σ))}, P home →
    home.reportState kinds p report stamp = some (result, next) → P next
  availability : ∀ {home : Home κ σ} (p : ProtocolId) (target : AvailabilityTarget)
    (availability : Availability), P home →
    P (home.setAvailability p target availability stamp).2

lemma Admitting.admitDevice (hP : Admitting kinds stamp P) (h : P home) {D : DeviceId} (hrun : home.admitDevice kinds D stamp = some changes) :
    P changes.2 := by
  unfold Home.admitDevice at hrun
  split at hrun
  · cases hrun
    exact h
  · next f hf =>
    obtain ⟨reported, hreported, rfl⟩ := Option.map_eq_some_iff.mp hrun
    obtain ⟨described, hdescribed, hreports⟩ := Option.bind_eq_some_iff.mp hreported
    obtain ⟨device, hdevice, hentities⟩ := Option.bind_eq_some_iff.mp hdescribed
    obtain ⟨result, hdescribe⟩ := quiet_run hdevice
    have hlive := hP.device (hP.dropFound D f h) hdescribe
    have hwith : P described.2 := by
      refine sweep_run P (fun x _ home changes hstep h => ?_) hlive hentities
      obtain ⟨result, hstep⟩ := quiet_run hstep
      exact hP.entity h hstep
    have hsaid : P reported.2 := by
      refine sweep_run P (fun x _ home changes hstep h => ?_) hwith hreports
      obtain ⟨result, hstep⟩ := quiet_run hstep
      exact hP.report h hstep
    dsimp only
    split
    · exact hsaid
    · exact hP.availability _ _ _ hsaid

lemma applySettings_parts {settings : Settings}
    (hrun : home.applySettings kinds settings stamp = some changes)
    (hne : home.settings ≠ settings) :
    ∃ held admitted devices entities : Changes κ σ,
      sweep (fun id home => some (Home.hold home id)) ({ home with settings } : Home κ σ).nowHeld
          ([], { home with settings }) = some held ∧
        sweep (fun id home => home.admitDevice kinds id stamp) held.2.nowAdded held =
          some admitted ∧
        sweep (fun id home => home.refreshDevice kinds id) admitted.2.devices.keys admitted =
          some devices ∧
        sweep (fun id home => home.refreshEntity id) devices.2.entities.keys devices =
          some entities ∧
        changes = (if entities.1.isEmpty then [.settingsChanged] else entities.1, entities.2) := by
  unfold Home.applySettings at hrun
  rw [if_neg hne] at hrun
  obtain ⟨entities, hentities, rfl⟩ := Option.map_eq_some_iff.mp hrun
  obtain ⟨devices, hdevices, hentities⟩ := Option.bind_eq_some_iff.mp hentities
  obtain ⟨admitted, hadmitted, hdevices⟩ := Option.bind_eq_some_iff.mp hdevices
  obtain ⟨held, hheld, hadmitted⟩ := Option.bind_eq_some_iff.mp hadmitted
  exact ⟨held, admitted, devices, entities, hheld, hadmitted, hdevices, hentities, rfl⟩

lemma Admitting.applySettings (hP : Admitting kinds stamp P)
    (hset : ∀ {home : Home κ σ} (settings : Settings), P home → P { home with settings })
    (hhold : ∀ {home : Home κ σ} (D : DeviceId), P home → P (home.hold D).2)
    (hdevice : ∀ {home : Home κ σ} {D : DeviceId} {changes : Changes κ σ}, P home →
      home.refreshDevice kinds D = some changes → P changes.2)
    (hentity : ∀ {home : Home κ σ} {E : EntityId} {changes : Changes κ σ}, P home →
      home.refreshEntity E = some changes → P changes.2)
    (h : P home) {settings : Settings}
    (hrun : home.applySettings kinds settings stamp = some changes) : P changes.2 := by
  by_cases hsame : home.settings = settings
  · unfold Home.applySettings at hrun
    rw [if_pos hsame] at hrun
    cases hrun
    exact h
  · obtain ⟨held, admitted, devices, entities, hheld, hadmitted, hdevices, hentities, rfl⟩ :=
      applySettings_parts hrun hsame
    have hheld : P held.2 := by
      refine sweep_run P (fun D _ home changes hstep h => ?_) (hset settings h) hheld
      cases hstep
      exact hhold D h
    have hadmitted : P admitted.2 :=
      sweep_run P (fun D _ home changes hstep h => hP.admitDevice h hstep) hheld hadmitted
    have hdevices : P devices.2 :=
      sweep_run P (fun D _ home changes hstep h => hdevice h hstep) hadmitted hdevices
    have hentities : P entities.2 :=
      sweep_run P (fun E _ home changes hstep h => hentity h hstep) hdevices hentities
    exact hentities

end Whole

lemma removeProtocol_run (P : Home κ σ → Prop)
    (hremove : ∀ {home : Home κ σ} (p : ProtocolId) (u : UniqueId), P home →
      P (home.removeDevice p u).2) {home : Home κ σ} (h : P home) (p : ProtocolId) :
    P (home.removeProtocol p).2 := by
  have hfold : ∀ (us : List UniqueId) (changes : Changes κ σ), P changes.2 →
      P (us.foldl (fun changes u =>
        ((changes.1 ++ ((changes.2.removeDevice p u).1.toOption.getD []),
          (changes.2.removeDevice p u).2) : Changes κ σ)) changes).2 := by
    intro us
    induction us with
    | nil => exact fun _ h => h
    | cons u us ih => exact fun changes h => ih _ (hremove p u h)
  exact hfold _ _ h

section Steps

variable {kinds : Kinds κ σ} {home next : Home κ σ} {p : ProtocolId}
  {result : Except Rejected (List (Event κ σ))}

lemma viaFor_own (h : Keyed home) {said : DeviceDescription} {via : Option DeviceId}
    (hvia : home.viaFor p said = .ok via) (V : DeviceId) (hV : via = some V) :
    ∃ v : Device, home.devices[V]? = some v ∧ v.protocol = p := by
  subst hV
  unfold Home.viaFor at hvia
  split at hvia
  · cases hvia
  · next u _ =>
    split at hvia
    · next V' hV' =>
      cases hvia
      obtain ⟨v, hv, hkey⟩ := h.devices.row hV'
      exact ⟨v, hv, congrArg Key.protocol hkey⟩
    · cases hvia

lemma renameEntity_run {D : Option DeviceId} {E : EntityId} {changes : Changes κ σ}
    (hrun : home.renameEntity D E = some changes) : Renamed home changes.2 := by
  unfold Home.renameEntity at hrun
  split at hrun
  · next name e _ he =>
    split at hrun
    · cases hrun
      exact .refl home
    · cases hrun
      refine ⟨_, rfl, fun X => ?_⟩
      rw [Map.get_insert]
      split
      · next heq => rw [← heq, he]; rfl
      · rfl
  · cases hrun

lemma updateDevice_keyed (h : Keyed home) {D : DeviceId} {before : Device}
    (hD : home.devices[D]? = some before) {said : DeviceDescription} {via : Option DeviceId}
    (hvia : ∀ V : DeviceId, via = some V →
      ∃ v : Device, home.devices[V]? = some v ∧ v.protocol = before.protocol)
    (hrun : home.updateDevice kinds D said via = some (result, next)) : Keyed next := by
  unfold Home.updateDevice at hrun
  split at hrun
  · cases hrun
    exact h
  · simp only [hD] at hrun
    have hset : ∀ (name : Name) (area : Option AreaId), Keyed { home with
        reportedDeviceNames := home.reportedDeviceNames.insert D said.name
        deviceDescriptions := home.deviceDescriptions.insert D said
        devices := home.devices.insert D { before with
          name
          manufacturer := said.manufacturer
          model := said.model
          swVersion := said.swVersion
          hwVersion := said.hwVersion
          serialNumber := said.serialNumber
          suggestedArea := said.suggestedArea
          areaId := area
          viaDeviceId := via } } := by
      intro name area
      refine h.setDevice hD ?_ ?_ ?_
      · rfl
      · rfl
      · exact hvia
    split at hrun
    · cases hrun
      exact hset _ _
    · split at hrun
      · cases hrun
        exact hset _ _
      · obtain ⟨changes, hchanges, heq⟩ := Option.map_eq_some_iff.mp hrun
        cases heq
        refine sweep_run Keyed (fun E _ home changes hstep h => ?_) ?_ hchanges
        · exact h.alike (renameEntity_run hstep).alike
        · exact hset _ _

lemma addDevice_keyed (h : Keyed home) {said : DeviceDescription} {via : Option DeviceId}
    (hkey : home.deviceKeys[(⟨p, said.uniqueId⟩ : Key)]? = none)
    (hvia : ∀ V : DeviceId, via = some V →
      ∃ v : Device, home.devices[V]? = some v ∧ v.protocol = p)
    (hrun : home.addDevice kinds p said via = (result, next)) : Keyed next := by
  unfold Home.addDevice at hrun
  dsimp only at hrun
  split at hrun
  · cases hrun
    exact h
  · next hnone =>
    cases hrun
    refine h.addDevice hnone ?_ ?_ ?_
    · exact hkey
    · rfl
    · exact hvia

lemma describeDevice_keyed (h : Keyed home) {said : DeviceDescription}
    (hrun : home.describeDevice kinds p said = some (result, next)) : Keyed next := by
  unfold Home.describeDevice at hrun
  split at hrun
  · cases hrun
    exact h
  · dsimp only at hrun
    split at hrun
    · cases hrun
      unfold Home.keepFound
      dsimp only
      split <;> exact { h with }
    · split at hrun
      · cases hrun
        exact h
      · next via hvia =>
        split at hrun
        · next D hD =>
          obtain ⟨before, hbefore, hkey⟩ := h.devices.row hD
          refine updateDevice_keyed h hbefore (fun V hV => ?_) hrun
          rw [show before.protocol = p from congrArg Key.protocol hkey]
          exact viaFor_own h hvia V hV
        · next hnone =>
          rw [Option.some.injEq] at hrun
          exact addDevice_keyed h hnone (viaFor_own h hvia) hrun

section Describing

variable [DecidableEq κ] {said : EntityDescription κ} {listed : List EntityKind} {stamp : Stamp}

omit [DecidableEq κ] in
lemma addEntity_keyed (h : Keyed home) {device : Option Device}
    (hkey : home.entityKeys[(⟨p, said.uniqueId⟩ : Key)]? = none)
    (hrun : home.addEntity kinds p listed said device stamp = some (result, next)) :
    Keyed next := by
  obtain ⟨otherwise, base, E, hotherwise, hbase, hE, hfresh⟩ := addEntity_id hrun
  simp only [Home.addEntity, hotherwise, hbase, hE] at hrun
  cases hrun
  refine h.addEntity hfresh ?_ ?_
  · exact hkey
  · rfl

lemma updateEntity_keyed (h : Keyed home) {device : Option DeviceId} {E : EntityId}
    (hrun : home.updateEntity kinds p listed said device stamp E = some (result, next)) :
    Keyed next := by
  unfold Home.updateEntity at hrun
  split at hrun
  · cases hrun
  · next before hE =>
    split at hrun
    · cases hrun
      exact h
    · dsimp only at hrun
      split at hrun
      · next name old hname hold =>
        simp only [Option.some.injEq, Prod.mk.injEq] at hrun
        obtain ⟨-, rfl⟩ := hrun
        refine Keyed.restated (Keyed.restated (?_ : Keyed _) (forgetMisfit_restated _ _ _ ?_ _))
          (setAvailabilityOf_restated _ _ _ _ _ _)
        · refine h.setEntity hE ?_ ?_
          · rfl
          · rfl
        · exact hold
      · cases hrun

lemma describeEntity_keyed (h : Keyed home)
    (hrun : home.describeEntity kinds p listed said stamp = some (result, next)) :
    Keyed next := by
  have hlive : ∀ device : Option Device,
      home.describeLive kinds p listed said stamp device = some (result, next) → Keyed next := by
    intro device hrun
    unfold Home.describeLive at hrun
    split at hrun
    · exact updateEntity_keyed h hrun
    · next hnone => exact addEntity_keyed h hnone hrun
  unfold Home.describeEntity at hrun
  split at hrun
  · cases hrun
    exact h
  · dsimp only at hrun
    split at hrun
    · cases hrun
      exact h
    · split at hrun
      · exact hlive _ hrun
      · split at hrun
        · cases hrun
          exact { h with }
        · split at hrun
          · cases hrun
            exact h
          · split at hrun
            · cases hrun
            · exact hlive _ hrun

end Describing

lemma removeEntity_keyed (h : Keyed home) (p : ProtocolId) (u : UniqueId) :
    Keyed (home.removeEntity p u).2 := by
  unfold Home.removeEntity
  dsimp only
  split
  · exact { h with }
  · split
    · exact h
    · next E hE => exact h.dropEntity hE

lemma removeEntity_known {k : Key} (hk : home.entityKeys[k]? ≠ none) :
    (∃ events : List (Event κ σ), (home.removeEntity k.protocol k.uniqueId).1 = .ok events) ∧
      (home.removeEntity k.protocol k.uniqueId).2.devices = home.devices ∧
      (home.removeEntity k.protocol k.uniqueId).2.deviceKeys = home.deviceKeys ∧
      ∀ k' : Key, k ≠ k' →
        (home.removeEntity k.protocol k.uniqueId).2.entityKeys[k']? = home.entityKeys[k']? := by
  unfold Home.removeEntity
  dsimp only
  split
  · exact ⟨⟨_, rfl⟩, rfl, rfl, fun _ _ => rfl⟩
  · split
    · next hnone => exact absurd hnone hk
    · refine ⟨⟨_, rfl⟩, rfl, rfl, fun k' hne => ?_⟩
      rw [Map.get_erase, if_neg hne]

lemma removeEntities_keyed {es : List (Entity κ)} (h : Keyed home)
    (hes : ∀ e ∈ es, home.entityKeys[e.key]? ≠ none)
    (hkeys : es.Pairwise fun e e' => e.key ≠ e'.key) :
    ∃ (events : List (Event κ σ)) (next : Home κ σ),
      Home.removeEntities es home = (.ok events, next) ∧ Keyed next ∧
        next.devices = home.devices ∧ next.deviceKeys = home.deviceKeys := by
  induction es generalizing home with
  | nil => exact ⟨[], home, rfl, h, rfl, rfl⟩
  | cons e es ih =>
    obtain ⟨hhead, htail⟩ := List.pairwise_cons.mp hkeys
    have hmid := removeEntity_keyed h e.protocol e.uniqueId
    obtain ⟨⟨events, hevents⟩, hdevices, hdeviceKeys, hothers⟩ :=
      removeEntity_known (hes e List.mem_cons_self)
    obtain ⟨more, next, hnext, hkeyed, hdevices', hdeviceKeys'⟩ := ih hmid (fun e' he' => by
      have hsame : (home.removeEntity e.protocol e.uniqueId).2.entityKeys[e'.key]? =
          home.entityKeys[e'.key]? := hothers e'.key (hhead e' he')
      rw [hsame]
      exact hes e' (List.mem_cons_of_mem _ he')) htail
    rw [Home.removeEntities]
    have hpair : home.removeEntity e.protocol e.uniqueId =
        (.ok events, (home.removeEntity e.protocol e.uniqueId).2) := Prod.ext hevents rfl
    rw [hpair]
    dsimp only
    rw [hnext]
    exact ⟨events ++ more, next, rfl, hkeyed, hdevices'.trans hdevices,
      hdeviceKeys'.trans hdeviceKeys⟩

lemma Keyed.owned_keys (h : Keyed home) (D : DeviceId) :
    (∀ e ∈ home.owned D, home.entityKeys[e.key]? ≠ none) ∧
      (home.owned D).Pairwise fun e e' => e.key ≠ e'.key := by
  obtain ⟨hmem, hnodup⟩ := owned_ids h.entityId D
  constructor
  · intro e he
    rw [h.entities.found (hmem e he).1]
    exact Option.some_ne_none _
  · refine (List.pairwise_map.mp hnodup).imp_of_mem fun he he' hne hkey => ?_
    exact hne (h.entities.unique (hmem _ he).1 (hmem _ he').1 hkey)

lemma removeDevice_keyed (h : Keyed home) (p : ProtocolId) (u : UniqueId) :
    Keyed (home.removeDevice p u).2 ∧
      ∀ e : Rejected, (home.removeDevice p u).1 = .error e → (home.removeDevice p u).2 = home := by
  unfold Home.removeDevice
  dsimp only
  split
  · exact ⟨{ h with }, fun e he => by cases he⟩
  · split
    · exact ⟨h, fun _ _ => rfl⟩
    · next D hD =>
      obtain ⟨hknown, hdistinct⟩ := h.owned_keys D
      obtain ⟨events, mid, hmid, hkeyed, -, hdeviceKeys⟩ :=
        removeEntities_keyed h hknown hdistinct
      have hsame : ∀ (keys : Map Key DeviceId) (said : Map DeviceId DeviceDescription),
          { home with deviceKeys := keys, deviceDescriptions := said }.owned D = home.owned D :=
        fun _ _ => rfl
      simp only [removeEntities_frame, hsame, hmid]
      refine ⟨?_, fun e he => by cases he⟩
      rw [← hdeviceKeys] at hD ⊢
      exact hkeyed.dropDevice hD _

section Reporting

variable [DecidableEq σ] {report : StateReport σ} {stamp : Stamp}

lemma reportLive_run {E : EntityId}
    (hrun : home.reportLive kinds p report stamp E = some (result, next)) :
    Restated home next := by
  unfold Home.reportLive at hrun
  split at hrun
  · cases hrun
  · split at hrun
    · cases hrun
      exact .refl home
    · have hfold := foldReport_restated home p E report
      generalize home.foldReport p E report = folded at hfold hrun
      obtain ⟨report, mid⟩ := folded
      dsimp only at hfold hrun
      split at hrun
      · split at hrun
        · split at hrun
          · cases hrun
          · next old hold =>
            cases hrun
            exact hfold.trans (keepReport_restated mid p report _ stamp hold)
        · cases hrun
          exact hfold
      · split at hrun
        · cases hrun
        · next old hold =>
          cases hrun
          exact hfold.trans (keepReport_restated mid p report _ stamp hold)

lemma reportState_run (hrun : home.reportState kinds p report stamp = some (result, next)) :
    Unsaid home next := by
  unfold Home.reportState at hrun
  dsimp only at hrun
  split at hrun
  · cases hrun
    exact .refl home
  · split at hrun
    · next D hD =>
      cases hrun
      split
      · next f hf => exact unsaid_found hf rfl
      · exact .refl home
    · split at hrun
      · cases hrun
        exact .refl home
      · exact (reportLive_run hrun).unsaid

end Reporting

lemma hold_keyed (h : Keyed home) (D : DeviceId) : Keyed (home.hold D).2 := by
  unfold Home.hold
  split
  · exact { (removeDevice_keyed h _ _).1 with }
  · exact h

lemma refreshDevice_run {D : DeviceId} {changes : Changes κ σ}
    (hrun : home.refreshDevice kinds D = some changes) : Alike home changes.2 := by
  unfold Home.refreshDevice at hrun
  split at hrun
  · next reported device _ hD =>
    dsimp only at hrun
    split at hrun
    · cases hrun
      exact .refl home
    · cases hrun
      refine { Alike.refl home with devices := fun X => ?_ }
      rw [Map.get_insert]
      split
      · next heq => rw [← heq, hD]; rfl
      · rfl
  · cases hrun

lemma refreshEntity_run {E : EntityId} {changes : Changes κ σ}
    (hrun : home.refreshEntity E = some changes) : Alike home changes.2 := by
  unfold Home.refreshEntity at hrun
  split at hrun
  · exact (renameEntity_run hrun).alike
  · cases hrun

section Settings

variable [DecidableEq κ] [DecidableEq σ] {stamp : Stamp}

lemma admits_keyed (kinds : Kinds κ σ) (stamp : Stamp) : Admitting kinds stamp Keyed where
  dropFound _ _ h := { h with }
  device h hrun := describeDevice_keyed h hrun
  entity h hrun := describeEntity_keyed h hrun
  report h hrun := h.alike (reportState_run hrun).alike
  availability _ _ _ h := h.alike (setAvailability_unsaid _ _ _ _ _).alike

lemma applySettings_keyed (h : Keyed home) {settings : Settings} {changes : Changes κ σ}
    (hrun : home.applySettings kinds settings stamp = some changes) : Keyed changes.2 :=
  (admits_keyed kinds stamp).applySettings (fun _ h => { h with }) (fun D h => hold_keyed h D)
    (fun h hstep => h.alike (refreshDevice_run hstep))
    (fun h hstep => h.alike (refreshEntity_run hstep)) h hrun

end Settings

lemma removeProtocol_keyed (h : Keyed home) (p : ProtocolId) :
    Keyed (home.removeProtocol p).2 :=
  removeProtocol_run Keyed (fun p u h => (removeDevice_keyed h p u).1) h p

lemma forgetDevice_keyed (h : Keyed home) (D : DeviceId) : Keyed (home.forgetDevice D).2 := by
  unfold Home.forgetDevice
  split
  · exact hold_keyed h D
  · split <;> exact h

variable [DecidableEq κ] [DecidableEq σ]

omit [DecidableEq κ] [DecidableEq σ] in
lemma run_snd {pair : Except Rejected (List (Event κ σ)) × Home κ σ}
    (h : some pair = some (result, next)) : pair.2 = next := by
  cases h
  rfl

lemma perform_keyed (h : Keyed home) {op : HomeOp κ σ}
    (hrun : home.perform kinds op = some (result, next)) : Keyed next := by
  cases op with
  | describeDevice p said => exact describeDevice_keyed h hrun
  | describeEntity p listed said stamp => exact describeEntity_keyed h hrun
  | removeDevice p u => exact run_snd hrun ▸ (removeDevice_keyed h p u).1
  | removeEntity p u => exact run_snd hrun ▸ removeEntity_keyed h p u
  | reportState p report stamp => exact h.alike (reportState_run hrun).alike
  | setAvailability p target availability stamp =>
    exact run_snd hrun ▸ h.alike (setAvailability_unsaid home p target availability stamp).alike
  | markUnavailable p stamp =>
    exact run_snd hrun ▸ h.restated (setAvailabilityOf_restated home _ _ _ _ _)
  | applySettings settings stamp =>
    obtain ⟨changes, hchanges, htold⟩ := Option.bind_eq_some_iff.mp hrun
    exact run_snd htold ▸ applySettings_keyed h hchanges
  | forgetDevice D => exact run_snd hrun ▸ forgetDevice_keyed h D
  | removeProtocol p => exact run_snd hrun ▸ removeProtocol_keyed h p
  | skipUpdate E context stamp =>
    exact run_snd hrun ▸ h.restated (skipUpdate_restated home E context stamp)
  | clearSkippedUpdate E context stamp =>
    exact run_snd hrun ▸ h.restated (clearSkippedUpdate_restated home E context stamp)
  | beginUpdate E stamp => exact run_snd hrun ▸ h.restated (changeUpdate_restated home E _ stamp _)
  | failUpdate E why stamp =>
    exact run_snd hrun ▸ h.restated (changeUpdate_restated home E _ stamp _)
  | recordCommand | forgetCommand | recordCall | forgetCall | skipsToStore | restoreSkips =>
    exact run_snd hrun ▸ { h with }

lemma comesTo_keyed {Allowed : Home κ σ → HomeOp κ σ → Prop} (h : ComesTo kinds Allowed home) :
    Keyed home := by
  induction h with
  | new => exact keyed_new
  | step op _ _ hrun ih => exact perform_keyed ih hrun

end Steps

end Irori.Proofs
