import Irori.Lib.Index
import Irori.Lib.Pointers
import Irori.Home.System

/-!
# What holds a home together

The maps of a home that refer to each other, and the changes that keep them in step: those that
leave every tie as it is, and those that make or cut one.
-/

namespace Irori.Proofs
open Irori Irori.Core

variable {κ σ : Type}

def viaOf (home : Home κ σ) (id : DeviceId) : Option DeviceId :=
  (home.devices[id]?).bind Device.viaDeviceId

structure Tied (home : Home κ σ) : Prop where
  devices : Map.Indexed Device.key home.devices home.deviceKeys
  deviceId : ∀ (D : DeviceId) (d : Device), home.devices[D]? = some d →
    d.id = D ∧ deviceIdFor d.protocol d.uniqueId = D
  deviceNamed : ∀ (D : DeviceId) (d : Device), home.devices[D]? = some d →
    ∃ name : Name, home.reportedDeviceNames[D]? = some name
  deviceSaid : ∀ (D : DeviceId) (d : Device), home.devices[D]? = some d →
    ∃ said : DeviceDescription,
      home.deviceDescriptions[D]? = some said ∧ said.uniqueId = d.uniqueId
  via : ∀ D V : DeviceId, viaOf home D = some V → ∃ v : Device, home.devices[V]? = some v
  noLoop : Pointers.NoLoop (viaOf home)
  entities : Map.Indexed Entity.key home.entities home.entityKeys
  entityId : ∀ (E : EntityId) (e : Entity κ), home.entities[E]? = some e → e.id = E
  entityDevice : ∀ (E : EntityId) (e : Entity κ) (D : DeviceId), home.entities[E]? = some e →
    e.deviceId = some D → ∃ d : Device, home.devices[D]? = some d ∧ d.protocol = e.protocol
  entitySaid : ∀ (E : EntityId) (e : Entity κ), home.entities[E]? = some e →
    ∃ (listed : List EntityKind) (said : EntityDescription κ),
      home.entityDescriptions[E]? = some (listed, said) ∧ said.uniqueId = e.uniqueId ∧
        e.deviceId = said.deviceUniqueId.map (deviceIdFor e.protocol)
  entityNamed : ∀ (E : EntityId) (e : Entity κ), home.entities[E]? = some e →
    home.reportedEntityNames[E]? = none → e.deviceId ≠ none
  states : ∀ E : EntityId, home.states[E]? = none ↔ home.entities[E]? = none
  foundId : ∀ (D : DeviceId) (f : Found κ σ), home.found[D]? = some f →
    deviceIdFor f.protocol f.description.uniqueId = D ∧ home.devices[D]? = none
  foundSaid : ∀ (D : DeviceId) (f : Found κ σ) (u : UniqueId) (listed : List EntityKind)
    (said : EntityDescription κ), home.found[D]? = some f → f.entities[u]? = some (listed, said) →
    home.foundEntities[(⟨f.protocol, u⟩ : Key)]? = some D ∧ said.uniqueId = u ∧
      said.deviceUniqueId.map (deviceIdFor f.protocol) = some D
  foundKey : ∀ (k : Key) (D : DeviceId), home.foundEntities[k]? = some D →
    ∃ f : Found κ σ, home.found[D]? = some f ∧ f.protocol = k.protocol ∧
      f.entities[k.uniqueId]? ≠ none
  apart : ∀ (k : Key) (D : DeviceId), home.foundEntities[k]? = some D → home.entityKeys[k]? = none

def deviceTie (d : Device) : DeviceId × Key × Option DeviceId := (d.id, d.key, d.viaDeviceId)

def entityTie (e : Entity κ) : EntityId × Key × Option DeviceId := (e.id, e.key, e.deviceId)

def foundTie (f : Found κ σ) :
    ProtocolId × UniqueId × Map UniqueId (List EntityKind × EntityDescription κ) :=
  (f.protocol, f.description.uniqueId, f.entities)

structure Alike (a b : Home κ σ) : Prop where
  devices : ∀ D : DeviceId, (b.devices[D]?).map deviceTie = (a.devices[D]?).map deviceTie
  deviceKeys : b.deviceKeys = a.deviceKeys
  entities : ∀ E : EntityId, (b.entities[E]?).map entityTie = (a.entities[E]?).map entityTie
  entityKeys : b.entityKeys = a.entityKeys
  states : ∀ E : EntityId, b.states[E]? = none ↔ a.states[E]? = none
  reportedDeviceNames : b.reportedDeviceNames = a.reportedDeviceNames
  reportedEntityNames : b.reportedEntityNames = a.reportedEntityNames
  deviceDescriptions : b.deviceDescriptions = a.deviceDescriptions
  entityDescriptions : b.entityDescriptions = a.entityDescriptions
  found : ∀ D : DeviceId, (b.found[D]?).map foundTie = (a.found[D]?).map foundTie
  foundEntities : b.foundEntities = a.foundEntities
  settings : b.settings = a.settings

namespace Alike

variable {a b c : Home κ σ}

lemma refl (a : Home κ σ) : Alike a a := by
  constructor <;> simp

lemma trans (hab : Alike a b) (hbc : Alike b c) : Alike a c where
  devices D := (hbc.devices D).trans (hab.devices D)
  deviceKeys := hbc.deviceKeys.trans hab.deviceKeys
  entities E := (hbc.entities E).trans (hab.entities E)
  entityKeys := hbc.entityKeys.trans hab.entityKeys
  states E := (hbc.states E).trans (hab.states E)
  reportedDeviceNames := hbc.reportedDeviceNames.trans hab.reportedDeviceNames
  reportedEntityNames := hbc.reportedEntityNames.trans hab.reportedEntityNames
  deviceDescriptions := hbc.deviceDescriptions.trans hab.deviceDescriptions
  entityDescriptions := hbc.entityDescriptions.trans hab.entityDescriptions
  found D := (hbc.found D).trans (hab.found D)
  foundEntities := hbc.foundEntities.trans hab.foundEntities
  settings := hbc.settings.trans hab.settings

lemma exists_of_map {α β γ : Type} {f : β → γ} [LinearOrder α] {m m' : Map α β} {k : α} {v : β}
    (h : (m'[k]?).map f = (m[k]?).map f) (hv : m'[k]? = some v) :
    ∃ w : β, m[k]? = some w ∧ f w = f v := by
  rw [hv, Option.map_some] at h
  exact Option.map_eq_some_iff.mp h.symm

lemma device (h : Alike a b) {D : DeviceId} {d : Device} (hd : b.devices[D]? = some d) :
    ∃ d' : Device, a.devices[D]? = some d' ∧ d'.id = d.id ∧ d'.protocol = d.protocol ∧
      d'.uniqueId = d.uniqueId ∧ d'.viaDeviceId = d.viaDeviceId := by
  obtain ⟨d', hd', htie⟩ := exists_of_map (h.devices D) hd
  simp only [deviceTie, Device.key, Prod.mk.injEq, Key.mk.injEq] at htie
  exact ⟨d', hd', htie.1, htie.2.1.1, htie.2.1.2, htie.2.2⟩

lemma device' (h : Alike a b) {D : DeviceId} {d : Device} (hd : a.devices[D]? = some d) :
    ∃ d' : Device, b.devices[D]? = some d' ∧ d'.protocol = d.protocol := by
  obtain ⟨d', hd', htie⟩ := exists_of_map (h.devices D).symm hd
  simp only [deviceTie, Device.key, Prod.mk.injEq, Key.mk.injEq] at htie
  exact ⟨d', hd', htie.2.1.1⟩

lemma device_none (h : Alike a b) (D : DeviceId) : b.devices[D]? = none ↔ a.devices[D]? = none := by
  rw [← Option.map_eq_none_iff, h.devices, Option.map_eq_none_iff]

lemma entity (h : Alike a b) {E : EntityId} {e : Entity κ} (he : b.entities[E]? = some e) :
    ∃ e' : Entity κ, a.entities[E]? = some e' ∧ e'.id = e.id ∧ e'.protocol = e.protocol ∧
      e'.uniqueId = e.uniqueId ∧ e'.deviceId = e.deviceId := by
  obtain ⟨e', he', htie⟩ := exists_of_map (h.entities E) he
  simp only [entityTie, Entity.key, Prod.mk.injEq, Key.mk.injEq] at htie
  exact ⟨e', he', htie.1, htie.2.1.1, htie.2.1.2, htie.2.2⟩

lemma entity_none (h : Alike a b) (E : EntityId) :
    b.entities[E]? = none ↔ a.entities[E]? = none := by
  rw [← Option.map_eq_none_iff, h.entities, Option.map_eq_none_iff]

lemma found_of (h : Alike a b) {D : DeviceId} {f : Found κ σ} (hf : b.found[D]? = some f) :
    ∃ f' : Found κ σ, a.found[D]? = some f' ∧ f'.protocol = f.protocol ∧
      f'.description.uniqueId = f.description.uniqueId ∧ f'.entities = f.entities := by
  obtain ⟨f', hf', htie⟩ := exists_of_map (h.found D) hf
  simp only [foundTie, Prod.mk.injEq] at htie
  exact ⟨f', hf', htie⟩

lemma found_of' (h : Alike a b) {D : DeviceId} {f : Found κ σ} (hf : a.found[D]? = some f) :
    ∃ f' : Found κ σ, b.found[D]? = some f' ∧ f'.protocol = f.protocol ∧
      f'.entities = f.entities := by
  obtain ⟨f', hf', htie⟩ := exists_of_map (h.found D).symm hf
  simp only [foundTie, Prod.mk.injEq] at htie
  exact ⟨f', hf', htie.1, htie.2.2⟩

lemma viaOf_eq (h : Alike a b) : viaOf b = viaOf a := by
  funext D
  have hvia := congrArg (Option.map fun tie => tie.2.2) (h.devices D)
  rw [Option.map_map, Option.map_map] at hvia
  have hbind : ∀ o : Option Device, o.bind Device.viaDeviceId =
      (o.map fun d => (deviceTie d).2.2).join := fun o => by cases o <;> rfl
  unfold viaOf
  rw [hbind, hbind]
  exact congrArg Option.join hvia

end Alike

lemma Tied.alike {a b : Home κ σ} (h : Tied a) (hab : Alike a b) : Tied b where
  devices := by
    rw [hab.deviceKeys]
    refine h.devices.congr fun D => ?_
    have hkey := congrArg (Option.map fun tie => tie.2.1) (hab.devices D)
    rwa [Option.map_map, Option.map_map] at hkey
  deviceId D d hd := by
    obtain ⟨d', hd', hid, hprotocol, huid, -⟩ := hab.device hd
    rw [← hid, ← hprotocol, ← huid]
    exact h.deviceId D d' hd'
  deviceNamed D d hd := by
    obtain ⟨d', hd', -⟩ := hab.device hd
    rw [hab.reportedDeviceNames]
    exact h.deviceNamed D d' hd'
  deviceSaid D d hd := by
    obtain ⟨d', hd', -, -, huid, -⟩ := hab.device hd
    rw [hab.deviceDescriptions, ← huid]
    exact h.deviceSaid D d' hd'
  via D V hvia := by
    rw [hab.viaOf_eq] at hvia
    obtain ⟨v, hv⟩ := h.via D V hvia
    obtain ⟨v', hv', -⟩ := hab.device' hv
    exact ⟨v', hv'⟩
  noLoop := by
    rw [hab.viaOf_eq]
    exact h.noLoop
  entities := by
    rw [hab.entityKeys]
    refine h.entities.congr fun E => ?_
    have hkey := congrArg (Option.map fun tie => tie.2.1) (hab.entities E)
    rwa [Option.map_map, Option.map_map] at hkey
  entityId E e he := by
    obtain ⟨e', he', hid, -⟩ := hab.entity he
    rw [← hid]
    exact h.entityId E e' he'
  entityDevice E e D he hD := by
    obtain ⟨e', he', -, hprotocol, -, hdevice⟩ := hab.entity he
    obtain ⟨d, hd, hdp⟩ := h.entityDevice E e' D he' (hdevice.trans hD)
    obtain ⟨d', hd', hdp'⟩ := hab.device' hd
    exact ⟨d', hd', hdp'.trans (hdp.trans hprotocol)⟩
  entitySaid E e he := by
    obtain ⟨e', he', -, hprotocol, huid, hdevice⟩ := hab.entity he
    rw [hab.entityDescriptions, ← huid, ← hdevice, ← hprotocol]
    exact h.entitySaid E e' he'
  entityNamed E e he hnamed := by
    obtain ⟨e', he', -, -, -, hdevice⟩ := hab.entity he
    rw [← hdevice]
    exact h.entityNamed E e' he' (hab.reportedEntityNames ▸ hnamed)
  states E := by rw [hab.states, hab.entity_none, h.states]
  foundId D f hf := by
    obtain ⟨f', hf', hprotocol, huid, -⟩ := hab.found_of hf
    rw [hab.device_none, ← hprotocol, ← huid]
    exact h.foundId D f' hf'
  foundSaid D f u listed said hf hu := by
    obtain ⟨f', hf', hprotocol, -, hentities⟩ := hab.found_of hf
    rw [hab.foundEntities, ← hprotocol]
    exact h.foundSaid D f' u listed said hf' (hentities ▸ hu)
  foundKey k D hk := by
    rw [hab.foundEntities] at hk
    obtain ⟨f, hf, hprotocol, hu⟩ := h.foundKey k D hk
    obtain ⟨f', hf', hprotocol', hentities⟩ := hab.found_of' hf
    exact ⟨f', hf', hprotocol'.trans hprotocol, by rwa [hentities]⟩
  apart k D hk := by
    rw [hab.foundEntities] at hk
    rw [hab.entityKeys]
    exact h.apart k D hk

lemma tied_new : Tied (Home.new : Home κ σ) := by
  constructor <;> try simp [Home.new]
  · exact Map.indexed_empty
  · intro D V hV
    simp [viaOf] at hV
  · intro D hloop
    rcases Relation.TransGen.head'_iff.mp hloop with ⟨V, hV, -⟩
    simp [Pointers.Follows, viaOf] at hV
  · exact Map.indexed_empty

lemma Tied.settings {home : Home κ σ} (h : Tied home) (settings : Settings) :
    Tied { home with settings } := { h with }

section Devices

variable {home : Home κ σ} {D : DeviceId} {before device : Device}

lemma viaOf_insert (home : Home κ σ) (D X : DeviceId) (device : Device) :
    viaOf { home with devices := home.devices.insert D device } X =
      if D = X then device.viaDeviceId else viaOf home X := by
  unfold viaOf
  rw [Map.get_insert]
  split <;> rfl

lemma Tied.entityDevice_of {next : Home κ σ} (h : Tied home)
    (hdevices : ∀ (V : DeviceId) (v : Device), home.devices[V]? = some v →
      ∃ v' : Device, next.devices[V]? = some v' ∧ v'.protocol = v.protocol)
    {E : EntityId} {e : Entity κ} {V : DeviceId} (he : home.entities[E]? = some e)
    (hV : e.deviceId = some V) :
    ∃ d : Device, next.devices[V]? = some d ∧ d.protocol = e.protocol := by
  obtain ⟨d, hd, hprotocol⟩ := h.entityDevice E e V he hV
  obtain ⟨d', hd', hprotocol'⟩ := hdevices V d hd
  exact ⟨d', hd', hprotocol'.trans hprotocol⟩

lemma Tied.putDevice (h : Tied home) {keys : Map Key DeviceId}
    (hdevices : Map.Indexed Device.key (home.devices.insert D device) keys)
    (hid : device.id = D ∧ deviceIdFor device.protocol device.uniqueId = D)
    (hprotocol : ∀ d : Device, home.devices[D]? = some d → device.protocol = d.protocol)
    (hfound : home.found[D]? = none) {said : DeviceDescription}
    (hsaid : said.uniqueId = device.uniqueId) (name : Name)
    (hvia : ∀ V : DeviceId, device.viaDeviceId = some V → (∃ v : Device, home.devices[V]? = some v) ∧
      ¬ Relation.ReflTransGen (Pointers.Follows (viaOf home)) V D) :
    Tied { home with
      reportedDeviceNames := home.reportedDeviceNames.insert D name
      deviceDescriptions := home.deviceDescriptions.insert D said
      deviceKeys := keys
      devices := home.devices.insert D device } := by
  refine { h with
    devices := hdevices
    deviceId := ?_, deviceNamed := ?_, deviceSaid := ?_, via := ?_, noLoop := ?_
    entityDevice := ?_, foundId := ?_ }
  · intro X d hd
    rcases Map.get_insert_some hd with ⟨rfl, rfl⟩ | ⟨-, hd⟩
    · exact hid
    · exact h.deviceId X d hd
  · intro X d hd
    rcases Map.get_insert_some hd with ⟨rfl, -⟩ | ⟨-, hd⟩
    · exact ⟨name, by rw [Map.get_insert, if_pos rfl]⟩
    · exact Map.exists_insert name (h.deviceNamed X d hd)
  · intro X d hd
    rcases Map.get_insert_some hd with ⟨rfl, rfl⟩ | ⟨hne, hd⟩
    · exact ⟨said, by rw [Map.get_insert, if_pos rfl], hsaid⟩
    · rw [Map.get_insert, if_neg hne]
      exact h.deviceSaid X d hd
  · intro X V hV
    refine Map.exists_insert device ?_
    change viaOf { home with devices := home.devices.insert D device } X = some V at hV
    rw [viaOf_insert] at hV
    split at hV
    · exact (hvia V hV).1
    · exact h.via X V hV
  · refine h.noLoop.set (x := D) (fun X hX => ?_) fun V hV => ?_
    · exact (viaOf_insert home D X device).trans (if_neg hX.symm)
    · refine (hvia V ?_).2
      have hD' := viaOf_insert home D D device
      rw [if_pos rfl] at hD'
      exact hD'.symm.trans hV
  · intro E e V he hV
    refine h.entityDevice_of (fun X v hv => ?_) he hV
    rw [Map.get_insert]
    split
    · next heq => exact ⟨device, rfl, hprotocol v (heq ▸ hv)⟩
    · exact ⟨v, hv, rfl⟩
  · intro X f hf
    obtain ⟨hX, hnone⟩ := h.foundId X f hf
    refine ⟨hX, ?_⟩
    rw [Map.get_insert, if_neg, hnone]
    rintro rfl
    rw [hfound] at hf
    cases hf

lemma Tied.updateDevice (h : Tied home) (hD : home.devices[D]? = some before)
    (hid : device.id = before.id) (hkey : device.key = before.key) {said : DeviceDescription}
    (hsaid : said.uniqueId = before.uniqueId) (name : Name)
    (hvia : ∀ V : DeviceId, device.viaDeviceId = some V → (∃ v : Device, home.devices[V]? = some v) ∧
      ¬ Relation.ReflTransGen (Pointers.Follows (viaOf home)) V D) :
    Tied { home with
      reportedDeviceNames := home.reportedDeviceNames.insert D name
      deviceDescriptions := home.deviceDescriptions.insert D said
      devices := home.devices.insert D device } := by
  have hprotocol : device.protocol = before.protocol := congrArg Key.protocol hkey
  have huid : device.uniqueId = before.uniqueId := congrArg Key.uniqueId hkey
  refine h.putDevice (h.devices.update hD hkey) ?_ (fun d hd => ?_) ?_ (hsaid.trans huid.symm) name
    hvia
  · rw [hid, hprotocol, huid]
    exact h.deviceId D before hD
  · rw [hD, Option.some.injEq] at hd
    exact hd ▸ hprotocol
  · refine Option.eq_none_iff_forall_ne_some.mpr fun f hf => ?_
    rw [(h.foundId D f hf).2] at hD
    cases hD

lemma Tied.addDevice (h : Tied home) (hD : home.devices[D]? = none)
    (hkey : home.deviceKeys[device.key]? = none) (hfound : home.found[D]? = none)
    (hid : device.id = D ∧ deviceIdFor device.protocol device.uniqueId = D)
    {said : DeviceDescription} (hsaid : said.uniqueId = device.uniqueId) (name : Name)
    (hvia : ∀ V : DeviceId, device.viaDeviceId = some V → ∃ v : Device, home.devices[V]? = some v) :
    Tied { home with
      deviceDescriptions := home.deviceDescriptions.insert D said
      reportedDeviceNames := home.reportedDeviceNames.insert D name
      deviceKeys := home.deviceKeys.insert device.key D
      devices := home.devices.insert D device } := by
  have hnone : ∀ X : DeviceId, viaOf home X ≠ some D := by
    intro X hX
    obtain ⟨v, hv⟩ := h.via X D hX
    rw [hD] at hv
    cases hv
  refine h.putDevice (h.devices.insert hD hkey) hid (fun d hd => ?_) hfound hsaid name
    fun V hV => ⟨hvia V hV, fun hback => ?_⟩
  · rw [hD] at hd
    cases hd
  · -- Nothing leads to a device that wasn't there.
    obtain ⟨v, hv⟩ := hvia V hV
    rw [Pointers.eq_of_reaches hnone hback, hD] at hv
    cases hv

lemma Tied.dropDevice (h : Tied home) (hD : home.devices[D]? = some before)
    (howned : ∀ (E : EntityId) (e : Entity κ), home.entities[E]? = some e → e.deviceId ≠ some D) :
    Tied ({ home with
      deviceKeys := home.deviceKeys.erase before.key
      deviceDescriptions := home.deviceDescriptions.erase D }.dropDevice D).2 := by
  have hget : ∀ X : DeviceId, ((home.devices.map fun _ d => Home.unreach D d).erase D)[X]? =
      if D = X then none else (home.devices[X]?).map (Home.unreach D) := by
    intro X
    rw [Map.get_erase]
    split
    · rfl
    · simp
  have hkeep : ∀ d : Device, (Home.unreach D d).id = d.id ∧ (Home.unreach D d).key = d.key := by
    intro d
    unfold Home.unreach
    split <;> exact ⟨rfl, rfl⟩
  have hrow : ∀ {X : DeviceId} {d : Device},
      ((home.devices.map fun _ d => Home.unreach D d).erase D)[X]? = some d →
      D ≠ X ∧ ∃ d' : Device, home.devices[X]? = some d' ∧ Home.unreach D d' = d := by
    intro X d hd
    rw [hget] at hd
    split at hd
    · cases hd
    · next hne => exact ⟨hne, Option.map_eq_some_iff.mp hd⟩
  have hvia : ∀ X V : DeviceId, viaOf ({ home with
      deviceKeys := home.deviceKeys.erase before.key
      deviceDescriptions := home.deviceDescriptions.erase D }.dropDevice D).2 X = some V →
      viaOf home X = some V ∧ D ≠ V := by
    intro X V hV
    unfold viaOf Home.dropDevice at hV
    obtain ⟨d, hd, hdV⟩ := Option.bind_eq_some_iff.mp hV
    obtain ⟨-, d', hd', rfl⟩ := hrow hd
    unfold Home.unreach at hdV
    split at hdV
    · cases hdV
    · next hne =>
      refine ⟨Option.bind_eq_some_iff.mpr ⟨d', hd', hdV⟩, ?_⟩
      rintro rfl
      exact hne hdV
  refine { h with
    devices := ?_, deviceId := ?_, deviceNamed := ?_, deviceSaid := ?_, via := ?_
    noLoop := h.noLoop.mono fun X V hV => (hvia X V hV).1
    entityDevice := ?_, foundId := ?_ }
  · have hmap : Map.Indexed Device.key (home.devices.map fun _ d => Home.unreach D d)
        home.deviceKeys := by
      refine h.devices.congr fun X => ?_
      simp [Function.comp_def, hkeep]
    exact hmap.erase (h.devices.found hD)
  · intro X d hd
    obtain ⟨-, d', hd', rfl⟩ := hrow hd
    obtain ⟨hid, hkey⟩ := hkeep d'
    have hprotocol : (Home.unreach D d').protocol = d'.protocol := congrArg Key.protocol hkey
    have huid : (Home.unreach D d').uniqueId = d'.uniqueId := congrArg Key.uniqueId hkey
    rw [hid, hprotocol, huid]
    exact h.deviceId X d' hd'
  · intro X d hd
    obtain ⟨-, d', hd', -⟩ := hrow hd
    exact h.deviceNamed X d' hd'
  · intro X d hd
    obtain ⟨hne, d', hd', rfl⟩ := hrow hd
    have huid : (Home.unreach D d').uniqueId = d'.uniqueId :=
      congrArg Key.uniqueId (hkeep d').2
    rw [huid]
    obtain ⟨said, hsaid, heq⟩ := h.deviceSaid X d' hd'
    exact ⟨said, (Map.get_erase _ _ _).trans ((if_neg hne).trans hsaid), heq⟩
  · intro X V hV
    obtain ⟨hV, hne⟩ := hvia X V hV
    obtain ⟨v, hv⟩ := h.via X V hV
    exact ⟨Home.unreach D v, (hget V).trans (by rw [if_neg hne, hv]; rfl)⟩
  · intro E e V he hV
    obtain ⟨d, hd, hprotocol⟩ := h.entityDevice E e V he hV
    have hne : D ≠ V := by
      rintro rfl
      exact howned E e he hV
    exact ⟨Home.unreach D d, (hget V).trans (by rw [if_neg hne, hd]; rfl),
      (congrArg Key.protocol (hkeep d).2).trans hprotocol⟩
  · intro X f hf
    obtain ⟨hX, hnone⟩ := h.foundId X f hf
    exact ⟨hX, (hget X).trans (by rw [hnone]; simp)⟩

end Devices

section Entities

variable {home : Home κ σ} {E : EntityId} {before entity : Entity κ} {D : DeviceId}

lemma Tied.putEntity (h : Tied home) {keys : Map Key EntityId}
    (hentities : Map.Indexed Entity.key (home.entities.insert E entity) keys) (hid : entity.id = E)
    (hdevice : ∀ D : DeviceId, entity.deviceId = some D →
      ∃ d : Device, home.devices[D]? = some d ∧ d.protocol = entity.protocol)
    (listed : List EntityKind) {said : EntityDescription κ}
    (huid : said.uniqueId = entity.uniqueId)
    (hsaid : entity.deviceId = said.deviceUniqueId.map (deviceIdFor entity.protocol))
    {names : Map EntityId Name} (hnamed : names[E]? = none → entity.deviceId ≠ none)
    (hnames : ∀ X : EntityId, E ≠ X → names[X]? = none → home.reportedEntityNames[X]? = none)
    {states : Map EntityId (Core.EntityState σ)}
    (hstates : ∀ X : EntityId, states[X]? = none ↔ (home.entities.insert E entity)[X]? = none)
    (hapart : ∀ (k : Key) (D : DeviceId), home.foundEntities[k]? = some D → keys[k]? = none) :
    Tied { home with
      reportedEntityNames := names
      entityDescriptions := home.entityDescriptions.insert E (listed, said)
      entityKeys := keys
      entities := home.entities.insert E entity
      states := states } := by
  refine { h with
    entities := hentities, states := hstates, apart := hapart
    entityId := ?_, entityDevice := ?_, entitySaid := ?_, entityNamed := ?_ }
  · intro X e he
    rcases Map.get_insert_some he with ⟨rfl, rfl⟩ | ⟨-, he⟩
    · exact hid
    · exact h.entityId X e he
  · intro X e V he hV
    rcases Map.get_insert_some he with ⟨rfl, rfl⟩ | ⟨-, he⟩
    · exact hdevice V hV
    · exact h.entityDevice X e V he hV
  · intro X e he
    rcases Map.get_insert_some he with ⟨rfl, rfl⟩ | ⟨hne, he⟩
    · exact ⟨listed, said, by rw [Map.get_insert, if_pos rfl], huid, hsaid⟩
    · rw [Map.get_insert, if_neg hne]
      exact h.entitySaid X e he
  · intro X e he hnone
    rcases Map.get_insert_some he with ⟨rfl, rfl⟩ | ⟨hne, he⟩
    · exact hnamed hnone
    · exact h.entityNamed X e he (hnames X hne hnone)

lemma Tied.updateEntity (h : Tied home) (hE : home.entities[E]? = some before)
    (hid : entity.id = before.id) (hkey : entity.key = before.key)
    (hdevice : ∀ D : DeviceId, entity.deviceId = some D →
      ∃ d : Device, home.devices[D]? = some d ∧ d.protocol = entity.protocol)
    (listed : List EntityKind) {said : EntityDescription κ}
    (huid : said.uniqueId = entity.uniqueId)
    (hsaid : entity.deviceId = said.deviceUniqueId.map (deviceIdFor entity.protocol))
    {names : Map EntityId Name} (hnamed : names[E]? = none → entity.deviceId ≠ none)
    (hnames : ∀ X : EntityId, E ≠ X → names[X]? = none → home.reportedEntityNames[X]? = none) :
    Tied { home with
      reportedEntityNames := names
      entityDescriptions := home.entityDescriptions.insert E (listed, said)
      entities := home.entities.insert E entity } := by
  refine h.putEntity (h.entities.update hE hkey) (hid.trans (h.entityId E before hE)) hdevice listed
    huid hsaid hnamed hnames (fun X => ?_) h.apart
  rw [h.states, Map.get_insert]
  split
  · next heq => simp [← heq, hE]
  · rfl

lemma Tied.addEntity (h : Tied home) (hE : home.entities[E]? = none)
    (hkey : home.entityKeys[entity.key]? = none) (hfound : home.foundEntities[entity.key]? = none)
    (hid : entity.id = E)
    (hdevice : ∀ D : DeviceId, entity.deviceId = some D →
      ∃ d : Device, home.devices[D]? = some d ∧ d.protocol = entity.protocol)
    (listed : List EntityKind) {said : EntityDescription κ}
    (huid : said.uniqueId = entity.uniqueId)
    (hsaid : entity.deviceId = said.deviceUniqueId.map (deviceIdFor entity.protocol))
    {names : Map EntityId Name} (hnamed : names[E]? = none → entity.deviceId ≠ none)
    (hnames : ∀ X : EntityId, E ≠ X → names[X]? = none → home.reportedEntityNames[X]? = none)
    (state : Core.EntityState σ) :
    Tied { home with
      reportedEntityNames := names
      entityDescriptions := home.entityDescriptions.insert E (listed, said)
      entityKeys := home.entityKeys.insert entity.key E
      entities := home.entities.insert E entity
      states := home.states.insert E state } := by
  refine h.putEntity (h.entities.insert hE hkey) hid hdevice listed huid hsaid hnamed hnames
    (fun X => ?_) fun k V hk => ?_
  · rw [Map.get_insert, Map.get_insert]
    split
    · simp
    · exact h.states X
  · rw [Map.get_insert, if_neg]
    · exact h.apart k V hk
    · rintro rfl
      rw [hfound] at hk
      cases hk

lemma Tied.dropEntity (h : Tied home) {k : Key} (hk : home.entityKeys[k]? = some E) :
    Tied { home with
      entityKeys := home.entityKeys.erase k
      entityDescriptions := home.entityDescriptions.erase E
      entities := home.entities.erase E
      states := home.states.erase E
      reportedEntityNames := home.reportedEntityNames.erase E
      commanded := home.commanded.erase E } := by
  refine { h with
    entities := h.entities.erase hk
    entityId := ?_, entityDevice := ?_, entitySaid := ?_, entityNamed := ?_, states := ?_
    apart := ?_ }
  · intro X e he
    exact h.entityId X e (Map.get_erase_some he).2
  · intro X e V he hV
    exact h.entityDevice X e V (Map.get_erase_some he).2 hV
  · intro X e he
    obtain ⟨hne, he⟩ := Map.get_erase_some he
    rw [Map.get_erase, if_neg hne]
    exact h.entitySaid X e he
  · intro X e he hnone
    obtain ⟨hne, he⟩ := Map.get_erase_some he
    rw [Map.get_erase, if_neg hne] at hnone
    exact h.entityNamed X e he hnone
  · intro X
    rw [Map.get_erase, Map.get_erase]
    split
    · simp
    · exact h.states X
  · intro l V hl
    rw [Map.get_erase]
    split
    · rfl
    · exact h.apart l V hl

end Entities

section Found

variable {home : Home κ σ} {D : DeviceId} {f f' : Found κ σ}

lemma Tied.describeFound (h : Tied home) (hD : home.found[D]? = some f)
    (hid : deviceIdFor f'.protocol f'.description.uniqueId = D) (hprotocol : f'.protocol = f.protocol)
    (hentities : f'.entities = f.entities) :
    Tied { home with found := home.found.insert D f' } := by
  refine { h with foundId := ?_, foundSaid := ?_, foundKey := ?_ }
  · intro X g hg
    rcases Map.get_insert_some hg with ⟨rfl, rfl⟩ | ⟨-, hg⟩
    · exact ⟨hid, (h.foundId D f hD).2⟩
    · exact h.foundId X g hg
  · intro X g u listed said hg hu
    rcases Map.get_insert_some hg with ⟨rfl, rfl⟩ | ⟨-, hg⟩
    · rw [hprotocol]
      exact h.foundSaid D f u listed said hD (hentities ▸ hu)
    · exact h.foundSaid X g u listed said hg hu
  · intro k X hk
    obtain ⟨g, hg, hgk, hu⟩ := h.foundKey k X hk
    rw [Map.get_insert]
    split
    · next heq =>
      subst heq
      rw [hD, Option.some.injEq] at hg
      subst hg
      exact ⟨f', rfl, hprotocol.trans hgk, by rwa [hentities]⟩
    · exact ⟨g, hg, hgk, hu⟩

lemma Tied.newFound (h : Tied home) (hD : home.found[D]? = none)
    (hid : deviceIdFor f.protocol f.description.uniqueId = D) (hlive : home.devices[D]? = none)
    (hentities : f.entities = ∅) : Tied { home with found := home.found.insert D f } := by
  refine { h with foundId := ?_, foundSaid := ?_, foundKey := ?_ }
  · intro X g hg
    rcases Map.get_insert_some hg with ⟨rfl, rfl⟩ | ⟨-, hg⟩
    · exact ⟨hid, hlive⟩
    · exact h.foundId X g hg
  · intro X g u listed said hg hu
    rcases Map.get_insert_some hg with ⟨rfl, rfl⟩ | ⟨-, hg⟩
    · rw [hentities] at hu
      simp at hu
    · exact h.foundSaid X g u listed said hg hu
  · intro k X hk
    obtain ⟨g, hg, hgk, hu⟩ := h.foundKey k X hk
    refine ⟨g, ?_, hgk, hu⟩
    rw [Map.get_insert, if_neg, hg]
    rintro rfl
    rw [hD] at hg
    cases hg

lemma Tied.keepFoundEntity (h : Tied home) (hD : home.found[D]? = some f)
    (listed : List EntityKind) {said : EntityDescription κ}
    (hlive : home.entityKeys[(⟨f.protocol, said.uniqueId⟩ : Key)]? = none)
    (hother : ∀ V : DeviceId, home.foundEntities[(⟨f.protocol, said.uniqueId⟩ : Key)]? = some V →
      V = D)
    (hsaid : said.deviceUniqueId.map (deviceIdFor f.protocol) = some D) :
    Tied (home.keepFoundEntity f.protocol listed said D f) := by
  refine { h with foundId := ?_, foundSaid := ?_, foundKey := ?_, apart := ?_ }
  · intro X g hg
    rcases Map.get_insert_some hg with ⟨rfl, rfl⟩ | ⟨-, hg⟩
    · exact h.foundId D f hD
    · exact h.foundId X g hg
  · intro X g u listed' said' hg hu
    change (home.foundEntities.insert _ D)[_]? = _ ∧ _
    rw [Map.get_insert]
    rcases Map.get_insert_some hg with ⟨rfl, rfl⟩ | ⟨hne, hg⟩
    · rcases Map.get_insert_some hu with ⟨rfl, heq⟩ | ⟨-, hu⟩
      · rw [Prod.mk.injEq] at heq
        obtain ⟨rfl, rfl⟩ := heq
        exact ⟨if_pos rfl, rfl, hsaid⟩
      · obtain ⟨hkey, hrest⟩ := h.foundSaid D f u listed' said' hD hu
        exact ⟨by split <;> first | rfl | exact hkey, hrest⟩
    · obtain ⟨hkey, hrest⟩ := h.foundSaid X g u listed' said' hg hu
      refine ⟨?_, hrest⟩
      rw [if_neg, hkey]
      intro heq
      exact hne (hother X (by rw [heq]; exact hkey)).symm
  · intro k X hk
    change ∃ g : Found κ σ, (home.found.insert D _)[X]? = some g ∧ _
    rw [Map.get_insert]
    rcases Map.get_insert_some hk with ⟨rfl, rfl⟩ | ⟨-, hk⟩
    · exact ⟨_, if_pos rfl, rfl, by simp⟩
    · obtain ⟨g, hg, hgk, hu⟩ := h.foundKey k X hk
      split
      · next heq =>
        subst heq
        rw [hD, Option.some.injEq] at hg
        subst hg
        refine ⟨_, rfl, hgk, ?_⟩
        rw [Map.get_insert]
        split
        · simp
        · exact hu
      · exact ⟨g, hg, hgk, hu⟩
  · intro k X hk
    rcases Map.get_insert_some hk with ⟨rfl, -⟩ | ⟨-, hk⟩
    · exact hlive
    · exact h.apart k X hk

lemma Tied.dropFoundEntity (h : Tied home) {k : Key} (hk : home.foundEntities[k]? = some D)
    (hD : home.found[D]? = some f) (hprotocol : f.protocol = k.protocol)
    (reports : Map UniqueId (StateReport σ)) :
    Tied { home with
      foundEntities := home.foundEntities.erase k
      found := home.found.insert D
        { f with entities := f.entities.erase k.uniqueId, reports } } := by
  refine { h with foundId := ?_, foundSaid := ?_, foundKey := ?_, apart := ?_ }
  · intro X g hg
    rcases Map.get_insert_some hg with ⟨rfl, rfl⟩ | ⟨-, hg⟩
    · exact h.foundId D f hD
    · exact h.foundId X g hg
  · intro X g u listed said hg hu
    change (home.foundEntities.erase k)[_]? = _ ∧ _
    rw [Map.get_erase]
    rcases Map.get_insert_some hg with ⟨rfl, rfl⟩ | ⟨hne, hg⟩
    · obtain ⟨hu', hu⟩ := Map.get_erase_some hu
      rw [if_neg (fun heq => hu' (congrArg Key.uniqueId heq))]
      exact h.foundSaid D f u listed said hD hu
    · obtain ⟨hkey, hrest⟩ := h.foundSaid X g u listed said hg hu
      refine ⟨?_, hrest⟩
      rw [if_neg, hkey]
      rintro rfl
      rw [hk, Option.some.injEq] at hkey
      exact hne hkey
  · intro l X hl
    obtain ⟨hne, hl⟩ := Map.get_erase_some hl
    obtain ⟨g, hg, hgl, hu⟩ := h.foundKey l X hl
    change ∃ g : Found κ σ, (home.found.insert D _)[X]? = some g ∧ _
    rw [Map.get_insert]
    split
    · next heq =>
      subst heq
      rw [hD, Option.some.injEq] at hg
      subst hg
      refine ⟨_, rfl, hgl, ?_⟩
      rw [Map.get_erase, if_neg]
      · exact hu
      · intro heq
        refine hne ?_
        cases k
        cases l
        simp only [Key.mk.injEq]
        exact ⟨hprotocol.symm.trans hgl, heq⟩
    · exact ⟨g, hg, hgl, hu⟩
  · intro l X hl
    exact h.apart l X (Map.get_erase_some hl).2

lemma get_foldl_erase (p : ProtocolId) (us : List UniqueId) (keys : Map Key DeviceId) (k : Key) :
    (us.foldl (fun keys u => keys.erase ⟨p, u⟩) keys)[k]? =
      if k.protocol = p ∧ k.uniqueId ∈ us then none else keys[k]? := by
  induction us generalizing keys with
  | nil => simp
  | cons u us ih =>
    rw [List.foldl_cons, ih, Map.get_erase]
    obtain ⟨q, v⟩ := k
    simp only [Key.mk.injEq, List.mem_cons]
    by_cases hp : q = p
    · by_cases hv : v ∈ us
      · simp [hp, hv]
      · by_cases hu : v = u
        · simp [hp, hu]
        · simp [hp, hv, hu, show ¬u = v from fun heq => hu heq.symm]
    · simp [hp, Ne.symm hp]

lemma Tied.dropFound (h : Tied home) (hD : home.found[D]? = some f) :
    Tied (home.dropFound f.protocol D f) := by
  have hmem : ∀ u : UniqueId, u ∈ f.entities.keys ↔ f.entities[u]? ≠ none := by
    intro u
    rw [Std.ExtTreeMap.mem_keys, Std.ExtTreeMap.mem_iff_isSome_getElem?, Option.isSome_iff_ne_none]
  have hkeys : ∀ k : Key, (home.dropFound f.protocol D f).foundEntities[k]? =
      if k.protocol = f.protocol ∧ f.entities[k.uniqueId]? ≠ none then none
      else home.foundEntities[k]? := by
    intro k
    simp only [← hmem]
    exact get_foldl_erase _ _ _ _
  refine { h with foundId := ?_, foundSaid := ?_, foundKey := ?_, apart := ?_ }
  · intro X g hg
    exact h.foundId X g (Map.get_erase_some hg).2
  · intro X g u listed said hg hu
    obtain ⟨hne, hg⟩ := Map.get_erase_some hg
    obtain ⟨hkey, hrest⟩ := h.foundSaid X g u listed said hg hu
    refine ⟨?_, hrest⟩
    rw [hkeys, if_neg, hkey]
    rintro ⟨hprotocol, hin⟩
    obtain ⟨⟨listed', said'⟩, hin⟩ := Option.ne_none_iff_exists'.mp hin
    have hkey' := (h.foundSaid D f u listed' said' hD hin).1
    dsimp only at hprotocol
    rw [← hprotocol, hkey, Option.some.injEq] at hkey'
    exact hne hkey'.symm
  · intro k X hk
    rw [hkeys] at hk
    split at hk
    · cases hk
    · next hnot =>
      obtain ⟨g, hg, hgk, hu⟩ := h.foundKey k X hk
      refine ⟨g, ?_, hgk, hu⟩
      refine (Map.get_erase _ _ _).trans ((if_neg ?_).trans hg)
      rintro rfl
      rw [hD, Option.some.injEq] at hg
      subst hg
      exact hnot ⟨hgk.symm, hu⟩
  · intro k X hk
    rw [hkeys] at hk
    split at hk
    · cases hk
    · exact h.apart k X hk

end Found

end Irori.Proofs
