import Irori.Proofs.Integrity
import Irori.Proofs.Refusals

/-!
# What was last said

What a home remembers of the descriptions it accepted, and the names and rooms that follow from
them: what removals and descriptions keep of both.
-/

namespace Irori.Proofs
open Irori Irori.Core

variable {κ σ : Type}

structure Heard (κ : Type) where
  devices : Map Key DeviceDescription
  entities : Map Key (EntityDescription κ)

namespace Heard

def none : Heard κ := ⟨∅, ∅⟩

def device (heard : Heard κ) (p : ProtocolId) (said : DeviceDescription) : Heard κ :=
  { heard with devices := heard.devices.insert ⟨p, said.uniqueId⟩ said }

def entity (heard : Heard κ) (p : ProtocolId) (said : EntityDescription κ) : Heard κ :=
  { heard with entities := heard.entities.insert ⟨p, said.uniqueId⟩ said }

def after (heard : Heard κ) (op : HomeOp κ σ) (result : Except Rejected (List (Event κ σ))) :
    Heard κ :=
  match op, result with
  | .describeDevice p said, .ok _ => heard.device p said
  | .describeEntity p _ said _, .ok _ => heard.entity p said
  | _, _ => heard

end Heard

/-! ### What is remembered -/

/-- What a home keeps of the last descriptions, whatever the settings say. -/
structure Remembers (heard : Heard κ) (home : Home κ σ) : Prop where
  device : ∀ (D : DeviceId) (d : Device), home.devices[D]? = some d →
    ∃ said : DeviceDescription, heard.devices[d.key]? = some said ∧
      home.deviceDescriptions[D]? = some said ∧
      home.reportedDeviceNames[D]? = some said.name ∧ d.suggestedArea = said.suggestedArea
  entity : ∀ (E : EntityId) (e : Entity κ), home.entities[E]? = some e →
    ∃ (listed : List EntityKind) (said : EntityDescription κ),
      heard.entities[e.key]? = some said ∧ home.entityDescriptions[E]? = some (listed, said) ∧
      home.reportedEntityNames[E]? = said.name
  entityDevice : ∀ (E : EntityId) (e : Entity κ) (D : DeviceId) (d : Device),
    home.entities[E]? = some e → e.deviceId = some D → home.devices[D]? = some d →
    ∃ (listed : List EntityKind) (said : EntityDescription κ),
      home.entityDescriptions[E]? = some (listed, said) ∧ said.deviceUniqueId = some d.uniqueId
  nameless : ∀ E : EntityId, home.entities[E]? = none → home.reportedEntityNames[E]? = none
  found : ∀ (D : DeviceId) (f : Found κ σ), home.found[D]? = some f →
    heard.devices[(⟨f.protocol, f.description.uniqueId⟩ : Key)]? = some f.description
  foundEntity : ∀ (D : DeviceId) (f : Found κ σ) (u : UniqueId) (listed : List EntityKind)
    (said : EntityDescription κ), home.found[D]? = some f → f.entities[u]? = some (listed, said) →
    heard.entities[(⟨f.protocol, u⟩ : Key)]? = some said

/-- Names and rooms follow from what is remembered and from the settings. -/
structure Named (kinds : Kinds κ σ) (home : Home κ σ) : Prop where
  device : ∀ (D : DeviceId) (d : Device) (name : Name), home.devices[D]? = some d →
    home.reportedDeviceNames[D]? = some name →
    d.name = home.nameForDevice D name ∧ d.areaId = home.areaForDevice kinds D d.suggestedArea
  entity : ∀ (E : EntityId) (e : Entity κ), home.entities[E]? = some e →
    home.nameForEntity E e.deviceId = some e.name

section

variable {heard : Heard κ} {kinds : Kinds κ σ} {home next : Home κ σ}

lemma Remembers.congr {heard' : Heard κ} (h : Remembers heard home)
    (hdevices : ∀ k : Key, heard'.devices[k]? = heard.devices[k]?)
    (hentities : ∀ k : Key, heard'.entities[k]? = heard.entities[k]?) : Remembers heard' home where
  device D d hd := by rw [hdevices]; exact h.device D d hd
  entity E e he := by rw [hentities]; exact h.entity E e he
  entityDevice := h.entityDevice
  nameless := h.nameless
  found D f hf := by rw [hdevices]; exact h.found D f hf
  foundEntity D f u listed said hf hu := by
    rw [hentities]
    exact h.foundEntity D f u listed said hf hu

lemma Remembers.again_device {p : ProtocolId} {said : DeviceDescription}
    (h : Remembers (heard.device p said) home)
    (hsaid : heard.devices[(⟨p, said.uniqueId⟩ : Key)]? = some said) : Remembers heard home := by
  refine h.congr (fun k => ?_) fun k => rfl
  rw [Heard.device, Map.get_insert]
  split
  · next heq => rw [← heq, hsaid]
  · rfl

lemma Remembers.again_entity {p : ProtocolId} {said : EntityDescription κ}
    (h : Remembers (heard.entity p said) home)
    (hsaid : heard.entities[(⟨p, said.uniqueId⟩ : Key)]? = some said) : Remembers heard home := by
  refine h.congr (fun k => rfl) fun k => ?_
  rw [Heard.entity, Map.get_insert]
  split
  · next heq => rw [← heq, hsaid]
  · rfl

lemma remembers_new : Remembers Heard.none (Home.new : Home κ σ) := by
  constructor <;> simp [Home.new]

lemma named_new : Named kinds Home.new := by
  constructor <;> simp [Home.new]

lemma nameForEntity_congr {E : EntityId} {D : Option DeviceId}
    (hkey : next.entityKey E = home.entityKey E) (hsettings : next.settings = home.settings)
    (hreported : next.reportedEntityNames[E]? = home.reportedEntityNames[E]?)
    (hdevice : ∀ X : DeviceId, D = some X →
      (next.devices[X]?).map Device.name = (home.devices[X]?).map Device.name) :
    next.nameForEntity E D = home.nameForEntity E D := by
  have hchosen : next.chosenName = home.chosenName := by
    unfold Home.chosenName
    rw [hsettings]
  have hname : (D.bind (next.devices[·]?)).map Device.name =
      (D.bind (home.devices[·]?)).map Device.name := by
    cases D with
    | none => rfl
    | some X => exact hdevice X rfl
  unfold Home.nameForEntity
  rw [hkey, hchosen, hreported, hname]

lemma entityKey_of_tie {E : EntityId}
    (h : (next.entities[E]?).map entityTie = (home.entities[E]?).map entityTie) :
    next.entityKey E = home.entityKey E := by
  have hkey := congrArg (Option.map fun tie => tie.2.1) h
  rwa [Option.map_map, Option.map_map] at hkey

/-! ### What says nothing -/

lemma foundSaid_eq {f f' : Found κ σ} (h : foundSaid f' = foundSaid f) :
    f'.protocol = f.protocol ∧ f'.description = f.description ∧ f'.entities = f.entities := by
  simpa [foundSaid] using h

lemma Remembers.unsaid (h : Remembers heard home) (hnext : Unsaid home next) :
    Remembers heard next where
  device D d hd := by
    rw [hnext.deviceDescriptions, hnext.reportedDeviceNames]
    exact h.device D d (hnext.devices ▸ hd)
  entity E e he := by
    rw [hnext.entityDescriptions, hnext.reportedEntityNames]
    exact h.entity E e (hnext.entities ▸ he)
  entityDevice E e D d he hD hd := by
    rw [hnext.entityDescriptions]
    exact h.entityDevice E e D d (hnext.entities ▸ he) hD (hnext.devices ▸ hd)
  nameless E hE := by
    rw [hnext.reportedEntityNames]
    exact h.nameless E (hnext.entities ▸ hE)
  found D f hf := by
    obtain ⟨f', hf', heq⟩ := Alike.exists_of_map (hnext.found D) hf
    obtain ⟨hprotocol, hsaid, -⟩ := foundSaid_eq heq
    rw [← hprotocol, ← hsaid]
    exact h.found D f' hf'
  foundEntity D f u listed said hf hu := by
    obtain ⟨f', hf', heq⟩ := Alike.exists_of_map (hnext.found D) hf
    obtain ⟨hprotocol, -, hentities⟩ := foundSaid_eq heq
    rw [← hprotocol]
    exact h.foundEntity D f' u listed said hf' (hentities ▸ hu)

lemma Named.unsaid (h : Named kinds home) (hnext : Unsaid home next) : Named kinds next where
  device D d name hd hname := by
    unfold Home.nameForDevice Home.areaForDevice
    rw [hnext.settings]
    exact h.device D d name (hnext.devices ▸ hd) (hnext.reportedDeviceNames ▸ hname)
  entity E e he := by
    rw [nameForEntity_congr (entityKey_of_tie (hnext.alike.entities E)) hnext.settings
      (by rw [hnext.reportedEntityNames]) fun X _ => by rw [hnext.devices]]
    exact h.entity E e (hnext.entities ▸ he)

/-! ### Removals -/

lemma removeEntity_remembers (h : Remembers heard home) (p : ProtocolId) (u : UniqueId) :
    Remembers heard (home.removeEntity p u).2 := by
  unfold Home.removeEntity
  dsimp only
  split
  · next D hD =>
    cases hf : home.found[D]? with
    | none => exact { h with }
    | some f =>
      refine { h with found := fun X g hg => ?_, foundEntity := fun X g v listed said hg hv => ?_ }
      · rcases Map.get_insert_some hg with ⟨rfl, rfl⟩ | ⟨-, hg⟩
        · exact h.found D f hf
        · exact h.found X g hg
      · rcases Map.get_insert_some hg with ⟨rfl, rfl⟩ | ⟨-, hg⟩
        · exact h.foundEntity D f v listed said hf (Map.get_erase_some hv).2
        · exact h.foundEntity X g v listed said hg hv
  · split
    · exact h
    · next E hE =>
      refine { h with
        entity := fun X e he => ?_, entityDevice := fun X e D d he hD hd => ?_
        nameless := fun X hX => ?_ }
      · obtain ⟨hne, he⟩ := Map.get_erase_some he
        rw [Map.get_erase, if_neg hne, Map.get_erase, if_neg hne]
        exact h.entity X e he
      · obtain ⟨hne, he⟩ := Map.get_erase_some he
        rw [Map.get_erase, if_neg hne]
        exact h.entityDevice X e D d he hD hd
      · rw [Map.get_erase] at hX ⊢
        split
        · rfl
        · next hne =>
          rw [if_neg hne] at hX
          exact h.nameless X hX

lemma removeEntity_named (h : Named kinds home) (p : ProtocolId) (u : UniqueId) :
    Named kinds (home.removeEntity p u).2 := by
  unfold Home.removeEntity
  dsimp only
  split
  · exact { h with }
  · split
    · exact h
    · refine ⟨fun D d name => h.device D d name, fun X e he => ?_⟩
      obtain ⟨hne, he⟩ := Map.get_erase_some he
      rw [← h.entity X e he]
      refine nameForEntity_congr ?_ rfl ?_ fun _ _ => rfl
      · unfold Home.entityKey
        rw [Map.get_erase, if_neg hne]
      · rw [Map.get_erase, if_neg hne]

lemma removeEntities_keep {P : Home κ σ → Prop}
    (hstep : ∀ (home : Home κ σ) (p : ProtocolId) (u : UniqueId), P home →
      P (home.removeEntity p u).2) (es : List (Entity κ)) (h : P home) :
    P (Home.removeEntities es home).2 := by
  induction es generalizing home with
  | nil => exact h
  | cons e es ih =>
    have hone := hstep home e.protocol e.uniqueId h
    rw [Home.removeEntities]
    generalize home.removeEntity e.protocol e.uniqueId = removed at hone
    obtain ⟨result, mid⟩ := removed
    cases result with
    | error e => exact hone
    | ok events => exact ih hone

lemma unreach_same (D : DeviceId) (d : Device) : (Home.unreach D d).key = d.key ∧
    (Home.unreach D d).suggestedArea = d.suggestedArea ∧ (Home.unreach D d).name = d.name ∧
    (Home.unreach D d).areaId = d.areaId := by
  unfold Home.unreach
  split <;> exact ⟨rfl, rfl, rfl, rfl⟩

lemma get_dropped {devices : Map DeviceId Device} {D X : DeviceId} {d : Device}
    (h : ((devices.map fun _ device => Home.unreach D device).erase D)[X]? = some d) :
    D ≠ X ∧ ∃ before : Device, devices[X]? = some before ∧ Home.unreach D before = d := by
  obtain ⟨hne, hd⟩ := Map.get_erase_some h
  rw [Std.ExtTreeMap.getElem?_map, Option.map_eq_some_iff] at hd
  exact ⟨hne, hd⟩

lemma Remembers.dropDevice (h : Remembers heard home) (D : DeviceId) (keys : Map Key DeviceId) :
    Remembers heard { home with
      deviceKeys := keys
      deviceDescriptions := home.deviceDescriptions.erase D
      devices := (home.devices.map fun _ device => Home.unreach D device).erase D } := by
  refine { h with
    device := fun X d hd => ?_, entityDevice := fun E e X d he hX hd => ?_ }
  · obtain ⟨hne, before, hbefore, rfl⟩ := get_dropped hd
    obtain ⟨hkey, harea, -⟩ := unreach_same D before
    rw [hkey, harea, Map.get_erase, if_neg hne]
    exact h.device X before hbefore
  · obtain ⟨-, before, hbefore, rfl⟩ := get_dropped hd
    rw [show (Home.unreach D before).uniqueId = before.uniqueId from
      congrArg Key.uniqueId (unreach_same D before).1]
    exact h.entityDevice E e X before he hX hbefore

lemma Named.dropDevice (h : Named kinds home) {D : DeviceId} (keys : Map Key DeviceId)
    (descriptions : Map DeviceId DeviceDescription)
    (howned : ∀ (E : EntityId) (e : Entity κ), home.entities[E]? = some e → e.deviceId ≠ some D) :
    Named kinds { home with
      deviceKeys := keys
      deviceDescriptions := descriptions
      devices := (home.devices.map fun _ device => Home.unreach D device).erase D } where
  device X d name hd hname := by
    obtain ⟨hne, before, hbefore, rfl⟩ := get_dropped hd
    obtain ⟨-, hsuggested, hsame, harea⟩ := unreach_same D before
    rw [hsame, harea, hsuggested]
    exact h.device X before name hbefore hname
  entity E e he := by
    rw [← h.entity E e he]
    refine nameForEntity_congr rfl rfl rfl fun X hX => ?_
    have hne : D ≠ X := fun heq => howned E e he (heq ▸ hX)
    rw [Map.get_erase, if_neg hne, Std.ExtTreeMap.getElem?_map]
    cases home.devices[X]? with
    | none => rfl
    | some d => exact congrArg some (unreach_same D d).2.2.1

lemma Remembers.dropFound (h : Remembers heard home) (p : ProtocolId) (D : DeviceId)
    (f : Found κ σ) : Remembers heard (home.dropFound p D f) :=
  { h with
    found := fun X g hg => h.found X g (Map.get_erase_some hg).2
    foundEntity := fun X g u listed said hg =>
      h.foundEntity X g u listed said (Map.get_erase_some hg).2 }

lemma removeDevice_cut_keeps (h : Tied home) {D : DeviceId} {d : Device}
    (hD : home.devices[D]? = some d) (hr : Remembers heard home) :
    Remembers heard (home.removeDevice d.protocol d.uniqueId).2 ∧
      (Named kinds home → Named kinds (home.removeDevice d.protocol d.uniqueId).2) := by
  obtain ⟨events, mid, hmid, -, -, -, -, howned, more, hremove⟩ := removeDevice_cut h hD
  have hkeep : ∀ P : Home κ σ → Prop, (∀ (home : Home κ σ) (p : ProtocolId) (u : UniqueId),
      P home → P (home.removeEntity p u).2) → P home → P mid := by
    intro P hstep hP
    have hP' := removeEntities_keep hstep (home.owned D) hP
    rwa [hmid] at hP'
  rw [hremove]
  have hleft : Remembers heard mid :=
    hkeep (Remembers heard) (fun _ p u hr => removeEntity_remembers hr p u) hr
  refine ⟨hleft.dropDevice D _, fun hn => ?_⟩
  have hnamed : Named kinds mid :=
    hkeep (Named kinds) (fun _ p u hn => removeEntity_named hn p u) hn
  exact hnamed.dropDevice _ _ howned

lemma removeDevice_keeps (h : Tied home) (p : ProtocolId) (u : UniqueId)
    (hr : Remembers heard home) : Remembers heard (home.removeDevice p u).2 ∧
      (Named kinds home → Named kinds (home.removeDevice p u).2) := by
  cases hf : home.found[deviceIdFor p u]? with
  | some f =>
    have hremove : (home.removeDevice p u).2 = home.dropFound p (deviceIdFor p u) f := by
      unfold Home.removeDevice
      simp only [hf]
    rw [hremove]
    exact ⟨hr.dropFound p _ f, fun hn => { hn with }⟩
  | none =>
    cases hk : home.deviceKeys[(⟨p, u⟩ : Key)]? with
    | none =>
      have hremove : (home.removeDevice p u).2 = home := by
        unfold Home.removeDevice
        simp only [hf, hk]
      rw [hremove]
      exact ⟨hr, id⟩
    | some D =>
      obtain ⟨d, hd, hkey⟩ := h.devices.row hk
      cases hkey
      exact removeDevice_cut_keeps h hd hr

lemma removeProtocol_keeps (h : Tied home) (p : ProtocolId) (hr : Remembers heard home)
    (hn : Named kinds home) : Remembers heard (home.removeProtocol p).2 ∧
      Named kinds (home.removeProtocol p).2 :=
  (removeProtocol_tied (P := fun home => Remembers heard home ∧ Named kinds home) h p
    (fun _ u htied hkept =>
      have hboth := removeDevice_keeps htied p u hkept.1
      ⟨hboth.1, hboth.2 hkept.2⟩) ⟨hr, hn⟩).2.1

lemma hold_keeps (h : Tied home) (D : DeviceId) (hr : Remembers heard home) :
    Remembers heard (home.hold D).2 ∧ (Named kinds home → Named kinds (home.hold D).2) := by
  unfold Home.hold
  split
  · next d said hD hsaid =>
    obtain ⟨hr', hn'⟩ := @removeDevice_cut_keeps _ _ _ kinds _ h _ _ hD hr
    obtain ⟨hprotocol, hdescription, hfrom, -⟩ := foldl_holdEntity home
      (home.owned D) ⟨d.protocol, said, ∅, ∅, true⟩
    dsimp only
    generalize (home.owned D).foldl home.holdEntity _ = f at *
    refine ⟨{ hr' with found := fun X g hg => ?_, foundEntity := fun X g u listed said hg hu => ?_ },
      fun hn => { hn' hn with }⟩
    · rcases Map.get_insert_some hg with ⟨rfl, rfl⟩ | ⟨-, hg⟩
      · obtain ⟨said', hheard, hsaid', -⟩ := hr.device D d hD
        obtain ⟨said'', hsaid'', huid⟩ := h.deviceSaid D d hD
        rw [hsaid, Option.some.injEq] at hsaid' hsaid''
        rw [hprotocol, hdescription]
        dsimp only
        rw [hsaid'', huid, ← hsaid'', hsaid']
        exact hheard
      · exact hr'.found X g hg
    · rcases Map.get_insert_some hg with ⟨rfl, rfl⟩ | ⟨-, hg⟩
      · rcases hfrom u _ hu with hu | ⟨e, he, rfl, hx⟩
        · simp at hu
        · obtain ⟨hget, hdevice⟩ := (owned_ids h.entityId D).1 e he
          obtain ⟨listed', said', hheard, hsaid', -⟩ := hr.entity e.id e hget
          obtain ⟨d', hd', hp⟩ := h.entityDevice e.id e D hget hdevice
          rw [hD, Option.some.injEq] at hd'
          rw [hx, Option.some.injEq, Prod.mk.injEq] at hsaid'
          rw [hprotocol, hd', hp, hsaid'.2]
          exact hheard
      · exact hr'.foundEntity X g u listed said hg hu
  · exact ⟨hr, id⟩

/-! ### Renaming entities -/

def NamedAt (home : Home κ σ) (E : EntityId) : Prop :=
  ∀ e : Entity κ, home.entities[E]? = some e → home.nameForEntity E e.deviceId = some e.name

lemma Renamed.names (h : Renamed home next) (E : EntityId) (D : Option DeviceId) :
    next.nameForEntity E D = home.nameForEntity E D := by
  have hkey := entityKey_of_tie (h.alike.entities E)
  obtain ⟨entities, rfl, -⟩ := h
  exact nameForEntity_congr hkey rfl rfl fun _ _ => rfl

lemma Remembers.renamed (h : Remembers heard home) (hnext : Renamed home next) :
    Remembers heard next := by
  have halike := hnext.alike
  obtain ⟨entities, rfl, htie⟩ := hnext
  refine { h with
    entity := fun E e he => ?_, entityDevice := fun E e D d he hD hd => ?_
    nameless := fun E hE => ?_ }
  · obtain ⟨e', he', heq⟩ := Alike.exists_of_map (htie E) he
    rw [← show e'.key = e.key from congrArg (fun tie => tie.2.1) heq]
    exact h.entity E e' he'
  · obtain ⟨e', he', heq⟩ := Alike.exists_of_map (htie E) he
    exact h.entityDevice E e' D d he' ((congrArg (fun tie => tie.2.2) heq).trans hD) hd
  · exact h.nameless E ((halike.entity_none E).mp hE)

lemma renameEntity_namedAt {E : EntityId} {e : Entity κ} {changes : Changes κ σ}
    (he : home.entities[E]? = some e) (hrun : home.renameEntity e.deviceId E = some changes) :
    NamedAt changes.2 E ∧ ∀ X : EntityId, NamedAt home X → NamedAt changes.2 X := by
  have hsame := (renameEntity_run hrun).names
  unfold Home.renameEntity at hrun
  rw [he] at hrun
  cases hname : home.nameForEntity E e.deviceId with
  | none =>
    rw [hname] at hrun
    cases hrun
  | some name =>
    rw [hname] at hrun
    dsimp only at hrun
    split at hrun
    · next heq =>
      cases hrun
      refine ⟨fun e' he' => ?_, fun X hX => hX⟩
      rw [he, Option.some.injEq] at he'
      rw [← he', hname, heq]
    · cases hrun
      refine ⟨fun e' he' => ?_, fun X hX e' he' => ?_⟩
      · rcases Map.get_insert_some he' with ⟨-, rfl⟩ | ⟨hne, -⟩
        · rw [hsame]
          exact hname
        · exact absurd rfl hne
      · rw [hsame]
        rcases Map.get_insert_some he' with ⟨rfl, rfl⟩ | ⟨-, he'⟩
        · exact hname
        · exact hX e' he'

lemma sweep_named (h : Tied home) (step : EntityId → Home κ σ → Option (Changes κ σ))
    (ids : List EntityId)
    (hstep : ∀ E ∈ ids, ∀ mid : Home κ σ, Renamed home mid → ∃ e : Entity κ,
      mid.entities[E]? = some e ∧ step E mid = mid.renameEntity e.deviceId E)
    (events : List (Event κ σ)) :
    ∃ (events' : List (Event κ σ)) (next : Home κ σ),
      sweep step ids (events, home) = some (events', next) ∧ Renamed home next ∧
        (∀ X : EntityId, NamedAt home X → NamedAt next X) ∧ ∀ E ∈ ids, NamedAt next E := by
  obtain ⟨events', next, hsweep, ⟨hrenamed, hkept⟩, hnamed⟩ := sweep_each step ids
    (fun mid => Renamed home mid ∧ ∀ X : EntityId, NamedAt home X → NamedAt mid X) (fun E mid =>
      NamedAt mid E)
    (fun E hE mid hmid => by
      obtain ⟨e, he, heq⟩ := hstep E hE mid hmid.1
      obtain ⟨events, next, hnext, hrenamed⟩ := renameEntity_renamed (h.alike hmid.1.alike) he
      obtain ⟨hat, hothers⟩ := renameEntity_namedAt he hnext
      exact ⟨events, next, heq.trans hnext, ⟨hmid.1.trans hrenamed,
        fun X hX => hothers X (hmid.2 X hX)⟩, hat, fun X _ hX => hothers X hX⟩)
    events ⟨.refl home, fun _ hX => hX⟩
  exact ⟨events', next, hsweep, hrenamed, hkept, hnamed⟩

/-! ### Devices that are described -/

section Devices

variable {p : ProtocolId} {said : DeviceDescription}

lemma heard_device_self : (heard.device p said).devices[(⟨p, said.uniqueId⟩ : Key)]? = some said :=
  (Map.get_insert _ _ _ _).trans (if_pos rfl)

lemma heard_device_other {k : Key} (hne : (⟨p, said.uniqueId⟩ : Key) ≠ k) :
    (heard.device p said).devices[k]? = heard.devices[k]? :=
  (Map.get_insert _ _ _ _).trans (if_neg hne)

lemma Remembers.otherDevice (hr : Remembers heard home) {D : DeviceId} {d : Device}
    (hd : home.devices[D]? = some d) (hne : (⟨p, said.uniqueId⟩ : Key) ≠ d.key) :
    ∃ said' : DeviceDescription, (heard.device p said).devices[d.key]? = some said' ∧
      home.deviceDescriptions[D]? = some said' ∧
      home.reportedDeviceNames[D]? = some said'.name ∧ d.suggestedArea = said'.suggestedArea := by
  rw [heard_device_other hne]
  exact hr.device D d hd

lemma keepFound_keeps (h : Tied home) (hr : Remembers heard home)
    (hown : OwnFound home p said.uniqueId)
    (hlive : home.found[deviceIdFor p said.uniqueId]? = none →
      home.devices[deviceIdFor p said.uniqueId]? = none) :
    Remembers (heard.device p said) (home.keepFound p said).2 ∧
      (Named kinds home → Named kinds (home.keepFound p said).2) := by
  have hnone : home.devices[deviceIdFor p said.uniqueId]? = none := by
    cases hf : home.found[deviceIdFor p said.uniqueId]? with
    | none => exact hlive hf
    | some f => exact (h.foundId _ f hf).2
  have hdevice : ∀ (D : DeviceId) (d : Device), home.devices[D]? = some d →
      (⟨p, said.uniqueId⟩ : Key) ≠ d.key := by
    intro D d hd heq
    obtain ⟨-, hid⟩ := h.deviceId D d hd
    rw [← show p = d.protocol from congrArg Key.protocol heq,
      ← show said.uniqueId = d.uniqueId from congrArg Key.uniqueId heq] at hid
    rw [hid, hd] at hnone
    cases hnone
  have hother : ∀ (X : DeviceId) (g : Found κ σ), deviceIdFor p said.uniqueId ≠ X →
      home.found[X]? = some g → (heard.device p said).devices[
        (⟨g.protocol, g.description.uniqueId⟩ : Key)]? = some g.description := by
    intro X g hne hg
    rw [heard_device_other]
    · exact hr.found X g hg
    · intro heq
      rw [Key.mk.injEq] at heq
      exact hne (by rw [heq.1, heq.2]; exact (h.foundId X g hg).1)
  unfold Home.keepFound
  dsimp only
  split
  · next f hf =>
    refine ⟨⟨fun D d hd => hr.otherDevice hd (hdevice D d hd), hr.entity, hr.entityDevice, hr.nameless,
      fun X g hg => ?_, fun X g u listed said' hg hu => ?_⟩, fun hn => { hn with }⟩
    · rcases Map.get_insert_some hg with ⟨rfl, rfl⟩ | ⟨hne, hg⟩
      · rw [hown f hf]
        exact heard_device_self
      · exact hother X g hne hg
    · rcases Map.get_insert_some hg with ⟨rfl, rfl⟩ | ⟨-, hg⟩
      · exact hr.foundEntity _ f u listed said' hf hu
      · exact hr.foundEntity X g u listed said' hg hu
  · refine ⟨⟨fun D d hd => hr.otherDevice hd (hdevice D d hd), hr.entity, hr.entityDevice, hr.nameless,
      fun X g hg => ?_, fun X g u listed said' hg hu => ?_⟩, fun hn => { hn with }⟩
    · rcases Map.get_insert_some hg with ⟨rfl, rfl⟩ | ⟨hne, hg⟩
      · exact heard_device_self
      · exact hother X g hne hg
    · rcases Map.get_insert_some hg with ⟨rfl, rfl⟩ | ⟨-, hg⟩
      · simp at hu
      · exact hr.foundEntity X g u listed said' hg hu

lemma Remembers.otherFound (hr : Remembers heard home) (h : Tied home) {D : DeviceId}
    (hid : deviceIdFor p said.uniqueId = D) (hfound : home.found[D]? = none) {X : DeviceId}
    {g : Found κ σ} (hg : home.found[X]? = some g) :
    (heard.device p said).devices[(⟨g.protocol, g.description.uniqueId⟩ : Key)]? =
      some g.description := by
  rw [heard_device_other]
  · exact hr.found X g hg
  · intro heq
    rw [Key.mk.injEq] at heq
    have hX := (h.foundId X g hg).1
    rw [← heq.1, ← heq.2, hid] at hX
    rw [← hX, hfound] at hg
    cases hg

lemma updateDevice_keeps (h : Tied home) (hr : Remembers heard home) {D : DeviceId}
    {before : Device} (hD : home.devices[D]? = some before)
    (hkey : before.key = ⟨p, said.uniqueId⟩) {via : Option DeviceId}
    (hvia : ∀ V : DeviceId, via = some V → ∃ v : Device, home.devices[V]? = some v)
    {events : List (Event κ σ)}
    (hrun : home.updateDevice kinds D said via = some (.ok events, next)) :
    Remembers (heard.device p said) next ∧ (Named kinds home → Named kinds next) := by
  have huid : said.uniqueId = before.uniqueId := (congrArg Key.uniqueId hkey).symm
  obtain ⟨hid, hfor⟩ := h.deviceId D before hD
  have hfound : home.found[D]? = none := by
    cases hf : home.found[D]? with
    | none => rfl
    | some f =>
      rw [(h.foundId D f hf).2] at hD
      cases hD
  have hfor' : deviceIdFor p said.uniqueId = D := by
    rw [← hfor, huid, show before.protocol = p from congrArg Key.protocol hkey]
  unfold Home.updateDevice at hrun
  split at hrun
  · cases hrun
  · next hreach =>
    simp only [hD] at hrun
    generalize hdevice : ({ before with
        name := home.nameForDevice D said.name
        manufacturer := said.manufacturer
        model := said.model
        swVersion := said.swVersion
        hwVersion := said.hwVersion
        serialNumber := said.serialNumber
        suggestedArea := said.suggestedArea
        areaId := home.areaForDevice kinds D said.suggestedArea
        viaDeviceId := via } : Device) = device at hrun
    have hdeviceKey : device.key = before.key := by rw [← hdevice]; rfl
    have hback : ∀ V : DeviceId, device.viaDeviceId = some V →
        (∃ v : Device, home.devices[V]? = some v) ∧
          ¬ Relation.ReflTransGen (Pointers.Follows (viaOf home)) V D := by
      intro V hV
      have hsome : via = some V := by rw [← hV, ← hdevice]
      have hfalse : home.reaches V D = false := by simpa [hsome] using hreach
      exact ⟨hvia V hsome, reachesIn_false hfalse⟩
    have htied := h.updateDevice hD (by rw [← hdevice]) hdeviceKey huid said.name hback
    have hremembers : Remembers (heard.device p said) { home with
        reportedDeviceNames := home.reportedDeviceNames.insert D said.name
        deviceDescriptions := home.deviceDescriptions.insert D said
        devices := home.devices.insert D device } := by
      refine ⟨fun X d hd => ?_, hr.entity, fun E e X d he hX hd => ?_, hr.nameless,
        fun X g hg => hr.otherFound h hfor' hfound hg, hr.foundEntity⟩
      · rw [Map.get_insert, Map.get_insert]
        rcases Map.get_insert_some hd with ⟨rfl, rfl⟩ | ⟨hne, hd⟩
        · rw [if_pos rfl, if_pos rfl, hdeviceKey, hkey]
          exact ⟨said, heard_device_self, rfl, rfl, by rw [← hdevice]⟩
        · rw [if_neg hne, if_neg hne]
          exact hr.otherDevice hd fun heq => hne (h.devices.unique hD hd (hkey.trans heq))
      · rcases Map.get_insert_some hd with ⟨rfl, rfl⟩ | ⟨-, hd⟩
        · rw [show device.uniqueId = before.uniqueId from congrArg Key.uniqueId hdeviceKey]
          exact hr.entityDevice E e D before he hX hD
        · exact hr.entityDevice E e X d he hX hd
    have hnamed : Named kinds home → ∀ (X : DeviceId) (d : Device) (name : Name),
        (home.devices.insert D device)[X]? = some d →
        (home.reportedDeviceNames.insert D said.name)[X]? = some name →
        d.name = home.nameForDevice X name ∧ d.areaId = home.areaForDevice kinds X d.suggestedArea := by
      intro hn X d name hd hname
      rw [Map.get_insert] at hname
      rcases Map.get_insert_some hd with ⟨rfl, rfl⟩ | ⟨hne, hd⟩
      · rw [if_pos rfl, Option.some.injEq] at hname
        rw [← hdevice, ← hname]
        exact ⟨rfl, rfl⟩
      · rw [if_neg hne] at hname
        exact hn.device X d name hd hname
    -- An entity that doesn't belong to the device, or whose device keeps its name, has its own.
    have hkept : Named kinds home → ∀ E : EntityId, (device.name = before.name ∨
        ∀ e : Entity κ, home.entities[E]? = some e → e.deviceId ≠ some D) → NamedAt { home with
          reportedDeviceNames := home.reportedDeviceNames.insert D said.name
          deviceDescriptions := home.deviceDescriptions.insert D said
          devices := home.devices.insert D device } E := by
      intro hn E hsame e he
      rw [← hn.entity E e he]
      refine nameForEntity_congr rfl rfl rfl fun X hX => ?_
      rw [Map.get_insert]
      split
      · next heq =>
        subst heq
        rw [hD, Option.map_some, Option.map_some,
          hsame.resolve_right fun hother => hother e he hX]
      · rfl
    split at hrun
    · next heq =>
      cases hrun
      exact ⟨hremembers, fun hn => ⟨hnamed hn, fun E => hkept hn E (.inl (by rw [heq]))⟩⟩
    · split at hrun
      · next hname =>
        cases hrun
        exact ⟨hremembers, fun hn => ⟨hnamed hn, fun E => hkept hn E (.inl (by rw [← hdevice]; exact hname))⟩⟩
      · generalize hstart : ({ home with
          reportedDeviceNames := home.reportedDeviceNames.insert D said.name
          deviceDescriptions := home.deviceDescriptions.insert D said
          devices := home.devices.insert D device } : Home κ σ) = start at htied hremembers hkept hrun
        obtain ⟨events', last, hsweep, hrenamed, hothers, hown⟩ := sweep_named htied
          (fun E home => home.renameEntity (some D) E) ((start.owned D).map Entity.id)
          (fun E hE mid hmid => by
            obtain ⟨e, he, rfl⟩ := List.mem_map.mp hE
            obtain ⟨hget, hown⟩ := (owned_ids htied.entityId D).1 e he
            obtain ⟨e', he', heq⟩ := Alike.exists_of_map (hmid.alike.entities e.id).symm hget
            have hdevice' : e'.deviceId = some D :=
              (congrArg (fun tie => tie.2.2) heq).trans hown
            exact ⟨e', he', by rw [hdevice']⟩) []
        rw [hsweep, Option.map_some, Option.some.injEq, Prod.mk.injEq] at hrun
        obtain ⟨-, rfl⟩ := hrun
        refine ⟨hremembers.renamed hrenamed, fun hn => ⟨fun X d name hd hname => ?_, fun E => ?_⟩⟩
        · obtain ⟨entities, rfl, -⟩ := hrenamed
          subst hstart
          exact hnamed hn X d name hd hname
        · by_cases hin : E ∈ (start.owned D).map Entity.id
          · exact hown E hin
          · refine hothers E (hkept hn E (.inr fun e he hdevice => ?_))
            subst hstart
            exact hin (List.mem_map.mpr ⟨e, mem_owned he hdevice, h.entityId E e he⟩)

lemma addDevice_keeps (h : Tied home) (hr : Remembers heard home) {via : Option DeviceId}
    (hkey : home.deviceKeys[(⟨p, said.uniqueId⟩ : Key)]? = none)
    (hfound : home.found[deviceIdFor p said.uniqueId]? = none) {events : List (Event κ σ)}
    (hrun : home.addDevice kinds p said via = (.ok events, next)) :
    Remembers (heard.device p said) next ∧ (Named kinds home → Named kinds next) := by
  unfold Home.addDevice at hrun
  dsimp only at hrun
  split at hrun
  · cases hrun
  · next hnone =>
    cases hrun
    refine ⟨⟨fun X d hd => ?_, hr.entity, fun E e X d he hX hd => ?_, hr.nameless,
      fun X g hg => hr.otherFound h rfl hfound hg, hr.foundEntity⟩,
      fun hn => ⟨fun X d name hd hname => ?_, fun E e he => ?_⟩⟩
    · rw [Map.get_insert, Map.get_insert]
      rcases Map.get_insert_some hd with ⟨rfl, rfl⟩ | ⟨hne, hd⟩
      · rw [if_pos rfl, if_pos rfl]
        exact ⟨said, heard_device_self, rfl, rfl, rfl⟩
      · rw [if_neg hne, if_neg hne]
        refine hr.otherDevice hd fun heq => ?_
        have hsome := h.devices.found hd
        rw [← heq, hkey] at hsome
        cases hsome
    · rcases Map.get_insert_some hd with ⟨rfl, -⟩ | ⟨-, hd⟩
      · obtain ⟨d', hd', -⟩ := h.entityDevice E e _ he hX
        rw [hnone] at hd'
        cases hd'
      · exact hr.entityDevice E e X d he hX hd
    · rw [Map.get_insert] at hname
      rcases Map.get_insert_some hd with ⟨rfl, rfl⟩ | ⟨hne, hd⟩
      · rw [if_pos rfl, Option.some.injEq] at hname
        rw [← hname]
        exact ⟨rfl, rfl⟩
      · rw [if_neg hne] at hname
        exact hn.device X d name hd hname
    · rw [← hn.entity E e he]
      refine nameForEntity_congr rfl rfl rfl fun X hX => ?_
      obtain ⟨d, hd, -⟩ := h.entityDevice E e X he hX
      rw [Map.get_insert, if_neg]
      rintro rfl
      rw [hnone] at hd
      cases hd

lemma describeDevice_keeps (h : Tied home) (hr : Remembers heard home)
    (hkeep : (home.isHeld p (deviceIdFor p said.uniqueId) ||
      home.found.contains (deviceIdFor p said.uniqueId)) = true →
        OwnFound home p said.uniqueId ∧ (home.found[deviceIdFor p said.uniqueId]? = none →
          home.devices[deviceIdFor p said.uniqueId]? = none))
    {events : List (Event κ σ)}
    (hrun : home.describeDevice kinds p said = some (.ok events, next)) :
    Remembers (heard.device p said) next ∧ (Named kinds home → Named kinds next) := by
  unfold Home.describeDevice at hrun
  split at hrun
  · cases hrun
  · dsimp only at hrun
    split at hrun
    · next hin =>
      cases hrun
      obtain ⟨hown, hlive⟩ := hkeep hin
      exact keepFound_keeps h hr hown hlive
    · next hout =>
      simp only [Bool.or_eq_true, not_or, Bool.not_eq_true] at hout
      have hfound := Std.ExtTreeMap.getElem?_eq_none_of_contains_eq_false hout.2
      split at hrun
      · cases hrun
      · next via hvia =>
        split at hrun
        · next D hD =>
          obtain ⟨before, hbefore, hkey⟩ := h.devices.row hD
          exact updateDevice_keeps h hr hbefore hkey (viaFor_ok h hvia) hrun
        · next hkey =>
          rw [Option.some.injEq] at hrun
          exact addDevice_keeps h hr hkey hfound hrun

end Devices

/-! ### Entities that are described -/

section Entities

variable {p : ProtocolId} {said : EntityDescription κ} {listed : List EntityKind} {stamp : Stamp}

lemma heard_entity_self : (heard.entity p said).entities[(⟨p, said.uniqueId⟩ : Key)]? = some said :=
  (Map.get_insert _ _ _ _).trans (if_pos rfl)

lemma heard_entity_other {k : Key} (hne : (⟨p, said.uniqueId⟩ : Key) ≠ k) :
    (heard.entity p said).entities[k]? = heard.entities[k]? :=
  (Map.get_insert _ _ _ _).trans (if_neg hne)

lemma Remembers.otherEntity (hr : Remembers heard home) {E : EntityId} {e : Entity κ}
    (he : home.entities[E]? = some e) (hne : (⟨p, said.uniqueId⟩ : Key) ≠ e.key) :
    ∃ (listed : List EntityKind) (said' : EntityDescription κ),
      (heard.entity p said).entities[e.key]? = some said' ∧
      home.entityDescriptions[E]? = some (listed, said') ∧
      home.reportedEntityNames[E]? = said'.name := by
  rw [heard_entity_other hne]
  exact hr.entity E e he

lemma Remembers.otherFoundEntity (hr : Remembers heard home) (h : Tied home)
    (hkey : home.foundEntities[(⟨p, said.uniqueId⟩ : Key)]? = none) {X : DeviceId} {g : Found κ σ}
    {u : UniqueId} {kinds' : List EntityKind} {said' : EntityDescription κ}
    (hg : home.found[X]? = some g) (hu : g.entities[u]? = some (kinds', said')) :
    (heard.entity p said).entities[(⟨g.protocol, u⟩ : Key)]? = some said' := by
  rw [heard_entity_other]
  · exact hr.foundEntity X g u kinds' said' hg hu
  · intro heq
    rw [heq, (h.foundSaid X g u kinds' said' hg hu).1] at hkey
    cases hkey

lemma keepFoundEntity_keeps (h : Tied home) (hr : Remembers heard home) {D : DeviceId}
    {f : Found κ σ} (hf : home.found[D]? = some f) (hprotocol : f.protocol = p)
    (hlive : home.entityKeys[(⟨p, said.uniqueId⟩ : Key)]? = none)
    (hother : ∀ X : DeviceId, home.foundEntities[(⟨p, said.uniqueId⟩ : Key)]? = some X → X = D) :
    Remembers (heard.entity p said) (home.keepFoundEntity p listed said D f) ∧
      (Named kinds home → Named kinds (home.keepFoundEntity p listed said D f)) := by
  unfold Home.keepFoundEntity
  refine ⟨⟨hr.device, fun E e he => hr.otherEntity he fun heq => ?_, hr.entityDevice, hr.nameless,
    fun X g hg => ?_, fun X g u kinds' said' hg hu => ?_⟩, fun hn => { hn with }⟩
  · have hsome := h.entities.found he
    rw [← heq, hlive] at hsome
    cases hsome
  · rcases Map.get_insert_some hg with ⟨rfl, rfl⟩ | ⟨-, hg⟩
    · exact hr.found D f hf
    · exact hr.found X g hg
  · rcases Map.get_insert_some hg with ⟨rfl, rfl⟩ | ⟨hne, hg⟩
    · rcases Map.get_insert_some hu with ⟨rfl, heq⟩ | ⟨hne, hu⟩
      · cases heq
        dsimp only
        rw [hprotocol]
        exact heard_entity_self
      · dsimp only
        rw [heard_entity_other]
        · exact hr.foundEntity D f u kinds' said' hf hu
        · exact fun heq => hne (congrArg Key.uniqueId heq)
    · rw [heard_entity_other]
      · exact hr.foundEntity X g u kinds' said' hg hu
      · intro heq
        have hX := (h.foundSaid X g u kinds' said' hg hu).1
        rw [← heq] at hX
        exact hne (hother X hX).symm

lemma get_renamed (home : Home κ σ) (E X : EntityId) (name : Option Name) :
    (home.renamed E name)[X]? = if E = X then name else home.reportedEntityNames[X]? := by
  unfold Home.renamed
  cases name with
  | none => exact Map.get_erase _ _ _
  | some name => exact Map.get_insert _ _ _ _

variable [DecidableEq κ]

lemma updateEntity_keeps (h : Tied home) (hr : Remembers heard home) {E : EntityId}
    {before : Entity κ} (hE : home.entities[E]? = some before)
    (hkey : before.key = ⟨p, said.uniqueId⟩)
    (hfound : home.foundEntities[(⟨p, said.uniqueId⟩ : Key)]? = none) {device : Option DeviceId}
    (hdevice : ∀ (D : DeviceId) (d : Device), device = some D → home.devices[D]? = some d →
      said.deviceUniqueId = some d.uniqueId) {events : List (Event κ σ)}
    (hrun : home.updateEntity kinds p listed said device stamp E = some (.ok events, next)) :
    Remembers (heard.entity p said) next ∧ (Named kinds home → Named kinds next) := by
  unfold Home.updateEntity at hrun
  simp only [hE] at hrun
  split at hrun
  · cases hrun
  · split at hrun
    · next name old hname hold =>
      generalize hentity : ({ before with
        name, capabilities := said.capabilities, entityCategory := said.entityCategory
        deviceId := device } : Entity κ) = entity at hrun
      have hentityKey : entity.key = before.key := by rw [← hentity]; rfl
      have hremembers : Remembers (heard.entity p said) { home with
          reportedEntityNames := home.renamed E said.name
          entityDescriptions := home.entityDescriptions.insert E (listed, said)
          entities := home.entities.insert E entity } := by
        refine ⟨hr.device, fun X e he => ?_, fun X e D d he hD hd => ?_, fun X hX => ?_, hr.found,
          fun X g u kinds' said' hg hu => hr.otherFoundEntity h hfound hg hu⟩
        · rw [get_renamed, Map.get_insert]
          rcases Map.get_insert_some he with ⟨rfl, rfl⟩ | ⟨hne, he⟩
          · rw [if_pos rfl, if_pos rfl, hentityKey, hkey]
            exact ⟨listed, said, heard_entity_self, rfl, rfl⟩
          · rw [if_neg hne, if_neg hne]
            exact hr.otherEntity he fun heq => hne (h.entities.unique hE he (hkey.trans heq))
        · rw [Map.get_insert]
          rcases Map.get_insert_some he with ⟨rfl, rfl⟩ | ⟨hne, he⟩
          · rw [if_pos rfl]
            rw [← hentity] at hD
            exact ⟨listed, said, rfl, hdevice D d hD hd⟩
          · rw [if_neg hne]
            exact hr.entityDevice X e D d he hD hd
        · rw [Map.get_insert] at hX
          rw [get_renamed]
          split at hX
          · cases hX
          · next hne =>
            rw [if_neg hne]
            exact hr.nameless X hX
      have hnamed : Named kinds home → Named kinds { home with
          reportedEntityNames := home.renamed E said.name
          entityDescriptions := home.entityDescriptions.insert E (listed, said)
          entities := home.entities.insert E entity } := by
        refine fun hn => ⟨hn.device, fun X e he => ?_⟩
        rcases Map.get_insert_some he with ⟨rfl, rfl⟩ | ⟨hne, he⟩
        · rw [← hentity, ← hname]
          refine nameForEntity_congr ?_ rfl rfl fun _ _ => rfl
          unfold Home.entityKey
          rw [Map.get_insert, if_pos rfl, hE, Option.map_some, Option.map_some]
          rfl
        · rw [← hn.entity X e he]
          refine nameForEntity_congr ?_ rfl ?_ fun _ _ => rfl
          · unfold Home.entityKey
            rw [Map.get_insert, if_neg hne]
          · rw [get_renamed, if_neg hne]
      generalize hstart : ({ home with
        reportedEntityNames := home.renamed E said.name
        entityDescriptions := home.entityDescriptions.insert E (listed, said)
        entities := home.entities.insert E entity } : Home κ σ) = start at hremembers hnamed hrun
      have hstartState : start.states[E]? = some old := by
        rw [← hstart]
        exact hold
      have hunsaid := ((forgetMisfit_restated start kinds said.capabilities hstartState
        stamp).trans (setAvailabilityOf_restated
          (start.forgetMisfit kinds E said.capabilities old stamp).2 [E] .available stamp.now
          (deviceContext p stamp none) .yes)).unsaid
      rw [Option.some.injEq, Prod.mk.injEq] at hrun
      obtain ⟨-, rfl⟩ := hrun
      exact ⟨hremembers.unsaid hunsaid, fun hn => (hnamed hn).unsaid hunsaid⟩
    · cases hrun

omit [DecidableEq κ] in
lemma Remembers.addEntity (hr : Remembers heard home) (h : Tied home) {E : EntityId}
    {entity : Entity κ} (hkey : home.entityKeys[(⟨p, said.uniqueId⟩ : Key)]? = none)
    (hfound : home.foundEntities[(⟨p, said.uniqueId⟩ : Key)]? = none)
    (hentity : entity.key = ⟨p, said.uniqueId⟩)
    (hdevice : ∀ (D : DeviceId) (d : Device), entity.deviceId = some D → home.devices[D]? = some d →
      said.deviceUniqueId = some d.uniqueId) {names : Map EntityId Name}
    (hnames : ∀ X : EntityId,
      names[X]? = if E = X then said.name else home.reportedEntityNames[X]?)
    {keys : Map Key EntityId} {states : Map EntityId (Core.EntityState σ)} :
    Remembers (heard.entity p said) { home with
      reportedEntityNames := names
      entityDescriptions := home.entityDescriptions.insert E (listed, said)
      entityKeys := keys
      entities := home.entities.insert E entity
      states } := by
  refine ⟨hr.device, fun X e he => ?_, fun X e D d he hD hd => ?_, fun X hX => ?_, hr.found,
    fun X g u kinds' said' hg hu => hr.otherFoundEntity h hfound hg hu⟩
  · rw [hnames, Map.get_insert]
    rcases Map.get_insert_some he with ⟨rfl, rfl⟩ | ⟨hne, he⟩
    · rw [if_pos rfl, if_pos rfl, hentity]
      exact ⟨listed, said, heard_entity_self, rfl, rfl⟩
    · rw [if_neg hne, if_neg hne]
      refine hr.otherEntity he fun heq => ?_
      have hsome := h.entities.found he
      rw [← heq, hkey] at hsome
      cases hsome
  · rw [Map.get_insert]
    rcases Map.get_insert_some he with ⟨rfl, rfl⟩ | ⟨hne, he⟩
    · rw [if_pos rfl]
      exact ⟨listed, said, rfl, hdevice D d hD hd⟩
    · rw [if_neg hne]
      exact hr.entityDevice X e D d he hD hd
  · rw [Map.get_insert] at hX
    rw [hnames]
    split at hX
    · cases hX
    · next hne =>
      rw [if_neg hne]
      exact hr.nameless X hX

omit [DecidableEq κ] in
lemma Named.addEntity (hn : Named kinds home) {E : EntityId} {entity : Entity κ}
    {names : Map EntityId Name} (hnames : ∀ X : EntityId,
      names[X]? = if E = X then said.name else home.reportedEntityNames[X]?)
    {device : Option Device} {otherwise : Name} (hdevice : entity.deviceId = device.map Device.id)
    (hlive : ∀ d : Device, device = some d → home.devices[d.id]? = some d)
    (hotherwise : Home.otherwiseNamed said device = some otherwise)
    (hname : entity.name = (home.chosenName entity.key).getD otherwise)
    {keys : Map Key EntityId} {states : Map EntityId (Core.EntityState σ)}
    {descriptions : Map EntityId (List EntityKind × EntityDescription κ)} :
    Named kinds { home with
      reportedEntityNames := names
      entityDescriptions := descriptions
      entityKeys := keys
      entities := home.entities.insert E entity
      states } := by
  refine ⟨hn.device, fun X e he => ?_⟩
  rcases Map.get_insert_some he with ⟨rfl, rfl⟩ | ⟨hne, he⟩
  · unfold Home.nameForEntity Home.entityKey
    rw [Map.get_insert, if_pos rfl, Option.map_some, Option.bind_some]
    dsimp only
    rw [hnames, if_pos rfl, hname, hdevice]
    split
    · next chosen hchosen =>
      have hchosen : home.chosenName entity.key = some chosen := hchosen
      rw [hchosen]
      rfl
    · next hchosen =>
      have hchosen : home.chosenName entity.key = none := hchosen
      rw [hchosen]
      unfold Home.otherwiseNamed at hotherwise
      cases hsaid : said.name with
      | some name =>
        rw [hsaid] at hotherwise
        exact hotherwise
      | none =>
        rw [hsaid] at hotherwise
        obtain ⟨d, rfl, rfl⟩ := Option.map_eq_some_iff.mp hotherwise
        simp [hlive d rfl]
  · rw [← hn.entity X e he]
    refine nameForEntity_congr ?_ rfl ?_ fun _ _ => rfl
    · unfold Home.entityKey
      rw [Map.get_insert, if_neg hne]
    · rw [hnames, if_neg hne]

omit [DecidableEq κ] in
lemma addEntity_keeps (h : Tied home) (hr : Remembers heard home)
    (hkey : home.entityKeys[(⟨p, said.uniqueId⟩ : Key)]? = none)
    (hfound : home.foundEntities[(⟨p, said.uniqueId⟩ : Key)]? = none) {device : Option Device}
    (hlive : ∀ d : Device, device = some d → home.devices[d.id]? = some d)
    (hdevice : ∀ d : Device, device = some d → said.deviceUniqueId = some d.uniqueId)
    {events : List (Event κ σ)}
    (hrun : home.addEntity kinds p listed said device stamp = some (.ok events, next)) :
    Remembers (heard.entity p said) next ∧ (Named kinds home → Named kinds next) := by
  obtain ⟨otherwise, base, E, hotherwise, hbase, hE, hfresh⟩ := addEntity_id hrun
  simp only [Home.addEntity, hotherwise, hbase, hE] at hrun
  have hinsert : ∀ names : Map EntityId Name,
      (said.name = none → names = home.reportedEntityNames) →
      (∀ reported, said.name = some reported →
        names = home.reportedEntityNames.insert E reported) →
      ∀ X : EntityId, names[X]? = if E = X then said.name else home.reportedEntityNames[X]? := by
    intro names hnone hsome X
    cases hname : said.name with
    | none =>
      rw [hnone hname]
      split
      · next heq => rw [← heq, hr.nameless E hfresh]
      · rfl
    | some reported =>
      rw [hsome reported hname]
      exact Map.get_insert _ _ _ _
  cases hrun
  refine ⟨hr.addEntity h hkey hfound rfl (fun D d hD hd => ?_) ?_,
    fun hn => hn.addEntity ?_ rfl hlive hotherwise rfl⟩
  · obtain ⟨d', hd', rfl⟩ := Option.map_eq_some_iff.mp hD
    rw [hlive d' hd', Option.some.injEq] at hd
    exact hd ▸ hdevice d' hd'
  · exact hinsert _ (fun hname => by rw [hname]) fun reported hname => by rw [hname]
  · exact hinsert _ (fun hname => by rw [hname]) fun reported hname => by rw [hname]

lemma describeEntity_keeps (h : Tied home) (hr : Remembers heard home)
    (hstays : StaysPut home p said) {events : List (Event κ σ)}
    (hrun : home.describeEntity kinds p listed said stamp = some (.ok events, next)) :
    Remembers (heard.entity p said) next ∧ (Named kinds home → Named kinds next) := by
  have hlive : ∀ device : Option Device,
      home.foundEntities[(⟨p, said.uniqueId⟩ : Key)]? = none →
      (∀ d : Device, device = some d → home.devices[d.id]? = some d) →
      (∀ d : Device, device = some d → said.deviceUniqueId = some d.uniqueId) →
      home.describeLive kinds p listed said stamp device = some (.ok events, next) →
      Remembers (heard.entity p said) next ∧ (Named kinds home → Named kinds next) := by
    intro device hfound hdevice huid hrun
    unfold Home.describeLive at hrun
    split at hrun
    · next E hE =>
      obtain ⟨before, hbefore, hkey⟩ := h.entities.row hE
      refine updateEntity_keeps h hr hbefore hkey hfound (fun D d hD hd => ?_) hrun
      obtain ⟨d', hd', rfl⟩ := Option.map_eq_some_iff.mp hD
      rw [hdevice d' hd', Option.some.injEq] at hd
      exact hd ▸ huid d' hd'
    · next hkey => exact addEntity_keeps h hr hkey hfound hdevice huid hrun
  unfold StaysPut at hstays
  unfold Home.describeEntity at hrun
  split at hrun
  · cases hrun
  · dsimp only at hrun hstays
    split at hrun
    · cases hrun
    · split at hrun
      · next hnone =>
        rw [hnone] at hstays
        exact hlive none hstays (by simp) (by simp) hrun
      · next u hu =>
        simp only [hu, Option.bind_some] at hstays
        split at hrun
        · next f hf =>
          rw [hf] at hstays
          obtain ⟨hprotocol, hkey, hother⟩ := hstays
          cases hrun
          refine keepFoundEntity_keeps h hr hf hprotocol hkey fun X hX => ?_
          have heq := hother X hX
          rw [Option.map_some, Option.some.injEq] at heq
          exact heq.symm
        · next hnone =>
          rw [hnone] at hstays
          split at hrun
          · cases hrun
          · next D hD =>
            split at hrun
            · cases hrun
            · next d hd =>
              refine hlive (some d) hstays (fun d' hd' => ?_) (fun d' hd' => ?_) hrun
              · obtain rfl := Option.some.inj hd'
                rw [(h.deviceId D d hd).1]
                exact hd
              · obtain rfl := Option.some.inj hd'
                obtain ⟨d', hd', hkey⟩ := h.devices.row hD
                rw [hd, Option.some.injEq] at hd'
                rw [hu, hd', show d'.uniqueId = u from congrArg Key.uniqueId hkey]

end Entities

end

end Irori.Proofs
