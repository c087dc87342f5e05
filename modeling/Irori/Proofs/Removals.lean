import Irori.Proofs.Homes

/-!
# Things leave the home

Entities and devices that are removed, and devices taken out of the home to be kept among those
their protocol has found.
-/

namespace Irori.Proofs
open Irori Irori.Core

variable {κ σ : Type}

lemma removeEntity_tied {home : Home κ σ} (h : Tied home) (p : ProtocolId) (u : UniqueId) :
    Tied (home.removeEntity p u).2 := by
  unfold Home.removeEntity
  dsimp only
  split
  · next D hD =>
    obtain ⟨f, hf, hprotocol, -⟩ := h.foundKey _ D hD
    simp only [hf]
    exact h.dropFoundEntity hD hf hprotocol _
  · split
    · exact h
    · next E hE => exact h.dropEntity hE

structure Clears (home next : Home κ σ) : Prop where
  settings : next.settings = home.settings
  devices : next.devices = home.devices
  found : next.found = home.found
  foundEntities : next.foundEntities = home.foundEntities
  deviceKeys : next.deviceKeys = home.deviceKeys
  deviceDescriptions : next.deviceDescriptions = home.deviceDescriptions
  entityKeys : ∀ (k : Key) (E : EntityId), next.entityKeys[k]? = some E →
    home.entityKeys[k]? = some E

lemma removeEntity_live {home : Home κ σ} (h : Tied home) {E : EntityId} {e : Entity κ}
    (he : home.entities[E]? = some e) :
    ∃ (events : List (Event κ σ)) (next : Home κ σ),
      home.removeEntity e.protocol e.uniqueId = (.ok events, next) ∧ Tied next ∧
        Clears home next ∧ next.entities = home.entities.erase E ∧
          next.entityKeys[e.key]? = none := by
  have htied := removeEntity_tied h e.protocol e.uniqueId
  have hkey : home.entityKeys[e.key]? = some E := h.entities.found he
  have hfound : home.foundEntities[e.key]? = none := by
    cases hk : home.foundEntities[e.key]? with
    | none => rfl
    | some D =>
      rw [h.apart e.key D hk] at hkey
      cases hkey
  change home.foundEntities[(⟨e.protocol, e.uniqueId⟩ : Key)]? = none at hfound
  change home.entityKeys[(⟨e.protocol, e.uniqueId⟩ : Key)]? = some E at hkey
  unfold Home.removeEntity at htied ⊢
  simp only [hfound, hkey] at htied ⊢
  refine ⟨_, _, rfl, htied, ⟨rfl, rfl, rfl, rfl, rfl, rfl, fun k X hk => ?_⟩, rfl, ?_⟩
  · exact (Map.get_erase_some hk).2
  · exact (Map.get_erase _ _ _).trans (if_pos rfl)

lemma removeEntities_live {home : Home κ σ} (h : Tied home) {es : List (Entity κ)}
    (hes : ∀ e ∈ es, home.entities[e.id]? = some e) (hnodup : (es.map Entity.id).Nodup) :
    ∃ (events : List (Event κ σ)) (next : Home κ σ),
      Home.removeEntities es home = (.ok events, next) ∧ Tied next ∧ Clears home next ∧
        next.entities.size + es.length = home.entities.size ∧
        (∀ (E : EntityId) (e : Entity κ), next.entities[E]? = some e →
          home.entities[E]? = some e ∧ ∀ x ∈ es, x.id ≠ E) ∧
        ∀ e ∈ es, next.entityKeys[e.key]? = none := by
  induction es generalizing home with
  | nil =>
    exact ⟨[], home, rfl, h, ⟨rfl, rfl, rfl, rfl, rfl, rfl, fun _ _ hk => hk⟩, by simp,
      fun E e he => ⟨he, by simp⟩, by simp⟩
  | cons e es ih =>
    have he := hes e List.mem_cons_self
    obtain ⟨events, mid, hmid, htied, hclears, herase, hgone⟩ := removeEntity_live h he
    obtain ⟨hnot, hnodup⟩ := List.nodup_cons.mp hnodup
    have hne : ∀ x ∈ es, e.id ≠ x.id := fun x hx heq =>
      hnot (heq ▸ List.mem_map_of_mem hx)
    obtain ⟨more, next, hnext, htied', hclears', hsize, hleft, hkeys⟩ :=
      ih htied (fun x hx => by
        rw [herase, Map.get_erase, if_neg (hne x hx)]
        exact hes x (List.mem_cons_of_mem _ hx)) hnodup
    refine ⟨events ++ more, next, ?_, htied', ?_, ?_, ?_, ?_⟩
    · rw [Home.removeEntities, hmid]
      simp only [hnext]
      rfl
    · exact ⟨hclears'.settings.trans hclears.settings, hclears'.devices.trans hclears.devices,
        hclears'.found.trans hclears.found, hclears'.foundEntities.trans hclears.foundEntities,
        hclears'.deviceKeys.trans hclears.deviceKeys,
        hclears'.deviceDescriptions.trans hclears.deviceDescriptions,
        fun k E hk => hclears.entityKeys k E (hclears'.entityKeys k E hk)⟩
    · have hone := Map.size_erase_add_one he
      rw [herase] at hsize
      rw [List.length_cons]
      omega
    · intro E x hx
      obtain ⟨hx, hout⟩ := hleft E x hx
      rw [herase] at hx
      obtain ⟨hneq, hx⟩ := Map.get_erase_some hx
      refine ⟨hx, fun y hy => ?_⟩
      rcases List.mem_cons.mp hy with rfl | hy
      · exact hneq
      · exact hout y hy
    · intro x hx
      rcases List.mem_cons.mp hx with rfl | hx
      · cases hk : next.entityKeys[x.key]? with
        | none => rfl
        | some E =>
          rw [hclears'.entityKeys _ E hk] at hgone
          cases hgone
      · exact hkeys x hx

lemma removeEntity_frame (home : Home κ σ) (keys : Map Key DeviceId)
    (said : Map DeviceId DeviceDescription) (p : ProtocolId) (u : UniqueId) :
    { home with deviceKeys := keys, deviceDescriptions := said }.removeEntity p u =
      ((home.removeEntity p u).1,
        { (home.removeEntity p u).2 with deviceKeys := keys, deviceDescriptions := said }) := by
  unfold Home.removeEntity
  dsimp only
  split
  · rfl
  · split <;> rfl

lemma removeEntities_frame (home : Home κ σ) (keys : Map Key DeviceId)
    (said : Map DeviceId DeviceDescription) (es : List (Entity κ)) :
    Home.removeEntities es { home with deviceKeys := keys, deviceDescriptions := said } =
      ((Home.removeEntities es home).1,
        { (Home.removeEntities es home).2 with deviceKeys := keys, deviceDescriptions := said }) := by
  induction es generalizing home with
  | nil => rfl
  | cons e es ih =>
    rw [Home.removeEntities, Home.removeEntities, removeEntity_frame]
    generalize home.removeEntity e.protocol e.uniqueId = removed
    obtain ⟨result, next⟩ := removed
    cases result with
    | error e => rfl
    | ok events =>
      dsimp only
      rw [ih]

lemma owned_ids {home : Home κ σ}
    (hid : ∀ (E : EntityId) (e : Entity κ), home.entities[E]? = some e → e.id = E) (D : DeviceId) :
    (∀ e ∈ home.owned D, home.entities[e.id]? = some e ∧ e.deviceId = some D) ∧
      ((home.owned D).map Entity.id).Nodup := by
  have hmem : ∀ x ∈ home.entities.toList, x.2.id = x.1 := fun x hx =>
    hid x.1 x.2 (Std.ExtTreeMap.mem_toList_iff_getElem?_eq_some.mp hx)
  refine ⟨fun e he => ?_, ?_⟩
  · obtain ⟨he, hdevice⟩ := List.mem_filter.mp he
    obtain ⟨E, hE⟩ := Map.mem_vals.mp he
    rw [hid E e hE]
    exact ⟨hE, by simpa using hdevice⟩
  · have hsub : ((home.owned D).map Entity.id).Sublist ((Map.vals home.entities).map Entity.id) :=
      List.filter_sublist.map Entity.id
    refine hsub.nodup ?_
    have hids : (Map.vals home.entities).map Entity.id = home.entities.keys := by
      rw [Map.vals, List.map_map, ← Std.ExtTreeMap.map_fst_toList_eq_keys]
      exact List.map_congr_left hmem
    rw [hids]
    exact (Std.ExtTreeMap.distinct_keys (t := home.entities)).imp fun hne => by simpa using hne

lemma mem_owned {home : Home κ σ} {D : DeviceId} {E : EntityId} {e : Entity κ}
    (he : home.entities[E]? = some e) (hD : e.deviceId = some D) : e ∈ home.owned D :=
  List.mem_filter.mpr ⟨Map.mem_vals.mpr ⟨E, he⟩, by simp [hD]⟩

lemma removeDevice_cut {home : Home κ σ} (h : Tied home) {D : DeviceId} {d : Device}
    (hD : home.devices[D]? = some d) :
    ∃ (events : List (Event κ σ)) (mid : Home κ σ),
      Home.removeEntities (home.owned D) home = (.ok events, mid) ∧ Tied mid ∧ Clears home mid ∧
        mid.entities.size + (home.owned D).length = home.entities.size ∧
        (∀ e ∈ home.owned D, mid.entityKeys[e.key]? = none) ∧
        (∀ (E : EntityId) (e : Entity κ), mid.entities[E]? = some e → e.deviceId ≠ some D) ∧
        ∃ more : List (Event κ σ),
          home.removeDevice d.protocol d.uniqueId = (.ok (events ++ more),
            { mid with
              deviceKeys := mid.deviceKeys.erase d.key
              deviceDescriptions := mid.deviceDescriptions.erase D
              devices := (mid.devices.map fun _ device => Home.unreach D device).erase D }) := by
  have hid := (h.deviceId D d hD).2
  have hfound : home.found[D]? = none := by
    cases hf : home.found[D]? with
    | none => rfl
    | some f =>
      rw [(h.foundId D f hf).2] at hD
      cases hD
  have hkey : home.deviceKeys[(⟨d.protocol, d.uniqueId⟩ : Key)]? = some D := h.devices.found hD
  obtain ⟨hmem, hnodup⟩ := owned_ids h.entityId D
  obtain ⟨events, mid, hmid, htied, hclears, hsize, hleft, hkeys⟩ :=
    removeEntities_live h (fun e he => (hmem e he).1) hnodup
  have hsame : ∀ (keys : Map Key DeviceId) (said : Map DeviceId DeviceDescription),
      { home with deviceKeys := keys, deviceDescriptions := said }.owned D = home.owned D :=
    fun _ _ => rfl
  refine ⟨events, mid, hmid, htied, hclears, hsize, hkeys, fun E e he hdevice => ?_, ?_⟩
  · obtain ⟨he, hout⟩ := hleft E e he
    exact hout e (mem_owned he hdevice) (h.entityId E e he)
  · unfold Home.removeDevice
    simp only [hid, hfound, hkey, removeEntities_frame, hsame, hmid]
    rw [hclears.deviceKeys, hclears.deviceDescriptions]
    exact ⟨_, rfl⟩

lemma removeDevice_live {home : Home κ σ} (h : Tied home) {D : DeviceId} {d : Device}
    (hD : home.devices[D]? = some d) :
    ∃ (events : List (Event κ σ)) (next : Home κ σ),
      home.removeDevice d.protocol d.uniqueId = (.ok events, next) ∧ Tied next ∧
        Leads home next ∧ next.devices[D]? = none ∧ next.found = home.found ∧
        next.foundEntities = home.foundEntities ∧
        next.entities.size + (home.owned D).length = home.entities.size ∧
        ∀ e ∈ home.owned D, next.entityKeys[e.key]? = none := by
  obtain ⟨events, mid, -, htied, hclears, hsize, hkeys, howned, more, hremove⟩ :=
    removeDevice_cut h hD
  have hD' : mid.devices[D]? = some d := by rw [hclears.devices, hD]
  refine ⟨_, _, hremove, htied.dropDevice hD' howned, ⟨hclears.settings, fun X x hx => ?_⟩, ?_,
    hclears.found, hclears.foundEntities, hsize, hkeys⟩
  · obtain ⟨-, hx⟩ := Map.get_erase_some hx
    rw [Std.ExtTreeMap.getElem?_map, Option.map_eq_some_iff] at hx
    obtain ⟨x', hx', rfl⟩ := hx
    refine .inr ⟨x', by rwa [hclears.devices] at hx', ?_⟩
    unfold Home.unreach
    split <;> rfl
  · exact (Map.get_erase _ _ _).trans (if_pos rfl)

/-- What is said about a device is said by the protocol that found it, if any did. -/
def OwnFound (home : Home κ σ) (p : ProtocolId) (u : UniqueId) : Prop :=
  ∀ f : Found κ σ, home.found[deviceIdFor p u]? = some f → f.protocol = p

lemma removeDevice_tied {home : Home κ σ} (h : Tied home) {p : ProtocolId} {u : UniqueId}
    (hown : OwnFound home p u) :
    Tied (home.removeDevice p u).2 ∧ Leads home (home.removeDevice p u).2 ∧
      ∀ (D : DeviceId) (f : Found κ σ), (home.removeDevice p u).2.found[D]? = some f →
        home.found[D]? = some f := by
  cases hf : home.found[deviceIdFor p u]? with
  | some f =>
    have hremove : (home.removeDevice p u).2 = home.dropFound f.protocol (deviceIdFor p u) f := by
      unfold Home.removeDevice
      simp only [hf, hown f hf]
    rw [hremove]
    exact ⟨h.dropFound hf, .of_devices rfl rfl, fun D g hg => (Map.get_erase_some hg).2⟩
  | none =>
    cases hk : home.deviceKeys[(⟨p, u⟩ : Key)]? with
    | none =>
      have hremove : (home.removeDevice p u).2 = home := by
        unfold Home.removeDevice
        simp only [hf, hk]
      rw [hremove]
      exact ⟨h, .refl home, fun _ _ hg => hg⟩
    | some D =>
      obtain ⟨d, hd, hdk⟩ := h.devices.row hk
      have hprotocol : d.protocol = p := congrArg Key.protocol hdk
      have huid : d.uniqueId = u := congrArg Key.uniqueId hdk
      obtain ⟨events, next, hnext, htied, hleads, -, hfound, -⟩ := removeDevice_live h hd
      rw [hprotocol, huid] at hnext
      rw [hnext]
      exact ⟨htied, hleads, fun X g hg => by rwa [hfound] at hg⟩

lemma foldl_holdEntity (home : Home κ σ) (es : List (Entity κ)) (start : Found κ σ) :
    let found := es.foldl home.holdEntity start
    found.protocol = start.protocol ∧ found.description = start.description ∧
      (∀ (u : UniqueId) (x : List EntityKind × EntityDescription κ),
        found.entities[u]? = some x → start.entities[u]? = some x ∨
          ∃ e ∈ es, e.uniqueId = u ∧ home.entityDescriptions[e.id]? = some x) ∧
      (∀ u : UniqueId, start.entities[u]? ≠ none → found.entities[u]? ≠ none) ∧
      (∀ e ∈ es, home.entityDescriptions[e.id]? ≠ none → found.entities[e.uniqueId]? ≠ none) ∧
      found.entities.size ≤ start.entities.size + es.length := by
  induction es generalizing start with
  | nil => exact ⟨rfl, rfl, fun u x hx => .inl hx, fun _ h => h, by simp, le_rfl⟩
  | cons e es ih =>
    obtain ⟨hprotocol, hsaid, hfrom, hkept, hheld, hsize⟩ := ih (home.holdEntity start e)
    have hone : (home.holdEntity start e).protocol = start.protocol ∧
        (home.holdEntity start e).description = start.description ∧
        (home.holdEntity start e).entities = (home.entityDescriptions[e.id]?).elim start.entities
          (start.entities.insert e.uniqueId) := by
      unfold Home.holdEntity
      dsimp only
      cases home.entityDescriptions[e.id]? <;> cases home.states[e.id]? <;> exact ⟨rfl, rfl, rfl⟩
    obtain ⟨hprotocol', hsaid', hentities⟩ := hone
    rw [hprotocol'] at hprotocol
    rw [hsaid'] at hsaid
    rw [hentities] at hfrom hkept hsize
    cases hd : home.entityDescriptions[e.id]? with
    | none =>
      rw [hd, Option.elim_none] at hfrom hkept hsize
      refine ⟨hprotocol, hsaid, fun u x hx => ?_, hkept, fun e' he' hne => ?_, ?_⟩
      · rcases hfrom u x hx with hx | ⟨e', he', hx⟩
        · exact .inl hx
        · exact .inr ⟨e', List.mem_cons_of_mem _ he', hx⟩
      · rcases List.mem_cons.mp he' with rfl | he'
        · exact absurd hd hne
        · exact hheld e' he' hne
      · rw [List.length_cons]
        exact hsize.trans (by omega)
    | some described =>
      rw [hd, Option.elim_some] at hfrom hkept hsize
      refine ⟨hprotocol, hsaid, fun u x hx => ?_, fun u hu => ?_, fun e' he' hne => ?_, ?_⟩
      · rcases hfrom u x hx with hx | ⟨e', he', hx⟩
        · rcases Map.get_insert_some hx with ⟨heq, rfl⟩ | ⟨-, hx⟩
          · exact .inr ⟨e, List.mem_cons_self, heq, hd⟩
          · exact .inl hx
        · exact .inr ⟨e', List.mem_cons_of_mem _ he', hx⟩
      · refine hkept u ?_
        rw [Map.get_insert]
        split
        · simp
        · exact hu
      · rcases List.mem_cons.mp he' with rfl | he'
        · exact hkept _ (by simp)
        · exact hheld e' he' hne
      · have hinsert := Std.ExtTreeMap.size_insert_le (t := start.entities) (k := e.uniqueId)
          (v := described)
        refine hsize.trans ?_
        rw [List.length_cons]
        omega

lemma get_foldl_insert (p : ProtocolId) (D : DeviceId) (es : List (Entity κ))
    (keys : Map Key DeviceId) (k : Key) :
    (es.foldl (fun keys e => keys.insert ⟨p, e.uniqueId⟩ D) keys)[k]? =
      if k.protocol = p ∧ ∃ e ∈ es, e.uniqueId = k.uniqueId then some D else keys[k]? := by
  induction es generalizing keys with
  | nil => simp
  | cons e es ih =>
    rw [List.foldl_cons, ih, Map.get_insert]
    obtain ⟨q, u⟩ := k
    simp only [Key.mk.injEq, List.mem_cons, exists_eq_or_imp]
    by_cases hp : q = p
    · by_cases hu : e.uniqueId = u
      · simp [hp, hu]
      · simp [hp, hu]
    · simp [hp, Ne.symm hp]

lemma Tied.holdFound {home : Home κ σ} (h : Tied home) {D : DeviceId} {f : Found κ σ}
    (hfound : home.found[D]? = none) (hlive : home.devices[D]? = none)
    (hid : deviceIdFor f.protocol f.description.uniqueId = D)
    (hsaid : ∀ (u : UniqueId) (listed : List EntityKind) (said : EntityDescription κ),
      f.entities[u]? = some (listed, said) →
        said.uniqueId = u ∧ said.deviceUniqueId.map (deviceIdFor f.protocol) = some D)
    {keys : Map Key DeviceId}
    (hkeys : ∀ k : Key, keys[k]? = if k.protocol = f.protocol ∧ f.entities[k.uniqueId]? ≠ none
      then some D else home.foundEntities[k]?)
    (hnew : ∀ u : UniqueId, f.entities[u]? ≠ none →
      home.foundEntities[(⟨f.protocol, u⟩ : Key)]? = none ∧
        home.entityKeys[(⟨f.protocol, u⟩ : Key)]? = none) :
    Tied { home with foundEntities := keys, found := home.found.insert D f } := by
  refine { h with foundId := ?_, foundSaid := ?_, foundKey := ?_, apart := ?_ }
  · intro X g hg
    rcases Map.get_insert_some hg with ⟨rfl, rfl⟩ | ⟨-, hg⟩
    · exact ⟨hid, hlive⟩
    · exact h.foundId X g hg
  · intro X g u listed said hg hu
    change keys[(_ : Key)]? = _ ∧ _
    rw [hkeys]
    rcases Map.get_insert_some hg with ⟨rfl, rfl⟩ | ⟨-, hg⟩
    · exact ⟨if_pos ⟨rfl, by simp [hu]⟩, hsaid u listed said hu⟩
    · obtain ⟨hkey, hrest⟩ := h.foundSaid X g u listed said hg hu
      refine ⟨?_, hrest⟩
      rw [if_neg, hkey]
      rintro ⟨hprotocol, hne⟩
      have hnone := (hnew u hne).1
      rw [← show g.protocol = f.protocol from hprotocol, hkey] at hnone
      cases hnone
  · intro k X hk
    change keys[k]? = some X at hk
    rw [hkeys] at hk
    change ∃ g : Found κ σ, (home.found.insert D f)[X]? = some g ∧ _
    rw [Map.get_insert]
    split at hk
    · next hin =>
      rw [Option.some.injEq] at hk
      exact ⟨f, if_pos hk, hin.1.symm, hin.2⟩
    · obtain ⟨g, hg, hrest⟩ := h.foundKey k X hk
      refine ⟨g, ?_, hrest⟩
      rw [if_neg, hg]
      rintro rfl
      rw [hfound] at hg
      cases hg
  · intro k X hk
    change keys[k]? = some X at hk
    rw [hkeys] at hk
    split at hk
    · next hin =>
      obtain ⟨q, u⟩ := k
      obtain ⟨hprotocol, hne⟩ := hin
      dsimp only at hprotocol hne
      subst hprotocol
      exact (hnew u hne).2
    · exact h.apart k X hk

def mass (home : Home κ σ) : Nat :=
  home.entities.size + Map.total (fun f => f.entities.size) home.found

lemma hold_tied {home : Home κ σ} (h : Tied home) (D : DeviceId) :
    Tied (home.hold D).2 ∧ Leads home (home.hold D).2 ∧ (home.hold D).2.devices[D]? = none ∧
      mass (home.hold D).2 ≤ mass home := by
  cases hD : home.devices[D]? with
  | none =>
    have hhold : (home.hold D).2 = home := by
      unfold Home.hold
      simp only [hD]
    rw [hhold]
    exact ⟨h, .refl home, hD, le_rfl⟩
  | some d =>
    obtain ⟨said, hsaid, huid⟩ := h.deviceSaid D d hD
    obtain ⟨-, hid⟩ := h.deviceId D d hD
    obtain ⟨events, next, hnext, htied, hleads, hlive, hfound, hfoundEntities, hsize, hkeys⟩ :=
      removeDevice_live h hD
    obtain ⟨hprotocol, hdescription, hfrom, -, hheld, hcount⟩ := foldl_holdEntity home
      (home.owned D) ⟨d.protocol, said, ∅, ∅, true⟩
    unfold Home.hold
    simp only [hD, hsaid, hnext]
    generalize (home.owned D).foldl home.holdEntity _ = f at *
    obtain ⟨hmem, -⟩ := owned_ids h.entityId D
    have howner : ∀ e ∈ home.owned D, e.protocol = d.protocol := by
      intro e he
      obtain ⟨hget, hdevice⟩ := hmem e he
      obtain ⟨d', hd', hp⟩ := h.entityDevice e.id e D hget hdevice
      rw [hD, Option.some.injEq] at hd'
      exact hp.symm.trans (congrArg Device.protocol hd'.symm)
    have hentity : ∀ u : UniqueId, f.entities[u]? ≠ none ↔ ∃ e ∈ home.owned D, e.uniqueId = u := by
      intro u
      constructor
      · intro hne
        obtain ⟨x, hx⟩ := Option.ne_none_iff_exists'.mp hne
        rcases hfrom u x hx with hx | ⟨e, he, heq, -⟩
        · simp at hx
        · exact ⟨e, he, heq⟩
      · rintro ⟨e, he, rfl⟩
        obtain ⟨listed, said', hsaid', -⟩ := h.entitySaid e.id e (hmem e he).1
        exact hheld e he (by rw [hsaid']; simp)
    have hnoFound : next.found[D]? = none := by
      rw [hfound]
      cases hf : home.found[D]? with
      | none => rfl
      | some g =>
        rw [(h.foundId D g hf).2] at hD
        cases hD
    refine ⟨htied.holdFound hnoFound hlive ?_ ?_ ?_ ?_, ?_, hlive, ?_⟩
    · rw [hprotocol, hdescription, ← hid, huid]
    · intro u listed said' hu
      rcases hfrom u _ hu with hu | ⟨e, he, rfl, hx⟩
      · simp at hu
      · obtain ⟨hget, hdevice⟩ := hmem e he
        obtain ⟨listed', said'', hsaid', heq, htied⟩ := h.entitySaid e.id e hget
        rw [hsaid', Option.some.injEq, Prod.mk.injEq] at hx
        obtain ⟨-, rfl⟩ := hx
        rw [hprotocol, ← hdevice, htied, howner e he]
        exact ⟨heq, rfl⟩
    · intro k
      rw [get_foldl_insert, hprotocol]
      simp only [hentity]
    · intro u hne
      obtain ⟨e, he, rfl⟩ := (hentity u).mp hne
      have hlost := hkeys e he
      have hkey : (⟨f.protocol, e.uniqueId⟩ : Key) = e.key := by
        rw [hprotocol, ← howner e he]
        rfl
      rw [hkey]
      refine ⟨?_, hlost⟩
      rw [hfoundEntities]
      cases hk : home.foundEntities[e.key]? with
      | none => rfl
      | some X =>
        have hnone := h.apart e.key X hk
        rw [h.entities.found (hmem e he).1] at hnone
        cases hnone
    · exact ⟨hleads.settings, hleads.live⟩
    · unfold mass
      have htotal := Map.total_insert (fun f : Found κ σ => f.entities.size) next.found D f
      rw [hnoFound, hfound] at htotal
      simp only [Option.map_none, Option.getD_none, add_zero] at htotal
      dsimp only
      rw [hfound, htotal]
      simp only [Std.ExtTreeMap.size_empty, zero_add] at hcount
      omega

end Irori.Proofs
