import Irori.Proofs.Refusals

/-!
# Protocols on their own

What a protocol says changes nothing of another's, as long as no two protocols meet under one
device id.
-/

namespace Irori.Proofs
open Irori Irori.Core

variable {κ σ : Type}

structure Spares (q : ProtocolId) (a b : Home κ σ) : Prop where
  devices : Map.SameWhere (fun d : Device => d.protocol = q) a.devices b.devices
  entities : Map.SameWhere (fun e : Entity κ => e.protocol = q) a.entities b.entities
  states : ∀ (E : EntityId) (e : Entity κ), a.entities[E]? = some e → e.protocol = q →
    b.states[E]? = a.states[E]?
  found : Map.SameWhere (fun f : Found κ σ => f.protocol = q) a.found b.found
  deviceKeys : ∀ u : UniqueId, b.deviceKeys[(⟨q, u⟩ : Key)]? = a.deviceKeys[(⟨q, u⟩ : Key)]?
  entityKeys : ∀ u : UniqueId, b.entityKeys[(⟨q, u⟩ : Key)]? = a.entityKeys[(⟨q, u⟩ : Key)]?
  foundEntities : ∀ u : UniqueId,
    b.foundEntities[(⟨q, u⟩ : Key)]? = a.foundEntities[(⟨q, u⟩ : Key)]?

section

variable {p q : ProtocolId} {a b c home : Home κ σ}

lemma Spares.refl (q : ProtocolId) (a : Home κ σ) : Spares q a a where
  devices := .refl _ _
  entities := .refl _ _
  states _ _ _ _ := rfl
  found := .refl _ _
  deviceKeys _ := rfl
  entityKeys _ := rfl
  foundEntities _ := rfl

lemma Spares.trans (hab : Spares q a b) (hbc : Spares q b c) : Spares q a c where
  devices := hab.devices.trans hbc.devices
  entities := hab.entities.trans hbc.entities
  states E e he hq :=
    (hbc.states E e ((hab.entities E e hq).mpr he) hq).trans (hab.states E e he hq)
  found := hab.found.trans hbc.found
  deviceKeys u := (hbc.deviceKeys u).trans (hab.deviceKeys u)
  entityKeys u := (hbc.entityKeys u).trans (hab.entityKeys u)
  foundEntities u := (hbc.foundEntities u).trans (hab.foundEntities u)

lemma Spares.of_restated (h : Restated a b)
    (hstates : ∀ (E : EntityId) (e : Entity κ), a.entities[E]? = some e → e.protocol = q →
      b.states[E]? = a.states[E]?) : Spares q a b := by
  obtain ⟨s, m, k, x, rfl, -⟩ := h
  exact { Spares.refl q a with states := hstates }

lemma get_insert_key {β : Type} {m : Map Key β} (hpq : p ≠ q) (u u' : UniqueId) (v : β) :
    (m.insert ⟨p, u⟩ v)[(⟨q, u'⟩ : Key)]? = m[(⟨q, u'⟩ : Key)]? := by
  rw [Map.get_insert, if_neg]
  exact fun heq => hpq (congrArg Key.protocol heq)

lemma get_erase_key {β : Type} {m : Map Key β} (hpq : p ≠ q) (u u' : UniqueId) :
    (m.erase ⟨p, u⟩)[(⟨q, u'⟩ : Key)]? = m[(⟨q, u'⟩ : Key)]? := by
  rw [Map.get_erase, if_neg]
  exact fun heq => hpq (congrArg Key.protocol heq)

lemma Spares.setFound (hpq : p ≠ q) {D : DeviceId} {f : Found κ σ} (hf : f.protocol = p)
    (hold : ∀ g : Found κ σ, home.found[D]? = some g → g.protocol = p) {keys : Map Key DeviceId}
    (hkeys : ∀ u : UniqueId, keys[(⟨q, u⟩ : Key)]? = home.foundEntities[(⟨q, u⟩ : Key)]?) :
    Spares q home { home with foundEntities := keys, found := home.found.insert D f } :=
  { Spares.refl q home with
    found := .insert (fun hq => hpq (hf.symm.trans hq)) fun g hg hq =>
      hpq ((hold g hg).symm.trans hq)
    foundEntities := hkeys }

end

/-! ### States -/

section States

variable {kinds : Kinds κ σ} {home : Home κ σ} {p q : ProtocolId}

lemma setAvailabilityOf1_states (home : Home κ σ) (availability : Availability) (now : Timestamp)
    (context : Core.Context) (reported : Reported) {E X : EntityId} (hne : E ≠ X) :
    (home.setAvailabilityOf1 availability now context reported E).2.states[X]? =
      home.states[X]? := by
  unfold Home.setAvailabilityOf1
  split
  · rfl
  · split
    · dsimp only
      split
      · exact (Map.get_insert _ _ _ _).trans (if_neg hne)
      · rfl
    · exact (Map.get_insert _ _ _ _).trans (if_neg hne)

lemma setAvailabilityOf_states (home : Home κ σ) (ids : List EntityId)
    (availability : Availability) (now : Timestamp) (context : Core.Context)
    (reported : Reported) {X : EntityId} (hX : X ∉ ids) :
    (home.setAvailabilityOf ids availability now context reported).2.states[X]? =
      home.states[X]? := by
  refine Home.setAvailabilityOf_induct
    (motive := fun changes => changes.2.states[X]? = home.states[X]?) rfl fun changes E hE h => ?_
  rw [← h]
  exact setAvailabilityOf1_states changes.2 availability now context reported
    fun heq => hX (heq ▸ hE)

lemma setAvailabilityOf_spares (hpq : p ≠ q) {ids : List EntityId} (availability : Availability)
    (now : Timestamp) (context : Core.Context) (reported : Reported)
    (hids : ∀ E ∈ ids, ∀ e : Entity κ, home.entities[E]? = some e → e.protocol = p) :
    Spares q home (home.setAvailabilityOf ids availability now context reported).2 := by
  refine .of_restated (setAvailabilityOf_restated _ _ _ _ _ _) fun E e he hq => ?_
  refine setAvailabilityOf_states home ids availability now context reported fun hE => ?_
  exact hpq ((hids E hE e he).symm.trans hq)

lemma forgetMisfit_states (home : Home κ σ) (kinds : Kinds κ σ) (capabilities : κ)
    (old : Core.EntityState σ) (stamp : Stamp) {E X : EntityId} (hne : E ≠ X) :
    (home.forgetMisfit kinds E capabilities old stamp).2.states[X]? = home.states[X]? := by
  unfold Home.forgetMisfit
  split
  · rfl
  · split
    · rfl
    · exact (Map.get_insert _ _ _ _).trans (if_neg hne)

lemma keepReport_states [DecidableEq σ] (home : Home κ σ) (p : ProtocolId)
    (report : StateReport σ) (parent : Option ContextId) (stamp : Stamp) {E X : EntityId}
    (old : Core.EntityState σ) (hne : E ≠ X) :
    (home.keepReport p report parent stamp E old).2.states[X]? = home.states[X]? := by
  unfold Home.keepReport
  dsimp only
  split
  · exact (Map.get_insert _ _ _ _).trans (if_neg hne)
  · split <;> exact (Map.get_insert _ _ _ _).trans (if_neg hne)

end States

/-! ### Devices -/

/-- The entities that hang on what a protocol calls a device of its own are its own too. -/
def OwnEntities (home : Home κ σ) (p : ProtocolId) (u : UniqueId) : Prop :=
  ∀ (D : DeviceId) (e : Entity κ), home.deviceKeys[(⟨p, u⟩ : Key)]? = some D →
    e ∈ home.owned D → e.protocol = p

/-- A found device an entity of a protocol is kept with is the protocol's own. -/
def OwnPlace (home : Home κ σ) (p : ProtocolId) (u : UniqueId) : Prop :=
  ∀ (D : DeviceId) (f : Found κ σ), home.foundEntities[(⟨p, u⟩ : Key)]? = some D →
    home.found[D]? = some f → f.protocol = p

section Devices

variable {kinds : Kinds κ σ} {home next : Home κ σ} {p q : ProtocolId}
  {result : Except Rejected (List (Event κ σ))}

lemma keepFound_spares (hpq : p ≠ q) {said : DeviceDescription}
    (hown : OwnFound home p said.uniqueId) : Spares q home (home.keepFound p said).2 := by
  unfold Home.keepFound
  dsimp only
  split
  · next f hf =>
    refine Spares.setFound hpq ?_ hown fun _ => rfl
    exact hown f hf
  · refine Spares.setFound hpq ?_ hown fun _ => rfl
    rfl

lemma renameAll_spares (hpq : p ≠ q) {D : DeviceId} {Es : List EntityId}
    (hEs : ∀ E ∈ Es, ∀ e : Entity κ, home.entities[E]? = some e → e.protocol = p)
    {events : List (Event κ σ)} {changes : Changes κ σ}
    (hrun : sweep (fun E home => home.renameEntity (some D) E) Es (events, home) =
      some changes) : Spares q home changes.2 := by
  have hkeeps : Spares q home changes.2 ∧ Alike home changes.2 := by
    refine sweep_run (fun mid => Spares q home mid ∧ Alike home mid) ?_ ⟨.refl q home, .refl home⟩
      hrun
    intro E hE mid changes hstep ⟨hspares, halike⟩
    have hrenamed := renameEntity_run hstep
    refine ⟨hspares.trans ?_, halike.trans hrenamed.alike⟩
    unfold Home.renameEntity at hstep
    split at hstep
    · next name e _ he =>
      obtain ⟨e', he', -, hprotocol, -⟩ := halike.entity he
      have hp : e.protocol = p := hprotocol ▸ hEs E hE e' he'
      split at hstep
      · cases hstep
        exact .refl q mid
      · cases hstep
        refine { Spares.refl q mid with entities := .insert ?_ fun w hw hq => ?_ }
        · exact fun hq => hpq (hp.symm.trans hq)
        · rw [he, Option.some.injEq] at hw
          exact hpq (hp.symm.trans (hw ▸ hq))
    · cases hstep
  exact hkeeps.1

lemma updateDevice_spares (hpq : p ≠ q) {D : DeviceId} {before : Device}
    (hD : home.devices[D]? = some before) (hp : before.protocol = p)
    (hid : ∀ (E : EntityId) (e : Entity κ), home.entities[E]? = some e → e.id = E)
    (howned : ∀ e ∈ home.owned D, e.protocol = p) {said : DeviceDescription}
    {via : Option DeviceId}
    (hrun : home.updateDevice kinds D said via = some (result, next)) : Spares q home next := by
  unfold Home.updateDevice at hrun
  split at hrun
  · cases hrun
    exact .refl q home
  · simp only [hD] at hrun
    have hset : ∀ (device : Device) (names : Map DeviceId Name)
        (descriptions : Map DeviceId DeviceDescription), device.protocol = p →
        Spares q home { home with
          reportedDeviceNames := names
          deviceDescriptions := descriptions
          devices := home.devices.insert D device } := by
      intro device names descriptions hdevice
      refine { Spares.refl q home with devices := .insert ?_ fun w hw hq => ?_ }
      · exact fun hq => hpq (hdevice.symm.trans hq)
      · rw [hD, Option.some.injEq] at hw
        exact hpq (hp.symm.trans (hw ▸ hq))
    split at hrun
    · cases hrun
      exact hset _ _ _ hp
    · split at hrun
      · cases hrun
        exact hset _ _ _ hp
      · obtain ⟨changes, hchanges, heq⟩ := Option.map_eq_some_iff.mp hrun
        cases heq
        refine Spares.trans ?_ (renameAll_spares hpq ?_ hchanges)
        · exact hset _ _ _ hp
        -- The entities that follow are those of the device.
        intro E hE e he
        obtain ⟨e', he', rfl⟩ := List.mem_map.mp hE
        have hsame := (owned_ids hid D).1 e' he'
        rw [hsame.1, Option.some.injEq] at he
        exact he ▸ howned e' he'

lemma addDevice_spares (hpq : p ≠ q) {said : DeviceDescription} {via : Option DeviceId} :
    Spares q home (home.addDevice kinds p said via).2 := by
  unfold Home.addDevice
  dsimp only
  split
  · exact .refl q home
  · next hnone =>
    refine { Spares.refl q home with devices := .insert hpq fun w hw => ?_, deviceKeys := ?_ }
    · rw [hnone] at hw
      cases hw
    · exact fun u => get_insert_key hpq _ u _

lemma describeDevice_spares (h : Keyed home) (hpq : p ≠ q) {said : DeviceDescription}
    (hown : OwnFound home p said.uniqueId)
    (howned : home.found[deviceIdFor p said.uniqueId]? = none → OwnEntities home p said.uniqueId)
    (hrun : home.describeDevice kinds p said = some (result, next)) : Spares q home next := by
  unfold Home.describeDevice at hrun
  split at hrun
  · cases hrun
    exact .refl q home
  · dsimp only at hrun
    split at hrun
    · cases hrun
      exact keepFound_spares hpq hown
    · next hfree =>
      split at hrun
      · cases hrun
        exact .refl q home
      · split at hrun
        · next D hD =>
          obtain ⟨before, hbefore, hkey⟩ := h.devices.row hD
          simp only [Bool.or_eq_true, not_or, Bool.not_eq_true] at hfree
          have hnone := Std.ExtTreeMap.getElem?_eq_none_of_contains_eq_false hfree.2
          exact updateDevice_spares hpq hbefore (congrArg Key.protocol hkey) h.entityId
            (fun e he => howned hnone D e hD he) hrun
        · exact run_snd hrun ▸ addDevice_spares hpq

end Devices

/-! ### Entities -/

section Entities

variable {kinds : Kinds κ σ} {home next : Home κ σ} {p q : ProtocolId}
  {result : Except Rejected (List (Event κ σ))}

section Describing

variable [DecidableEq κ] {said : EntityDescription κ} {listed : List EntityKind} {stamp : Stamp}

omit [DecidableEq κ] in
lemma Spares.reached (hpq : p ≠ q) {mid : Home κ σ} (hset : Spares q home mid) {E : EntityId}
    {e : Entity κ} (hE : mid.entities[E]? = some e) (hp : e.protocol = p)
    {old : Core.EntityState σ} (hold : mid.states[E]? = some old) (capabilities : κ)
    (availability : Availability) (now : Timestamp) (context : Core.Context)
    (reported : Reported) :
    Spares q home ((mid.forgetMisfit kinds E capabilities old stamp).2.setAvailabilityOf [E]
      availability now context reported).2 := by
  have hmisfit := forgetMisfit_restated mid kinds capabilities hold stamp
  refine hset.trans (Spares.trans (.of_restated hmisfit fun X x hx hq => ?_)
    (setAvailabilityOf_spares hpq _ _ _ _ fun X hX x hx => ?_))
  · refine forgetMisfit_states mid kinds capabilities old stamp fun heq => ?_
    rw [← heq, hE, Option.some.injEq] at hx
    exact hpq (hp.symm.trans (hx ▸ hq))
  · obtain ⟨s, m, k, c, heq, -⟩ := hmisfit
    rw [List.mem_singleton] at hX
    rw [heq, hX, hE, Option.some.injEq] at hx
    exact hx ▸ hp

lemma updateEntity_spares (hpq : p ≠ q) {device : Option DeviceId} {E : EntityId}
    {before : Entity κ} (hE : home.entities[E]? = some before) (hp : before.protocol = p)
    (hrun : home.updateEntity kinds p listed said device stamp E = some (result, next)) :
    Spares q home next := by
  unfold Home.updateEntity at hrun
  simp only [hE] at hrun
  split at hrun
  · cases hrun
    exact .refl q home
  · split at hrun
    · next name old hname hold =>
      simp only [Option.some.injEq, Prod.mk.injEq] at hrun
      obtain ⟨-, rfl⟩ := hrun
      refine Spares.reached hpq ?_ (Map.get_insert_self _ _ _) ?_ ?_ _ _ _ _ _
      · refine { Spares.refl q home with entities := .insert ?_ fun w hw hq => ?_ }
        · exact fun hq => hpq (hp.symm.trans hq)
        · rw [hE, Option.some.injEq] at hw
          exact hpq (hp.symm.trans (hw ▸ hq))
      · exact hp
      · exact hold
    · cases hrun

omit [DecidableEq κ] in
lemma addEntity_spares (hpq : p ≠ q) {device : Option Device}
    (hrun : home.addEntity kinds p listed said device stamp = some (result, next)) :
    Spares q home next := by
  obtain ⟨otherwise, base, E, hotherwise, hbase, hE, hfresh⟩ := addEntity_id hrun
  simp only [Home.addEntity, hotherwise, hbase, hE] at hrun
  cases hrun
  refine { Spares.refl q home with
    entities := .insert hpq fun w hw => ?_, states := fun X x hx _ => ?_, entityKeys := ?_ }
  · rw [hfresh] at hw
    cases hw
  · refine (Map.get_insert _ _ _ _).trans (if_neg fun heq => ?_)
    rw [← heq, hfresh] at hx
    cases hx
  · exact fun u => get_insert_key hpq _ u _

lemma describeEntity_spares (h : Keyed home) (hpq : p ≠ q)
    (hown : ∀ u : UniqueId, said.deviceUniqueId = some u → OwnFound home p u)
    (hrun : home.describeEntity kinds p listed said stamp = some (result, next)) :
    Spares q home next := by
  have hlive : ∀ device : Option Device,
      home.describeLive kinds p listed said stamp device = some (result, next) →
        Spares q home next := by
    intro device hrun
    unfold Home.describeLive at hrun
    split at hrun
    · next E hE =>
      obtain ⟨before, hbefore, hkey⟩ := h.entities.row hE
      exact updateEntity_spares hpq hbefore (congrArg Key.protocol hkey) hrun
    · exact addEntity_spares hpq hrun
  unfold Home.describeEntity at hrun
  split at hrun
  · cases hrun
    exact .refl q home
  · dsimp only at hrun
    split at hrun
    · cases hrun
      exact .refl q home
    · split at hrun
      · exact hlive _ hrun
      · next u hu =>
        split at hrun
        · next f hf =>
          cases hrun
          have hfound := hown u hu
          refine Spares.setFound hpq ?_ hfound fun u => get_insert_key hpq _ u _
          exact hfound f hf
        · split at hrun
          · cases hrun
            exact .refl q home
          · split at hrun
            · cases hrun
            · exact hlive _ hrun

end Describing

/-! ### Removals -/

lemma removeEntity_spares (h : Keyed home) (hpq : p ≠ q) {u : UniqueId}
    (hown : OwnPlace home p u) : Spares q home (home.removeEntity p u).2 := by
  unfold Home.removeEntity
  dsimp only
  split
  · next D hD =>
    cases hf : home.found[D]? with
    | none =>
      exact { Spares.refl q home with foundEntities := fun u => get_erase_key hpq _ u }
    | some f =>
      have hp := hown D f hD hf
      have hfound : ∀ g : Found κ σ, home.found[D]? = some g → g.protocol = p := by
        intro g hg
        rw [hf, Option.some.injEq] at hg
        exact hg ▸ hp
      refine Spares.setFound hpq ?_ hfound fun u => get_erase_key hpq _ u
      exact hp
  · split
    · exact .refl q home
    · next E hE =>
      obtain ⟨e, he, hkey⟩ := h.entities.row hE
      have hp : e.protocol = p := congrArg Key.protocol hkey
      have hother : ∀ x : Entity κ, home.entities[E]? = some x → ¬ x.protocol = q := by
        intro x hx hq
        rw [he, Option.some.injEq] at hx
        exact hpq (hp.symm.trans (hx ▸ hq))
      refine { Spares.refl q home with
        entities := .erase hother, states := fun X x hx hq => ?_, entityKeys := ?_ }
      · refine (Map.get_erase _ _ _).trans (if_neg fun heq => ?_)
        exact hother x (heq ▸ hx) hq
      · exact fun u => get_erase_key hpq _ u

lemma removeEntity_places (home : Home κ σ) (p : ProtocolId) (u : UniqueId) {u' : UniqueId}
    (hown : OwnPlace home p u') : OwnPlace (home.removeEntity p u).2 p u' := by
  unfold Home.removeEntity
  dsimp only
  split
  · intro D f hD hf
    have hD' := (Map.get_erase_some hD).2
    dsimp only at hf
    split at hf
    · next g hg =>
      rcases Map.get_insert_some hf with ⟨rfl, rfl⟩ | ⟨-, hf⟩
      · exact hown _ g hD' hg
      · exact hown D f hD' hf
    · exact hown D f hD' hf
  · split <;> exact hown

lemma removeEntities_spares (hpq : p ≠ q) {es : List (Entity κ)} (h : Keyed home)
    (hes : ∀ e ∈ es, e.protocol = p ∧ OwnPlace home p e.uniqueId) :
    Spares q home (Home.removeEntities es home).2 := by
  induction es generalizing home with
  | nil => exact .refl q home
  | cons e es ih =>
    obtain ⟨hp, hown⟩ := hes e List.mem_cons_self
    have hfirst := removeEntity_spares h hpq hown
    have hmid := removeEntity_keyed h p e.uniqueId
    have hrest := ih hmid fun e' he' => by
      obtain ⟨hp', hown'⟩ := hes e' (List.mem_cons_of_mem _ he')
      exact ⟨hp', removeEntity_places home p e.uniqueId hown'⟩
    rw [Home.removeEntities, hp]
    generalize home.removeEntity p e.uniqueId = removed at hfirst hrest
    obtain ⟨result, mid⟩ := removed
    cases result with
    | error _ => exact hfirst
    | ok events => exact hfirst.trans hrest

lemma dropDevice_devices (h : Keyed home) {D : DeviceId} {before : Device}
    (hD : home.devices[D]? = some before) (hne : before.protocol ≠ q) :
    Map.SameWhere (fun d : Device => d.protocol = q) home.devices
      ((home.devices.map fun _ d => Home.unreach D d).erase D) := by
  have hstays : ∀ (X : DeviceId) (d : Device), home.devices[X]? = some d → d.protocol = q →
      Home.unreach D d = d := by
    intro X d hd hq
    unfold Home.unreach
    refine if_neg fun hvia => ?_
    obtain ⟨v, hv, hvp⟩ := h.via X D d hd hvia
    rw [hD, Option.some.injEq] at hv
    exact hne (hv ▸ hvp.trans hq)
  intro X d hq
  rw [Map.get_erase, Std.ExtTreeMap.getElem?_map]
  split
  · next heq =>
    refine iff_of_false (by simp) fun hd => ?_
    rw [← heq, hD, Option.some.injEq] at hd
    exact hne (hd ▸ hq)
  · rw [Option.map_eq_some_iff]
    constructor
    · rintro ⟨d', hd', heq⟩
      have hprotocol : d'.protocol = q := by
        rw [← hq, ← heq]
        unfold Home.unreach
        split <;> rfl
      rw [← heq, hstays X d' hd' hprotocol, hd']
    · exact fun hd => ⟨d, hd, hstays X d hd hq⟩

lemma removeDevice_spares (h : Keyed home) (hpq : p ≠ q) {u : UniqueId}
    (hown : OwnFound home p u)
    (howned : home.found[deviceIdFor p u]? = none → OwnEntities home p u ∧
      ∀ (D : DeviceId) (e : Entity κ), home.deviceKeys[(⟨p, u⟩ : Key)]? = some D →
        e ∈ home.owned D → OwnPlace home p e.uniqueId) :
    Spares q home (home.removeDevice p u).2 := by
  unfold Home.removeDevice
  dsimp only
  split
  · next f hf =>
    refine { Spares.refl q home with found := .erase fun w hw hq => ?_, foundEntities := ?_ }
    · exact hpq ((hown w hw).symm.trans hq)
    · intro u'
      have hfold : ∀ (us : List UniqueId) (keys : Map Key DeviceId),
          (us.foldl (fun keys u => keys.erase ⟨p, u⟩) keys)[(⟨q, u'⟩ : Key)]? =
            keys[(⟨q, u'⟩ : Key)]? := by
        intro us
        induction us with
        | nil => exact fun _ => rfl
        | cons v us ih => exact fun keys => (ih _).trans (get_erase_key hpq v u')
      exact hfold _ _
  · next hnone =>
    split
    · exact .refl q home
    · next D hD =>
      obtain ⟨hentities, hplaces⟩ := howned hnone
      obtain ⟨before, hbefore, hkey⟩ := h.devices.row hD
      have hp : before.protocol = p := congrArg Key.protocol hkey
      have hspares := removeEntities_spares hpq h fun e he =>
        ⟨hentities D e hD he, hplaces D e hD he⟩
      obtain ⟨hknown, hdistinct⟩ := h.owned_keys D
      obtain ⟨events, mid, hmid, hkeyed, hdevices, hdeviceKeys⟩ :=
        removeEntities_keyed h hknown hdistinct
      rw [hmid] at hspares
      have hsame : ∀ (keys : Map Key DeviceId) (said : Map DeviceId DeviceDescription),
          { home with deviceKeys := keys, deviceDescriptions := said }.owned D = home.owned D :=
        fun _ _ => rfl
      simp only [removeEntities_frame, hsame, hmid]
      refine { hspares with devices := ?_, deviceKeys := ?_ }
      · rw [← hdevices] at hbefore ⊢
        exact dropDevice_devices hkeyed hbefore fun hq => hpq (hp.symm.trans hq)
      · exact fun u' => get_erase_key hpq _ u'

end Entities

/-! ### Reports -/

section Reports

variable {kinds : Kinds κ σ} {home next : Home κ σ} {p q : ProtocolId} {stamp : Stamp}
  {result : Except Rejected (List (Event κ σ))}

lemma reportLive_states [DecidableEq σ] {report : StateReport σ} {E X : EntityId}
    (hrun : home.reportLive kinds p report stamp E = some (result, next)) (hne : E ≠ X) :
    next.states[X]? = home.states[X]? := by
  unfold Home.reportLive at hrun
  split at hrun
  · cases hrun
  · split at hrun
    · cases hrun
      rfl
    · have hfold := foldReport_states home p E report
      generalize home.foldReport p E report = folded at hfold hrun
      obtain ⟨report, mid⟩ := folded
      dsimp only at hfold hrun
      rw [← hfold]
      split at hrun
      · split at hrun
        · split at hrun
          · cases hrun
          · cases hrun
            exact keepReport_states mid p report _ stamp _ hne
        · cases hrun
          rfl
      · split at hrun
        · cases hrun
        · cases hrun
          exact keepReport_states mid p report _ stamp _ hne

lemma reportState_spares [DecidableEq σ] (h : Keyed home) (hpq : p ≠ q) {report : StateReport σ}
    (hown : OwnPlace home p report.uniqueId)
    (hrun : home.reportState kinds p report stamp = some (result, next)) : Spares q home next := by
  have huid := (cleaned_causedBy report).2
  unfold Home.reportState at hrun
  dsimp only at hrun
  split at hrun
  · cases hrun
    exact .refl q home
  · rw [huid] at hrun
    split at hrun
    · next D hD =>
      cases hrun
      cases hf : home.found[D]? with
      | none => exact .refl q home
      | some f =>
        have hp := hown D f hD hf
        refine Spares.setFound hpq ?_ (fun g hg => ?_) fun _ => rfl
        · exact hp
        · rw [hf, Option.some.injEq] at hg
          exact hg ▸ hp
    · split at hrun
      · cases hrun
        exact .refl q home
      · next E hE =>
        obtain ⟨e, he, hkey⟩ := h.entities.row hE
        refine .of_restated (reportLive_run hrun) fun X x hx hq => ?_
        refine reportLive_states hrun fun heq => ?_
        rw [← heq, he, Option.some.injEq] at hx
        exact hpq ((congrArg Key.protocol hkey).symm.trans (hx ▸ hq))

lemma entityIds_own (h : Keyed home) {us : List UniqueId} {ids : List EntityId}
    (hids : home.entityIds p us = .ok ids) :
    ∀ E ∈ ids, ∀ e : Entity κ, home.entities[E]? = some e → e.protocol = p := by
  induction us generalizing ids with
  | nil =>
    rw [Home.entityIds, Except.ok.injEq] at hids
    subst hids
    exact fun E hE => absurd hE List.not_mem_nil
  | cons u us ih =>
    rw [Home.entityIds] at hids
    split at hids
    · cases hids
    · next E hE =>
      cases hrest : home.entityIds p us with
      | error e =>
        rw [hrest] at hids
        cases hids
      | ok rest =>
        rw [hrest] at hids
        cases hids
        intro X hX x hx
        rcases List.mem_cons.mp hX with rfl | hX
        · obtain ⟨e, he, hkey⟩ := h.entities.row hE
          rw [he, Option.some.injEq] at hx
          exact hx ▸ congrArg Key.protocol hkey
        · exact ih hrest X hX x hx

lemma setAvailability_spares (h : Keyed home) (hpq : p ≠ q) {target : AvailabilityTarget}
    {availability : Availability}
    (hown : ∀ u : UniqueId, target = .device u → OwnFound home p u ∧
      (home.found[deviceIdFor p u]? = none → OwnEntities home p u)) :
    Spares q home (home.setAvailability p target availability stamp).2 := by
  unfold Home.setAvailability
  dsimp only
  split
  · next u =>
    obtain ⟨hfound, hentities⟩ := hown u rfl
    split
    · next f hf =>
      refine Spares.setFound hpq ?_ hfound fun _ => rfl
      exact hfound f hf
    · next hnone =>
      split
      · exact .refl q home
      · next D hD =>
        refine setAvailabilityOf_spares hpq _ _ _ _ fun E hE e he => ?_
        obtain ⟨e', he', rfl⟩ := List.mem_map.mp hE
        have hsame := ((owned_ids h.entityId D).1 e' he').1
        rw [hsame, Option.some.injEq] at he
        exact he ▸ hentities hnone D e' hD he'
  · split
    · exact .refl q home
    · split
      · exact .refl q home
      · next ids hids => exact setAvailabilityOf_spares hpq _ _ _ _ (entityIds_own h hids)

end Reports

/-! ### Protocols on their own -/

/-- What an operation reaches under a device id is its protocol's own: the found device, the found
device an entity is kept with, and the entities of a device that is in the home. -/
def KeepsApart (home : Home κ σ) : HomeOp κ σ → Prop
  | .describeDevice p said => OwnFound home p said.uniqueId ∧
      (home.found[deviceIdFor p said.uniqueId]? = none → OwnEntities home p said.uniqueId)
  | .describeEntity p _ said _ => ∀ u : UniqueId, said.deviceUniqueId = some u → OwnFound home p u
  | .removeDevice p u => OwnFound home p u ∧
      (home.found[deviceIdFor p u]? = none → OwnEntities home p u ∧
        ∀ (D : DeviceId) (e : Entity κ), home.deviceKeys[(⟨p, u⟩ : Key)]? = some D →
          e ∈ home.owned D → OwnPlace home p e.uniqueId)
  | .removeEntity p u => OwnPlace home p u
  | .reportState p report _ => OwnPlace home p report.uniqueId
  | .setAvailability p target _ _ => ∀ u : UniqueId, target = .device u → OwnFound home p u ∧
      (home.found[deviceIdFor p u]? = none → OwnEntities home p u)
  | _ => True

/-- No other protocol's device is found, or has its entities, where this one's would be. -/
structure Separate (home : Home κ σ) (p : ProtocolId) : Prop where
  found : ∀ u : UniqueId, OwnFound home p u
  places : ∀ u : UniqueId, OwnPlace home p u
  entities : ∀ u : UniqueId, home.found[deviceIdFor p u]? = none → OwnEntities home p u

lemma Separate.keepsApart {home : Home κ σ} {p : ProtocolId} (h : Separate home p)
    {op : HomeOp κ σ} (hop : op.sender = some p) : KeepsApart home op := by
  cases op with
  | describeDevice p' said =>
    cases hop
    exact ⟨h.found _, h.entities _⟩
  | describeEntity p' listed said stamp =>
    cases hop
    exact fun u _ => h.found u
  | removeDevice p' u =>
    cases hop
    exact ⟨h.found u, fun hnone => ⟨h.entities u hnone, fun D e _ _ => h.places e.uniqueId⟩⟩
  | removeEntity p' u =>
    cases hop
    exact h.places u
  | reportState p' report stamp =>
    cases hop
    exact h.places _
  | setAvailability p' target availability stamp =>
    cases hop
    exact fun u _ => ⟨h.found u, h.entities u⟩
  | _ => cases hop

variable [DecidableEq κ] [DecidableEq σ] {kinds : Kinds κ σ} {home next : Home κ σ}
  {p q : ProtocolId}

lemma perform_spares (h : Keyed home) (hpq : p ≠ q) {op : HomeOp κ σ}
    (hop : op.sender = some p) (hapart : KeepsApart home op)
    {result : Except Rejected (List (Event κ σ))}
    (hrun : home.perform kinds op = some (result, next)) : Spares q home next := by
  cases op with
  | describeDevice p' said =>
    cases hop
    exact describeDevice_spares h hpq hapart.1 hapart.2 hrun
  | describeEntity p' listed said stamp =>
    cases hop
    exact describeEntity_spares h hpq hapart hrun
  | removeDevice p' u =>
    cases hop
    exact run_snd hrun ▸ removeDevice_spares h hpq hapart.1 hapart.2
  | removeEntity p' u =>
    cases hop
    exact run_snd hrun ▸ removeEntity_spares h hpq hapart
  | reportState p' report stamp =>
    cases hop
    exact reportState_spares h hpq hapart hrun
  | setAvailability p' target availability stamp =>
    cases hop
    exact run_snd hrun ▸ setAvailability_spares h hpq hapart
  | _ => cases hop

/-! ### Protocols that meet -/

def ways (home : Home κ σ) (k : Key) : Option EntityId × Option DeviceId :=
  (home.entityKeys[k]?, home.foundEntities[k]?)

omit [DecidableEq κ] [DecidableEq σ] in
lemma Spares.ways_eq (h : Spares q home next) {k : Key} (hk : k.protocol = q) :
    ways next k = ways home k := by
  obtain ⟨_, u⟩ := k
  subst hk
  exact Prod.ext (h.entityKeys u) (h.foundEntities u)

omit [DecidableEq κ] [DecidableEq σ] in
lemma removeEntity_ways (home : Home κ σ) {k : Key} (hk : home.entityKeys[k]? ≠ none) :
    ways (home.removeEntity k.protocol k.uniqueId).2 k ≠ ways home k := by
  intro hsame
  have hkeys := congrArg Prod.fst hsame
  have hfound := congrArg Prod.snd hsame
  unfold ways Home.removeEntity at hkeys hfound
  dsimp only at hkeys hfound
  cases hD : home.foundEntities[k]? with
  | some D =>
    simp only [hD, Map.get_erase, if_pos] at hfound
    cases hfound
  | none =>
    simp only [hD] at hkeys
    split at hkeys
    · next hgone => exact hk hgone
    · simp only [Map.get_erase, if_pos] at hkeys
      exact hk hkeys.symm

omit [DecidableEq κ] [DecidableEq σ] in
lemma removeEntity_ways_of_ne (home : Home κ σ) {k k' : Key} (hne : k ≠ k') :
    ways (home.removeEntity k.protocol k.uniqueId).2 k' = ways home k' := by
  unfold ways Home.removeEntity
  dsimp only
  split
  · rw [Map.get_erase, if_neg hne]
  · split
    · rfl
    · rw [Map.get_erase, if_neg hne]

omit [DecidableEq κ] [DecidableEq σ] in
lemma removeEntities_cons {e : Entity κ} {es : List (Entity κ)}
    (hknown : home.entityKeys[e.key]? ≠ none) :
    (Home.removeEntities (e :: es) home).2 =
      (Home.removeEntities es (home.removeEntity e.protocol e.uniqueId).2).2 := by
  obtain ⟨⟨events, hevents⟩, -⟩ := removeEntity_known hknown
  have hpair : home.removeEntity e.protocol e.uniqueId =
      (.ok events, (home.removeEntity e.protocol e.uniqueId).2) := Prod.ext hevents rfl
  rw [Home.removeEntities, hpair]

omit [DecidableEq κ] [DecidableEq σ] in
lemma removeEntities_ways {es : List (Entity κ)}
    (hknown : ∀ e ∈ es, home.entityKeys[e.key]? ≠ none)
    (hkeys : es.Pairwise fun e e' => e.key ≠ e'.key) :
    (∀ k : Key, (∀ e ∈ es, e.key ≠ k) →
      ways (Home.removeEntities es home).2 k = ways home k) ∧
      ∀ e ∈ es, ways (Home.removeEntities es home).2 e.key ≠ ways home e.key := by
  induction es generalizing home with
  | nil => exact ⟨fun _ _ => rfl, fun e he => absurd he List.not_mem_nil⟩
  | cons e es ih =>
    obtain ⟨hhead, htail⟩ := List.pairwise_cons.mp hkeys
    have hother : ∀ k : Key, e.key ≠ k →
        ways (home.removeEntity e.protocol e.uniqueId).2 k = ways home k :=
      fun k hne => removeEntity_ways_of_ne home hne
    have hknown' : ∀ e' ∈ es,
        (home.removeEntity e.protocol e.uniqueId).2.entityKeys[e'.key]? ≠ none := by
      intro e' he'
      have hsame := congrArg Prod.fst (hother e'.key (hhead e' he'))
      exact fun hnone => hknown e' (List.mem_cons_of_mem _ he') (hsame.symm.trans hnone)
    obtain ⟨hsame, hgone⟩ := ih hknown' htail
    rw [removeEntities_cons (hknown e List.mem_cons_self)]
    constructor
    · intro k hk
      rw [hsame k fun e' he' => hk e' (List.mem_cons_of_mem _ he'), hother k (hk e List.mem_cons_self)]
    · intro x hx
      rcases List.mem_cons.mp hx with rfl | hx
      · rw [hsame x.key fun e' he' heq => hhead e' he' heq.symm]
        exact removeEntity_ways home (hknown x List.mem_cons_self)
      · rw [← hother x.key (hhead x hx)]
        exact hgone x hx

omit [DecidableEq κ] [DecidableEq σ] in
lemma removeDevice_ways (h : Keyed home) {u : UniqueId}
    (hnone : home.found[deviceIdFor p u]? = none) {D : DeviceId}
    (hD : home.deviceKeys[(⟨p, u⟩ : Key)]? = some D) {e : Entity κ} (he : e ∈ home.owned D) :
    ways (home.removeDevice p u).2 e.key ≠ ways home e.key := by
  obtain ⟨hknown, hdistinct⟩ := h.owned_keys D
  obtain ⟨events, mid, hmid, -⟩ := removeEntities_keyed h hknown hdistinct
  have hgone := (removeEntities_ways hknown hdistinct).2 e he
  rw [hmid] at hgone
  have hsame : ∀ (keys : Map Key DeviceId) (said : Map DeviceId DeviceDescription),
      { home with deviceKeys := keys, deviceDescriptions := said }.owned D = home.owned D :=
    fun _ _ => rfl
  unfold Home.removeDevice
  simp only [hnone, hD, removeEntities_frame, hsame, hmid]
  exact hgone

def blank (u : UniqueId) (replayed : Bool) : StateReport σ :=
  { uniqueId := u, state := none, attributes := ∅, causedBy := none, replayed }

omit [DecidableEq κ] in
lemma blank_kept (kinds : Kinds κ σ) {u : UniqueId} {D : DeviceId} {f : Found κ σ}
    (hD : home.foundEntities[(⟨p, u⟩ : Key)]? = some D) (hf : home.found[D]? = some f)
    (stamp : Stamp) (replayed : Bool) :
    home.reportState kinds p (blank u replayed) stamp = some (.ok [], { home with
      found := home.found.insert D
        { f with reports := f.reports.insert u (blank u replayed) } }) := by
  have hplain : Home.cleaned (blank u replayed : StateReport σ) = blank u replayed := rfl
  have hvalid : (blank u replayed : StateReport σ).validate kinds = .ok () := rfl
  have huid : (blank u replayed : StateReport σ).uniqueId = u := rfl
  unfold Home.reportState
  simp only [hplain, hvalid, huid, hD, hf]
  rfl

lemma blank_meets (kinds : Kinds κ σ) {u : UniqueId} {D : DeviceId} {f : Found κ σ}
    (hD : home.foundEntities[(⟨p, u⟩ : Key)]? = some D) (hf : home.found[D]? = some f)
    (stamp : Stamp) : ∃ (replayed : Bool) (result : Except Rejected (List (Event κ σ)))
      (next : Home κ σ),
      home.perform kinds (.reportState p (blank u replayed) stamp) = some (result, next) ∧
        next.found[D]? ≠ some f := by
  obtain ⟨replayed, hne⟩ : ∃ replayed : Bool, f.reports[u]? ≠ some (blank u replayed) := by
    by_cases hfalse : f.reports[u]? = some (blank u false)
    · refine ⟨true, fun htrue => ?_⟩
      rw [hfalse, Option.some.injEq] at htrue
      exact absurd (congrArg StateReport.replayed htrue) Bool.false_ne_true
    · exact ⟨false, hfalse⟩
  refine ⟨replayed, _, _, blank_kept kinds hD hf stamp replayed, fun hsame => hne ?_⟩
  dsimp only at hsame
  rw [Map.get_insert_self, Option.some.injEq] at hsame
  have hreports := congrArg (fun f : Found κ σ => f.reports[u]?) hsame
  dsimp only at hreports
  rw [Map.get_insert_self] at hreports
  exact hreports.symm

omit [DecidableEq κ] [DecidableEq σ] in
lemma separate_new (p : ProtocolId) : Separate (Home.new : Home κ σ) p where
  found u f hf := by simp [Home.new] at hf
  places u D f hD := by simp [Home.new] at hD
  entities u _ D e hD := by simp [Home.new] at hD

def foundOps : List (HomeOp Sample.Ability Sample.On) :=
  [.applySettings (Sample.asking true []) Sample.stamp,
    .describeDevice Sample.hub (Sample.described Sample.colon)]

end Irori.Proofs
