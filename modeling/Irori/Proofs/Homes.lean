import Irori.Proofs.Slugs
import Irori.Proofs.Wholeness

/-!
# Homes stay whole

What each operation does to the ties of a home, and the runs of operations that keep a home whole.
-/

namespace Irori.Proofs
open Irori Irori.Core

variable {κ σ : Type}

def foundSaid (f : Found κ σ) :
    ProtocolId × DeviceDescription × Map UniqueId (List EntityKind × EntityDescription κ) :=
  (f.protocol, f.description, f.entities)

/-- Nothing has been described, removed or named since. -/
structure Unsaid (a b : Home κ σ) : Prop where
  devices : b.devices = a.devices
  deviceKeys : b.deviceKeys = a.deviceKeys
  entities : b.entities = a.entities
  entityKeys : b.entityKeys = a.entityKeys
  states : ∀ E : EntityId, b.states[E]? = none ↔ a.states[E]? = none
  reportedDeviceNames : b.reportedDeviceNames = a.reportedDeviceNames
  reportedEntityNames : b.reportedEntityNames = a.reportedEntityNames
  deviceDescriptions : b.deviceDescriptions = a.deviceDescriptions
  entityDescriptions : b.entityDescriptions = a.entityDescriptions
  found : ∀ D : DeviceId, (b.found[D]?).map foundSaid = (a.found[D]?).map foundSaid
  foundEntities : b.foundEntities = a.foundEntities
  settings : b.settings = a.settings

namespace Unsaid

variable {a b c : Home κ σ}

lemma refl (a : Home κ σ) : Unsaid a a := by
  constructor <;> simp

lemma alike (h : Unsaid a b) : Alike a b where
  devices D := by rw [h.devices]
  deviceKeys := h.deviceKeys
  entities E := by rw [h.entities]
  entityKeys := h.entityKeys
  states := h.states
  reportedDeviceNames := h.reportedDeviceNames
  reportedEntityNames := h.reportedEntityNames
  deviceDescriptions := h.deviceDescriptions
  entityDescriptions := h.entityDescriptions
  found D := by
    have htie := congrArg (Option.map fun said => (said.1, said.2.1.uniqueId, said.2.2)) (h.found D)
    rwa [Option.map_map, Option.map_map] at htie
  foundEntities := h.foundEntities
  settings := h.settings

end Unsaid

/-- Nothing but the values of entities, and what is remembered about them, is different. -/
def Restated (a b : Home κ σ) : Prop :=
  ∃ (states : Map EntityId (Core.EntityState σ)) (commanded : Map EntityId Typed)
    (skipped : Map Key String) (skipsChanged : Bool),
    b = { a with states, commanded, skipped, skipsChanged } ∧
      ∀ E : EntityId, states[E]? = none ↔ a.states[E]? = none

namespace Restated

variable {a b c : Home κ σ}

lemma refl (a : Home κ σ) : Restated a a :=
  ⟨a.states, a.commanded, a.skipped, a.skipsChanged, rfl, fun _ => Iff.rfl⟩

lemma trans (hab : Restated a b) (hbc : Restated b c) : Restated a c := by
  obtain ⟨s, m, k, x, rfl, hs⟩ := hab
  obtain ⟨s', m', k', x', rfl, hs'⟩ := hbc
  exact ⟨s', m', k', x', rfl, fun E => (hs' E).trans (hs E)⟩

lemma unsaid (h : Restated a b) : Unsaid a b := by
  obtain ⟨s, m, k, x, rfl, hs⟩ := h
  exact { Unsaid.refl a with states := hs }

lemma alike (h : Restated a b) : Alike a b := h.unsaid.alike

lemma state {E : EntityId} {old : Core.EntityState σ} (hold : a.states[E]? = some old)
    (new : Core.EntityState σ) (m : Map EntityId Typed) :
    Restated a { a with commanded := m, states := a.states.insert E new } := by
  refine ⟨_, m, a.skipped, a.skipsChanged, rfl, fun X => ?_⟩
  rw [Map.get_insert]
  split
  · next heq => simp [← heq, hold]
  · rfl

end Restated

lemma setAvailabilityOf1_restated (home : Home κ σ) (availability : Availability)
    (now : Timestamp) (context : Core.Context) (reported : Reported) (E : EntityId) :
    Restated home (home.setAvailabilityOf1 availability now context reported E).2 := by
  unfold Home.setAvailabilityOf1
  split
  · exact .refl home
  · next old hold =>
    split
    · dsimp only
      split
      · exact Restated.state hold _ home.commanded
      · exact .refl home
    · exact Restated.state hold _ home.commanded

lemma setAvailabilityOf_restated (home : Home κ σ) (ids : List EntityId)
    (availability : Availability) (now : Timestamp) (context : Core.Context)
    (reported : Reported) :
    Restated home (home.setAvailabilityOf ids availability now context reported).2 := by
  refine Home.setAvailabilityOf_induct (motive := fun changes => Restated home changes.2)
    (.refl home) fun changes E _ h => ?_
  exact h.trans (setAvailabilityOf1_restated changes.2 availability now context reported E)

lemma forgetMisfit_restated (home : Home κ σ) (kinds : Kinds κ σ) {E : EntityId}
    (capabilities : κ) {old : Core.EntityState σ} (hold : home.states[E]? = some old)
    (stamp : Stamp) : Restated home (home.forgetMisfit kinds E capabilities old stamp).2 := by
  unfold Home.forgetMisfit
  split
  · exact .refl home
  · split
    · exact .refl home
    · exact Restated.state hold _ _

lemma changeUpdate_restated (home : Home κ σ) (E : EntityId) (context : Core.Context)
    (stamp : Stamp) (change : UpdateState → UpdateState) :
    Restated home (home.changeUpdate E context stamp change).2 := by
  unfold Home.changeUpdate
  split
  · exact .refl home
  · next old hold =>
    split
    · dsimp only
      split
      · exact .refl home
      · exact Restated.state hold _ home.commanded
    · exact .refl home

lemma restated_skips (home : Home κ σ) (skipped : Map Key String) (skipsChanged : Bool) :
    Restated home { home with skipped, skipsChanged } :=
  ⟨home.states, home.commanded, skipped, skipsChanged, rfl, fun _ => Iff.rfl⟩

lemma skipUpdate_restated (home : Home κ σ) (E : EntityId) (context : Core.Context)
    (stamp : Stamp) : Restated home (home.skipUpdate E context stamp).2 := by
  unfold Home.skipUpdate
  dsimp only
  split
  · exact .refl home
  · split
    · exact .refl home
    · split
      · exact .refl home
      · exact .refl home
      · exact (restated_skips home _ _).trans (changeUpdate_restated _ _ _ _ _)

lemma clearSkippedUpdate_restated (home : Home κ σ) (E : EntityId) (context : Core.Context)
    (stamp : Stamp) : Restated home (home.clearSkippedUpdate E context stamp).2 := by
  unfold Home.clearSkippedUpdate
  split
  · exact .refl home
  · exact (restated_skips home _ _).trans (changeUpdate_restated _ _ _ _ _)

lemma foldReport_states (home : Home κ σ) (p : ProtocolId) (E : EntityId)
    (report : StateReport σ) : (home.foldReport p E report).2.states = home.states := by
  unfold Home.foldReport
  split
  · unfold Home.foldUpdate
    dsimp only
    split <;> rfl
  · rfl

lemma foldReport_restated (home : Home κ σ) (p : ProtocolId) (E : EntityId)
    (report : StateReport σ) : Restated home (home.foldReport p E report).2 := by
  unfold Home.foldReport
  split
  · simp only [Home.foldUpdate]
    split
    · exact restated_skips home _ _
    · exact .refl home
  · exact .refl home

lemma unsaid_found {home : Home κ σ} {D : DeviceId} {f f' : Found κ σ}
    (hD : home.found[D]? = some f) (hsaid : foundSaid f' = foundSaid f) :
    Unsaid home { home with found := home.found.insert D f' } := by
  refine { Unsaid.refl home with found := fun X => ?_ }
  rw [Map.get_insert]
  split
  · next heq => rw [← heq, hD, Option.map_some, Option.map_some, hsaid]
  · rfl

section Reports

variable [DecidableEq σ]

lemma keepReport_restated (home : Home κ σ) (p : ProtocolId) (report : StateReport σ)
    (parent : Option ContextId) (stamp : Stamp) {E : EntityId} {old : Core.EntityState σ}
    (hold : home.states[E]? = some old) :
    Restated home (home.keepReport p report parent stamp E old).2 := by
  unfold Home.keepReport
  dsimp only
  split
  · exact Restated.state hold _ _
  · split
    · exact Restated.state hold _ _
    · exact Restated.state hold _ _

lemma reportLive_restated (kinds : Kinds κ σ) {home : Home κ σ} (h : Tied home) (p : ProtocolId)
    (report : StateReport σ) (stamp : Stamp) {k : Key} {E : EntityId}
    (hE : home.entityKeys[k]? = some E) :
    ∃ (result : Except Rejected (List (Event κ σ))) (next : Home κ σ),
      home.reportLive kinds p report stamp E = some (result, next) ∧ Restated home next := by
  obtain ⟨e, he, -⟩ := h.entities.row hE
  unfold Home.reportLive
  simp only [he]
  split
  · exact ⟨_, home, rfl, .refl home⟩
  · have hfold := foldReport_restated home p E report
    generalize home.foldReport p E report = folded at hfold
    obtain ⟨report, next⟩ := folded
    have hstate : ∃ old : Core.EntityState σ, next.states[E]? = some old := by
      have hne : next.states[E]? ≠ none := by
        rw [ne_eq, hfold.alike.states, h.states, he]
        simp
      exact Option.ne_none_iff_exists'.mp hne
    obtain ⟨old, hold⟩ := hstate
    dsimp only at hfold ⊢
    split
    · split
      · rw [hold]
        exact ⟨_, _, rfl, hfold.trans (keepReport_restated next p report _ stamp hold)⟩
      · exact ⟨_, next, rfl, hfold⟩
    · rw [hold]
      exact ⟨_, _, rfl, hfold.trans (keepReport_restated next p report _ stamp hold)⟩

lemma reportState_unsaid (kinds : Kinds κ σ) {home : Home κ σ} (h : Tied home) (p : ProtocolId)
    (report : StateReport σ) (stamp : Stamp) :
    ∃ (result : Except Rejected (List (Event κ σ))) (next : Home κ σ),
      home.reportState kinds p report stamp = some (result, next) ∧ Unsaid home next := by
  unfold Home.reportState
  dsimp only
  split
  · exact ⟨_, home, rfl, .refl home⟩
  · split
    · refine ⟨_, _, rfl, ?_⟩
      split
      · next f hf => exact unsaid_found hf rfl
      · exact .refl home
    · split
      · exact ⟨_, home, rfl, .refl home⟩
      · next E hE =>
        obtain ⟨result, next, hlive, hnext⟩ :=
          reportLive_restated kinds h p (Home.cleaned report) stamp hE
        exact ⟨result, next, hlive, hnext.unsaid⟩

end Reports

lemma setAvailability_unsaid (home : Home κ σ) (p : ProtocolId) (target : AvailabilityTarget)
    (availability : Availability) (stamp : Stamp) :
    Unsaid home (home.setAvailability p target availability stamp).2 := by
  unfold Home.setAvailability
  dsimp only
  split
  · split
    · next f hf => exact unsaid_found hf rfl
    · split
      · exact .refl home
      · exact (setAvailabilityOf_restated home _ _ _ _ _).unsaid
  · split
    · exact .refl home
    · split
      · exact .refl home
      · exact (setAvailabilityOf_restated home _ _ _ _ _).unsaid

lemma nameForEntity_isSome (home : Home κ σ) (E : EntityId) {D : Option DeviceId}
    (hnamed : home.reportedEntityNames[E]? = none → D ≠ none)
    (hdevice : ∀ X : DeviceId, D = some X → ∃ d : Device, home.devices[X]? = some d) :
    ∃ name : Name, home.nameForEntity E D = some name := by
  unfold Home.nameForEntity
  split
  · exact ⟨_, rfl⟩
  · split
    · exact ⟨_, rfl⟩
    · next hnone =>
      obtain ⟨X, hX⟩ := Option.ne_none_iff_exists'.mp (hnamed hnone)
      obtain ⟨d, hd⟩ := hdevice X hX
      exact ⟨d.name, by rw [hX, Option.bind_some, hd]; rfl⟩

/-- Only what entities are called is different. -/
def Renamed (a b : Home κ σ) : Prop :=
  ∃ entities : Map EntityId (Entity κ), b = { a with entities } ∧
    ∀ E : EntityId, (entities[E]?).map entityTie = (a.entities[E]?).map entityTie

lemma Renamed.alike {a b : Home κ σ} (h : Renamed a b) : Alike a b := by
  obtain ⟨entities, rfl, htie⟩ := h
  exact { Alike.refl a with entities := htie }

lemma Renamed.trans {a b c : Home κ σ} (hab : Renamed a b) (hbc : Renamed b c) : Renamed a c := by
  obtain ⟨m, rfl, hm⟩ := hab
  obtain ⟨m', rfl, hm'⟩ := hbc
  exact ⟨m', rfl, fun E => (hm' E).trans (hm E)⟩

lemma Renamed.refl (a : Home κ σ) : Renamed a a := ⟨a.entities, rfl, fun _ => rfl⟩

lemma renameEntity_renamed {home : Home κ σ} (h : Tied home) {E : EntityId} {e : Entity κ}
    (he : home.entities[E]? = some e) :
    ∃ (events : List (Event κ σ)) (next : Home κ σ),
      home.renameEntity e.deviceId E = some (events, next) ∧ Renamed home next := by
  obtain ⟨name, hname⟩ := nameForEntity_isSome _ _ (h.entityNamed E e he) fun X hX => by
    obtain ⟨d, hd, -⟩ := h.entityDevice E e X he hX
    exact ⟨d, hd⟩
  unfold Home.renameEntity
  rw [hname, he]
  dsimp only
  split
  · exact ⟨_, home, rfl, .refl home⟩
  · refine ⟨_, _, rfl, _, rfl, fun X => ?_⟩
    rw [Map.get_insert]
    split
    · next heq => rw [← heq, he]; rfl
    · rfl

lemma sweep_keeps {α : Type} (step : α → Home κ σ → Option (Changes κ σ)) (as : List α)
    (P : Home κ σ → Prop) (hstep : ∀ a ∈ as, ∀ home : Home κ σ, P home →
      ∃ (events : List (Event κ σ)) (next : Home κ σ), step a home = some (events, next) ∧ P next)
    (events : List (Event κ σ)) {home : Home κ σ} (h : P home) :
    ∃ (events' : List (Event κ σ)) (next : Home κ σ),
      sweep step as (events, home) = some (events', next) ∧ P next := by
  induction as generalizing events home with
  | nil => exact ⟨events, home, rfl, h⟩
  | cons a as ih =>
    obtain ⟨more, next, hnext, hP⟩ := hstep a List.mem_cons_self home h
    rw [sweep, hnext]
    exact ih (fun b hb => hstep b (List.mem_cons_of_mem _ hb)) (events ++ more) hP

/-- The settings are as they were, and no device came in that they keep out. -/
structure Leads (home next : Home κ σ) : Prop where
  settings : next.settings = home.settings
  live : ∀ (D : DeviceId) (d : Device), next.devices[D]? = some d →
    home.isHeld d.protocol D = false ∨
      ∃ before : Device, home.devices[D]? = some before ∧ before.protocol = d.protocol

namespace Leads

variable {a b c : Home κ σ}

lemma of_devices (hsettings : b.settings = a.settings) (hdevices : b.devices = a.devices) :
    Leads a b where
  settings := hsettings
  live _ d hd := .inr ⟨d, hdevices ▸ hd, rfl⟩

lemma refl (a : Home κ σ) : Leads a a := of_devices rfl rfl

lemma isHeld_eq (h : b.settings = a.settings) (p : ProtocolId) (D : DeviceId) :
    b.isHeld p D = a.isHeld p D := by
  unfold Home.isHeld
  rw [h]

lemma trans (hab : Leads a b) (hbc : Leads b c) : Leads a c where
  settings := hbc.settings.trans hab.settings
  live D d hd := by
    rcases hbc.live D d hd with hheld | ⟨d', hd', hprotocol⟩
    · exact .inl (by rwa [isHeld_eq hab.settings] at hheld)
    · rcases hab.live D d' hd' with hheld | ⟨d'', hd'', hprotocol'⟩
      · exact .inl (hprotocol ▸ hheld)
      · exact .inr ⟨d'', hd'', hprotocol'.trans hprotocol⟩

lemma of_alike (h : Alike a b) : Leads a b where
  settings := h.settings
  live D d hd := by
    obtain ⟨d', hd', -, hprotocol, -⟩ := h.device hd
    exact .inr ⟨d', hd', hprotocol⟩

end Leads

lemma reachesIn_false {home : Home κ σ} {target : DeviceId} {steps : Nat} {D : DeviceId}
    (h : home.reachesIn target steps (some D) = false) :
    ¬ Relation.ReflTransGen (Pointers.Follows (viaOf home)) D target := by
  induction steps generalizing D with
  | zero => simp [Home.reachesIn] at h
  | succ steps ih =>
    rw [Home.reachesIn] at h
    split at h
    · cases h
    · next hne =>
      intro hpath
      rcases Relation.ReflTransGen.cases_head hpath with heq | ⟨V, hV, hrest⟩
      · exact hne heq
      · change viaOf home D = some V at hV
        change home.reachesIn target steps (viaOf home D) = false at h
        rw [hV] at h
        exact ih h hrest

lemma viaFor_ok {home : Home κ σ} (h : Tied home) {p : ProtocolId} {said : DeviceDescription}
    {via : Option DeviceId} (hvia : home.viaFor p said = .ok via) (V : DeviceId)
    (hV : via = some V) : ∃ v : Device, home.devices[V]? = some v := by
  subst hV
  unfold Home.viaFor at hvia
  split at hvia
  · cases hvia
  · split at hvia
    · next id hid =>
      rw [Except.ok.injEq, Option.some.injEq] at hvia
      subst hvia
      obtain ⟨v, hv, -⟩ := h.devices.row hid
      exact ⟨v, hv⟩
    · cases hvia

/-- What a described device does to the rest of the home: nothing but names. -/
structure Registers (home next : Home κ σ) : Prop where
  leads : Leads home next
  found : next.found = home.found
  foundEntities : next.foundEntities = home.foundEntities
  entityKeys : next.entityKeys = home.entityKeys
  entities : ∀ E : EntityId, next.entities[E]? = none ↔ home.entities[E]? = none

lemma Renamed.settles {a b : Home κ σ} (h : Renamed a b) : Registers a b := by
  have halike := h.alike
  obtain ⟨entities, rfl, htie⟩ := h
  exact ⟨.of_devices rfl rfl, rfl, rfl, rfl, halike.entity_none⟩

lemma updateDevice_tied (kinds : Kinds κ σ) {home : Home κ σ} (h : Tied home) {D : DeviceId}
    {before : Device} (hD : home.devices[D]? = some before) {said : DeviceDescription}
    (hsaid : said.uniqueId = before.uniqueId) {via : Option DeviceId}
    (hvia : ∀ V : DeviceId, via = some V → ∃ v : Device, home.devices[V]? = some v) :
    ∃ (result : Except Rejected (List (Event κ σ))) (next : Home κ σ),
      home.updateDevice kinds D said via = some (result, next) ∧ Tied next ∧
        Registers home next := by
  unfold Home.updateDevice
  split
  · exact ⟨_, home, rfl, h, .refl home, rfl, rfl, rfl, fun _ => Iff.rfl⟩
  · next hreach =>
    simp only [hD]
    generalize hdevice : ({ before with
        name := home.nameForDevice D said.name
        manufacturer := said.manufacturer
        model := said.model
        swVersion := said.swVersion
        hwVersion := said.hwVersion
        serialNumber := said.serialNumber
        suggestedArea := said.suggestedArea
        areaId := home.areaForDevice kinds D said.suggestedArea
        viaDeviceId := via } : Device) = device
    have hid : device.id = before.id := by rw [← hdevice]
    have hkey : device.key = before.key := by rw [← hdevice]; rfl
    have hback : ∀ V : DeviceId, device.viaDeviceId = some V →
        (∃ v : Device, home.devices[V]? = some v) ∧
          ¬ Relation.ReflTransGen (Pointers.Follows (viaOf home)) V D := by
      intro V hV
      have hsome : via = some V := by rw [← hV, ← hdevice]
      have hfalse : home.reaches V D = false := by simpa [hsome] using hreach
      exact ⟨hvia V hsome, reachesIn_false hfalse⟩
    have htied := h.updateDevice hD hid hkey hsaid said.name hback
    have hlead : Leads home { home with
        reportedDeviceNames := home.reportedDeviceNames.insert D said.name
        deviceDescriptions := home.deviceDescriptions.insert D said
        devices := home.devices.insert D device } := by
      refine ⟨rfl, fun X d hd => .inr ?_⟩
      rcases Map.get_insert_some hd with ⟨rfl, rfl⟩ | ⟨-, hd⟩
      · exact ⟨before, hD, congrArg Key.protocol hkey.symm⟩
      · exact ⟨d, hd, rfl⟩
    split
    · exact ⟨_, _, rfl, htied, hlead, rfl, rfl, rfl, fun _ => Iff.rfl⟩
    · split
      · exact ⟨_, _, rfl, htied, hlead, rfl, rfl, rfl, fun _ => Iff.rfl⟩
      · generalize hstart : ({ home with
          reportedDeviceNames := home.reportedDeviceNames.insert D said.name
          deviceDescriptions := home.deviceDescriptions.insert D said
          devices := home.devices.insert D device } : Home κ σ) = start at htied hlead
        have hstartFound : start.found = home.found ∧ start.foundEntities = home.foundEntities ∧
            start.entityKeys = home.entityKeys ∧ start.entities = home.entities := by
          rw [← hstart]
          exact ⟨rfl, rfl, rfl, rfl⟩
        obtain ⟨hfound, hfoundEntities, hkeys, hentities⟩ := hstartFound
        -- Every entity of the device gets the name it now has.
        have hstep : ∀ E ∈ (start.owned D).map Entity.id, ∀ home : Home κ σ, Renamed start home →
            ∃ (events : List (Event κ σ)) (next : Home κ σ),
              home.renameEntity (some D) E = some (events, next) ∧ Renamed start next := by
          intro E hE home hrenamed
          obtain ⟨e, he, rfl⟩ := List.mem_map.mp hE
          obtain ⟨he, hdevice⟩ := List.mem_filter.mp he
          obtain ⟨E, he⟩ := Map.mem_vals.mp he
          have heq := htied.entityId E e he
          have hsome : e.deviceId = some D := by simpa using hdevice
          obtain ⟨e', he', htie⟩ := Alike.exists_of_map (hrenamed.alike.entities E).symm he
          have hdevice' : e'.deviceId = some D :=
            (congrArg (fun tie => tie.2.2) htie).trans hsome
          obtain ⟨events, next, hnext, hrest⟩ :=
            renameEntity_renamed (htied.alike hrenamed.alike) he'
          rw [hdevice', ← heq] at hnext
          exact ⟨events, next, hnext, hrenamed.trans hrest⟩
        obtain ⟨events, next, hsweep, hrenamed⟩ :=
          sweep_keeps _ _ (Renamed start) hstep [] (Renamed.refl start)
        have hregisters := hrenamed.settles
        refine ⟨.ok (.deviceUpdated device :: events), next, ?_, htied.alike hrenamed.alike,
          hlead.trans hregisters.leads, hregisters.found.trans hfound,
          hregisters.foundEntities.trans hfoundEntities, hregisters.entityKeys.trans hkeys,
          fun E => (hregisters.entities E).trans (by rw [hentities])⟩
        simp only [hsweep, Option.map_some]

lemma addDevice_tied (kinds : Kinds κ σ) {home : Home κ σ} (h : Tied home) {p : ProtocolId}
    {said : DeviceDescription} {via : Option DeviceId}
    (hheld : home.isHeld p (deviceIdFor p said.uniqueId) = false)
    (hfound : home.found[deviceIdFor p said.uniqueId]? = none)
    (hkey : home.deviceKeys[(⟨p, said.uniqueId⟩ : Key)]? = none)
    (hvia : ∀ V : DeviceId, via = some V → ∃ v : Device, home.devices[V]? = some v) :
    Tied (home.addDevice kinds p said via).2 ∧ Registers home (home.addDevice kinds p said via).2 := by
  unfold Home.addDevice
  dsimp only
  split
  · exact ⟨h, .refl home, rfl, rfl, rfl, fun _ => Iff.rfl⟩
  · next hnone =>
    generalize hD : deviceIdFor p said.uniqueId = D at hheld hfound hnone
    generalize hdevice : (Device.mk D p said.uniqueId _ _ _ _ _ _ _ _ _ via) = device
    have hkey' : home.deviceKeys[device.key]? = none := by
      rw [← hdevice]
      exact hkey
    have hid : device.id = D ∧ deviceIdFor device.protocol device.uniqueId = D := by
      rw [← hdevice]
      exact ⟨rfl, hD⟩
    have huid : said.uniqueId = device.uniqueId := by rw [← hdevice]
    have hvia' : ∀ V : DeviceId, device.viaDeviceId = some V →
        ∃ v : Device, home.devices[V]? = some v := by
      rw [← hdevice]
      exact hvia
    refine ⟨h.addDevice hnone hkey' hfound hid huid said.name hvia', ⟨rfl, fun X d hd => ?_⟩, rfl,
      rfl, rfl, fun _ => Iff.rfl⟩
    rcases Map.get_insert_some hd with ⟨rfl, rfl⟩ | ⟨-, hd⟩
    · rw [← hdevice]
      exact .inl hheld
    · exact .inr ⟨d, hd, rfl⟩

lemma describeDevice_live (kinds : Kinds κ σ) {home : Home κ σ} (h : Tied home) {p : ProtocolId}
    {said : DeviceDescription} (hheld : home.isHeld p (deviceIdFor p said.uniqueId) = false)
    (hfound : home.found[deviceIdFor p said.uniqueId]? = none) :
    ∃ (result : Except Rejected (List (Event κ σ))) (next : Home κ σ),
      home.describeDevice kinds p said = some (result, next) ∧ Tied next ∧
        Registers home next := by
  have hrefl : Registers home home := ⟨.refl home, rfl, rfl, rfl, fun _ => Iff.rfl⟩
  have hcontains : home.found.contains (deviceIdFor p said.uniqueId) = false := by
    rw [Std.ExtTreeMap.contains_eq_isSome_getElem?, hfound]
    rfl
  unfold Home.describeDevice
  split
  · exact ⟨_, home, rfl, h, hrefl⟩
  · simp only [hheld, hcontains, Bool.or_self, Bool.false_eq_true, if_false]
    split
    · exact ⟨_, home, rfl, h, hrefl⟩
    · next via hvia =>
      have hvias := viaFor_ok h hvia
      split
      · next D hD =>
        obtain ⟨before, hbefore, hkey⟩ := h.devices.row hD
        have huid : said.uniqueId = before.uniqueId := (congrArg Key.uniqueId hkey).symm
        exact updateDevice_tied kinds h hbefore huid hvias
      · next hkey =>
        obtain ⟨htied, hregisters⟩ := addDevice_tied kinds h hheld hfound hkey hvias
        exact ⟨_, _, rfl, htied, hregisters⟩

/-- What a described entity does to the rest of the home: at most it is one more. -/
structure Joins (home next : Home κ σ) : Prop where
  settings : next.settings = home.settings
  devices : next.devices = home.devices
  found : next.found = home.found
  foundEntities : next.foundEntities = home.foundEntities
  room : next.entities.size ≤ home.entities.size + 1

lemma Joins.refl (home : Home κ σ) : Joins home home := ⟨rfl, rfl, rfl, rfl, Nat.le_succ _⟩

lemma Joins.restated {home next next' : Home κ σ} (h : Joins home next) (hnext : Restated next next') :
    Joins home next' := by
  obtain ⟨s, m, k, x, rfl, -⟩ := hnext
  exact ⟨h.settings, h.devices, h.found, h.foundEntities, h.room⟩

section Describing

variable {home : Home κ σ} {said : EntityDescription κ}

lemma describedNames (home : Home κ σ) (E : EntityId) {device : Option DeviceId}
    (hvalid : said.name = none → device ≠ none) :
    ((home.renamed E said.name)[E]? = none → device ≠ none) ∧
      ∀ X : EntityId, E ≠ X → (home.renamed E said.name)[X]? = none →
        home.reportedEntityNames[X]? = none := by
  unfold Home.renamed
  split
  · refine ⟨fun hnone => ?_, fun X hne hnone => ?_⟩
    · simp at hnone
    · rwa [Map.get_insert, if_neg hne] at hnone
  · next hname =>
    refine ⟨fun _ => hvalid hname, fun X hne hnone => ?_⟩
    rwa [Map.get_erase, if_neg hne] at hnone

lemma objectIdBase_slug {device : Option Device} (hvalid : said.name = none → device ≠ none) :
    (∃ name : Name, Home.otherwiseNamed said device = some name) ∧
      ∃ base : String, Home.objectIdBase said device = some base ∧ SlugBase base := by
  unfold Home.otherwiseNamed Home.objectIdBase
  cases hname : said.name with
  | some name =>
    refine ⟨⟨name, rfl⟩, ?_⟩
    cases said.suggestedObjectId with
    | some objectId => exact ⟨_, rfl, slugBase_slug objectId⟩
    | none =>
      cases device with
      | some device => exact ⟨_, rfl, slugBase_slugify _⟩
      | none => exact ⟨_, rfl, slugBase_slugify _⟩
  | none =>
    obtain ⟨device, rfl⟩ := Option.ne_none_iff_exists'.mp (hvalid hname)
    refine ⟨⟨device.name, rfl⟩, ?_⟩
    cases said.suggestedObjectId with
    | some objectId => exact ⟨_, rfl, slugBase_slug objectId⟩
    | none => exact ⟨_, rfl, slugBase_slug device.id⟩

variable (kinds : Kinds κ σ) {p : ProtocolId} (listed : List EntityKind) (stamp : Stamp)

variable {kinds listed stamp} in
lemma addEntity_id {device : Option Device} {next : Home κ σ}
    {result : Except Rejected (List (Event κ σ))}
    (hrun : home.addEntity kinds p listed said device stamp = some (result, next)) :
    ∃ (otherwise : Name) (base : String) (E : EntityId),
      Home.otherwiseNamed said device = some otherwise ∧
        Home.objectIdBase said device = some base ∧
        home.newEntityId (said.kind kinds) base = some E ∧ home.entities[E]? = none := by
  unfold Home.addEntity at hrun
  split at hrun
  · next otherwise base hotherwise hbase =>
    split at hrun
    · cases hrun
    · next E hE =>
      have hvalid : said.name = none → device ≠ none := by
        rintro hname rfl
        rw [Home.otherwiseNamed, hname] at hotherwise
        cases hotherwise
      obtain ⟨-, base', hbase', hslug⟩ := objectIdBase_slug hvalid
      rw [hbase, Option.some.injEq] at hbase'
      exact ⟨otherwise, base, E, hotherwise, hbase, hE, newEntityId_fresh (hbase' ▸ hslug) hE⟩
  · cases hrun

lemma addEntity_tied (h : Tied home) (hroom : home.entities.size < idNumbers)
    (hkey : home.entityKeys[(⟨p, said.uniqueId⟩ : Key)]? = none)
    (hfound : home.foundEntities[(⟨p, said.uniqueId⟩ : Key)]? = none)
    {device : Option Device} (hvalid : said.name = none → device ≠ none)
    (hdevice : ∀ d : Device, device = some d → home.devices[d.id]? = some d ∧ d.protocol = p)
    (hsaid : device.map Device.id = said.deviceUniqueId.map (deviceIdFor p)) :
    ∃ (result : Except Rejected (List (Event κ σ))) (next : Home κ σ),
      home.addEntity kinds p listed said device stamp = some (result, next) ∧ Tied next ∧
        Joins home next := by
  obtain ⟨⟨otherwise, hotherwise⟩, base, hbase, hslug⟩ := objectIdBase_slug hvalid
  obtain ⟨E, hE⟩ := newEntityId_isSome home (said.kind kinds) hslug hroom
  have hfresh := newEntityId_fresh hslug hE
  unfold Home.addEntity
  simp only [hotherwise, hbase, hE]
  generalize hentity : (Entity.mk E p said.uniqueId _ (device.map Device.id) none said.capabilities
    said.entityCategory : Entity κ) = entity
  have hentityKey : entity.key = ⟨p, said.uniqueId⟩ := by rw [← hentity]; rfl
  have hentityDevice : entity.deviceId = device.map Device.id := by rw [← hentity]
  have hentityProtocol : entity.protocol = p := by rw [← hentity]
  refine ⟨_, _, rfl, ?_, rfl, rfl, rfl, rfl, Std.ExtTreeMap.size_insert_le⟩
  rw [← hentityKey]
  refine h.addEntity hfresh (by rw [hentityKey]; exact hkey)
    (by rw [hentityKey]; exact hfound) (by rw [← hentity]) ?_ listed (by rw [← hentity])
    (by rw [hentityDevice, hentityProtocol]; exact hsaid) ?_ ?_ _
  · intro D hD
    rw [hentityDevice] at hD
    obtain ⟨d, hd, rfl⟩ := Option.map_eq_some_iff.mp hD
    obtain ⟨hget, hdp⟩ := hdevice d hd
    exact ⟨d, hget, hdp.trans hentityProtocol.symm⟩
  · intro hnone
    rw [hentityDevice]
    split at hnone
    · simp at hnone
    · next hname => simpa using hvalid hname
  · intro X hne hnone
    split at hnone
    · rwa [Map.get_insert, if_neg hne] at hnone
    · exact hnone

variable [DecidableEq κ]

lemma updateEntity_tied (h : Tied home) {E : EntityId} {before : Entity κ}
    (hE : home.entities[E]? = some before) (hkey : before.key = ⟨p, said.uniqueId⟩)
    {device : Option DeviceId} (hvalid : said.name = none → device ≠ none)
    (hdevice : ∀ D : DeviceId, device = some D →
      ∃ d : Device, home.devices[D]? = some d ∧ d.protocol = p)
    (hsaid : device = said.deviceUniqueId.map (deviceIdFor p)) :
    ∃ (result : Except Rejected (List (Event κ σ))) (next : Home κ σ),
      home.updateEntity kinds p listed said device stamp E = some (result, next) ∧ Tied next ∧
        Joins home next := by
  have hprotocol : before.protocol = p := congrArg Key.protocol hkey
  have huid : said.uniqueId = before.uniqueId := congrArg Key.uniqueId hkey.symm
  unfold Home.updateEntity
  simp only [hE]
  split
  · exact ⟨_, home, rfl, h, .refl home⟩
  · obtain ⟨hnamed, hnames⟩ := describedNames home E hvalid
    generalize home.renamed E said.name = names at hnamed hnames ⊢
    obtain ⟨name, hname⟩ := nameForEntity_isSome
      { home with
        reportedEntityNames := names
        entityDescriptions := home.entityDescriptions.insert E (listed, said) }
      E hnamed fun X hX => by
        obtain ⟨d, hd, -⟩ := hdevice X hX
        exact ⟨d, hd⟩
    have hstate : ∃ old : Core.EntityState σ, home.states[E]? = some old := by
      refine Option.ne_none_iff_exists'.mp ?_
      rw [ne_eq, h.states, hE]
      simp
    obtain ⟨old, hold⟩ := hstate
    simp only [hname, hold]
    generalize hentity : ({ before with
        name, capabilities := said.capabilities, entityCategory := said.entityCategory
        deviceId := device } : Entity κ) = entity
    have htied := @Tied.updateEntity _ _ _ _ _ entity h hE (by rw [← hentity])
      (by rw [← hentity]; rfl)
      (fun D hD => by
        rw [← hentity] at hD ⊢
        obtain ⟨d, hd, hdp⟩ := hdevice D hD
        exact ⟨d, hd, hdp.trans hprotocol.symm⟩)
      listed said (by rw [← hentity]; exact huid)
      (by rw [← hentity]; simp only [hprotocol]; exact hsaid)
      names (fun hnone => by rw [← hentity]; exact hnamed hnone) hnames
    generalize hstart : ({ home with
      reportedEntityNames := names
      entityDescriptions := home.entityDescriptions.insert E (listed, said)
      entities := home.entities.insert E entity } : Home κ σ) = start at htied
    have hjoins : Joins home start := by
      rw [← hstart]
      exact ⟨rfl, rfl, rfl, rfl, Std.ExtTreeMap.size_insert_le⟩
    have hstartState : start.states[E]? = some old := by
      rw [← hstart]
      exact hold
    have hmisfit := forgetMisfit_restated start kinds said.capabilities hstartState stamp
    have havailable := setAvailabilityOf_restated
      (start.forgetMisfit kinds E said.capabilities old stamp).2 [E] .available stamp.now
      (deviceContext p stamp none) .yes
    have hrestated := hmisfit.trans havailable
    exact ⟨_, _, rfl, htied.alike hrestated.alike, hjoins.restated hrestated⟩

lemma describeEntity_live (h : Tied home) (hroom : home.entities.size < idNumbers)
    (hfound : ∀ u : UniqueId, said.deviceUniqueId = some u → home.found[deviceIdFor p u]? = none)
    (hkey : home.foundEntities[(⟨p, said.uniqueId⟩ : Key)]? = none) :
    ∃ (result : Except Rejected (List (Event κ σ))) (next : Home κ σ),
      home.describeEntity kinds p listed said stamp = some (result, next) ∧ Tied next ∧
        Joins home next := by
  have hlive : ∀ device : Option Device, (said.name = none → device ≠ none) →
      (∀ d : Device, device = some d → home.devices[d.id]? = some d ∧ d.protocol = p) →
      device.map Device.id = said.deviceUniqueId.map (deviceIdFor p) →
      ∃ (result : Except Rejected (List (Event κ σ))) (next : Home κ σ),
        home.describeLive kinds p listed said stamp device = some (result, next) ∧ Tied next ∧
          Joins home next := by
    intro device hvalid hdevice hsaid
    unfold Home.describeLive
    split
    · next E hE =>
      obtain ⟨before, hbefore, hk⟩ := h.entities.row hE
      refine updateEntity_tied kinds listed stamp h hbefore hk (by simpa using hvalid) ?_ hsaid
      intro D hD
      obtain ⟨d, hd, rfl⟩ := Option.map_eq_some_iff.mp hD
      exact ⟨d, hdevice d hd⟩
    · next hk => exact addEntity_tied kinds listed stamp h hroom hk hkey hvalid hdevice hsaid
  unfold Home.describeEntity
  split
  · exact ⟨_, home, rfl, h, .refl home⟩
  · next hvalidate =>
    have hvalid : said.name = none → said.deviceUniqueId ≠ none := by
      intro hname hdevice
      unfold EntityDescription.validate at hvalidate
      simp [hname, hdevice] at hvalidate
    dsimp only
    split
    · exact ⟨_, home, rfl, h, .refl home⟩
    · split
      · next hnone =>
        refine hlive none (fun hname => absurd hnone (hvalid hname)) (by simp) (by rw [hnone]; rfl)
      · next u hu =>
        rw [hfound u hu]
        dsimp only
        split
        · exact ⟨_, home, rfl, h, .refl home⟩
        · next D hD =>
          obtain ⟨d, hd, hdk⟩ := h.devices.row hD
          rw [hd]
          obtain ⟨hid, hfor⟩ := h.deviceId D d hd
          have hprotocol : d.protocol = p := congrArg Key.protocol hdk
          have huid : d.uniqueId = u := congrArg Key.uniqueId hdk
          refine hlive (some d) (by simp) ?_ ?_
          · intro d' hd'
            obtain rfl := Option.some.inj hd'
            rw [hid]
            exact ⟨hd, hprotocol⟩
          · rw [hu, Option.map_some, Option.map_some, hid, ← hprotocol, ← huid, hfor]

end Describing

end Irori.Proofs
