import Irori.Proofs.Removals
import Irori.Home.Sample

/-!
# Referential integrity

Devices that are added, settings that are applied, and every other operation keep a home whole as
long as nothing described is in two worlds at once.
-/

namespace Irori.Proofs
open Irori Irori.Core

variable {κ σ : Type}

lemma size_congr {α β γ : Type} [LinearOrder α] {m : Map α β} {m' : Map α γ}
    (h : ∀ k : α, m'[k]? = none ↔ m[k]? = none) : m'.size = m.size := by
  have hsize : ∀ {δ : Type} (m : Map α δ), m.size = Map.total (fun _ => 1) m := by
    intro δ m
    simp [Map.total, Std.ExtTreeMap.length_toList]
  rw [hsize, hsize]
  refine Map.total_congr fun k => ?_
  have hk := h k
  cases hm : m[k]? <;> cases hm' : m'[k]? <;> simp_all

lemma mass_alike {a b : Home κ σ} (h : Alike a b) : mass b = mass a := by
  have htotal : Map.total (fun f : Found κ σ => f.entities.size) b.found =
      Map.total (fun f : Found κ σ => f.entities.size) a.found := by
    refine Map.total_congr fun D => ?_
    have htie := congrArg (Option.map fun tie => tie.2.2.size) (h.found D)
    rwa [Option.map_map, Option.map_map] at htie
  rw [mass, mass, size_congr h.entity_none, htotal]

section Admitting

variable [DecidableEq κ] [DecidableEq σ] (kinds : Kinds κ σ) {home : Home κ σ} (stamp : Stamp)

def FoundLess (home next : Home κ σ) : Prop :=
  ∀ (X : DeviceId) (g : Found κ σ), next.found[X]? = some g →
    ∃ g' : Found κ σ, home.found[X]? = some g' ∧ g'.protocol = g.protocol

omit [DecidableEq κ] [DecidableEq σ] in
lemma FoundLess.trans {a b c : Home κ σ} (hab : FoundLess a b) (hbc : FoundLess b c) :
    FoundLess a c := by
  intro X g hg
  obtain ⟨g', hg', hprotocol⟩ := hbc X g hg
  obtain ⟨g'', hg'', hprotocol'⟩ := hab X g' hg'
  exact ⟨g'', hg'', hprotocol'.trans hprotocol⟩

omit [DecidableEq κ] [DecidableEq σ] in
lemma FoundLess.of_eq {a b : Home κ σ} (h : b.found = a.found) : FoundLess a b :=
  fun X g hg => ⟨g, by rwa [h] at hg, rfl⟩

omit [DecidableEq κ] [DecidableEq σ] in
lemma FoundLess.of_alike {a b : Home κ σ} (h : Alike a b) : FoundLess a b := by
  intro X g hg
  obtain ⟨g', hg', hprotocol, -⟩ := h.found_of hg
  exact ⟨g', hg', hprotocol⟩

omit [DecidableEq κ] [DecidableEq σ] in
lemma quiet_some {outcome : Outcome κ σ} {result : Except Rejected (List (Event κ σ))}
    {next : Home κ σ} (h : outcome = some (result, next)) :
    outcome.quiet = some (result.toOption.getD [], next) := by
  rw [h]
  rfl

omit [DecidableEq σ] in
lemma admitEntities_tied (h : Tied home) {p : ProtocolId}
    {es : List (List EntityKind × EntityDescription κ)} (P : Home κ σ → Prop)
    (hstep : ∀ x ∈ es, ∀ (home next : Home κ σ) (result : Except Rejected (List (Event κ σ))),
      Tied home →
      (∀ u : UniqueId, x.2.deviceUniqueId = some u → home.found[deviceIdFor p u]? = none) →
      home.foundEntities[(⟨p, x.2.uniqueId⟩ : Key)]? = none →
      home.describeEntity kinds p x.1 x.2 stamp = some (result, next) → P home → P next)
    (hP : P home) (hroom : home.entities.size + es.length ≤ idNumbers)
    (hfound : ∀ x ∈ es, ∀ u : UniqueId, x.2.deviceUniqueId = some u →
      home.found[deviceIdFor p u]? = none)
    (hkey : ∀ x ∈ es, home.foundEntities[(⟨p, x.2.uniqueId⟩ : Key)]? = none)
    (events : List (Event κ σ)) :
    ∃ (events' : List (Event κ σ)) (next : Home κ σ),
      sweep (fun (described : List EntityKind × EntityDescription κ) home =>
        (home.describeEntity kinds p described.1 described.2 stamp).quiet) es (events, home) =
          some (events', next) ∧ Tied next ∧ P next ∧ next.settings = home.settings ∧
        next.devices = home.devices ∧ next.found = home.found ∧
        next.entities.size ≤ home.entities.size + es.length := by
  induction es generalizing home events with
  | nil => exact ⟨events, home, rfl, h, hP, rfl, rfl, rfl, le_rfl⟩
  | cons x es ih =>
    rw [List.length_cons] at hroom
    obtain ⟨result, mid, hmid, htied, hjoins⟩ := describeEntity_live kinds x.1 stamp h (by omega)
      (hfound x List.mem_cons_self) (hkey x List.mem_cons_self)
    have hsize := hjoins.room
    have hP' := hstep x List.mem_cons_self home mid result h (hfound x List.mem_cons_self)
      (hkey x List.mem_cons_self) hmid hP
    obtain ⟨events', next, hnext, htied', hPnext, hsettings, hdevices, hfound', hroom'⟩ :=
      ih htied (fun y hy => hstep y (List.mem_cons_of_mem _ hy)) hP' (by omega)
        (fun y hy u hu => by rw [hjoins.found]; exact hfound y (List.mem_cons_of_mem _ hy) u hu)
        (fun y hy => by rw [hjoins.foundEntities]; exact hkey y (List.mem_cons_of_mem _ hy))
        (events ++ result.toOption.getD [])
    refine ⟨events', next, ?_, htied', hPnext, hsettings.trans hjoins.settings,
      hdevices.trans hjoins.devices, hfound'.trans hjoins.found, ?_⟩
    · rw [sweep, quiet_some hmid]
      exact hnext
    · rw [List.length_cons]
      omega

omit [DecidableEq κ] [DecidableEq σ] in
lemma length_vals {α β : Type} [LinearOrder α] (m : Map α β) : (Map.vals m).length = m.size := by
  rw [Map.vals, List.length_map, Std.ExtTreeMap.length_toList]

/-- What holds once a found device is in the home: each thing it's described by keeps it, and so
does what says nothing. -/
structure Admits (P : Home κ σ → Prop) (home : Home κ σ) (D : DeviceId) : Prop where
  none : home.found[D]? = none → P home
  device : ∀ (f : Found κ σ) (result : Except Rejected (List (Event κ σ))) (next : Home κ σ),
    home.found[D]? = some f → Tied (home.dropFound f.protocol D f) →
    (home.dropFound f.protocol D f).describeDevice kinds f.protocol f.description =
      some (result, next) → P next
  entity : ∀ (f : Found κ σ) (x : List EntityKind × EntityDescription κ) (home' next : Home κ σ)
    (result : Except Rejected (List (Event κ σ))), home.found[D]? = some f →
    x ∈ Map.vals f.entities → Tied home' →
    (∀ u : UniqueId, x.2.deviceUniqueId = some u →
      home'.found[deviceIdFor f.protocol u]? = Option.none) →
    home'.foundEntities[(⟨f.protocol, x.2.uniqueId⟩ : Key)]? = Option.none →
    home'.describeEntity kinds f.protocol x.1 x.2 stamp = some (result, next) → P home' → P next
  unsaid : ∀ home' next : Home κ σ, Unsaid home' next → P home' → P next

omit [DecidableEq σ] in
lemma admits_true (home : Home κ σ) (D : DeviceId) :
    Admits kinds stamp (fun _ => True) home D := by
  constructor <;> intros <;> trivial

lemma admitDevice_tied (h : Tied home) (hroom : mass home ≤ idNumbers) {D : DeviceId}
    (hheld : ∀ f : Found κ σ, home.found[D]? = some f → home.isHeld f.protocol D = false)
    {P : Home κ σ → Prop} (hadmits : Admits kinds stamp P home D) :
    ∃ (events : List (Event κ σ)) (next : Home κ σ),
      home.admitDevice kinds D stamp = some (events, next) ∧ Tied next ∧ P next ∧
        Leads home next ∧ FoundLess home next ∧ mass next ≤ mass home := by
  unfold Home.admitDevice
  cases hf : home.found[D]? with
  | none => exact ⟨[], home, rfl, h, hadmits.none hf, .refl home, .of_eq rfl, le_rfl⟩
  | some f =>
    dsimp only
    obtain ⟨hid, -⟩ := h.foundId D f hf
    have hstart := h.dropFound hf
    have hdevice := hadmits.device f
    have hentity := hadmits.entity f
    have hless : FoundLess home (home.dropFound f.protocol D f) :=
      fun X g hg => ⟨g, (Map.get_erase_some hg).2, rfl⟩
    have hnone : (home.dropFound f.protocol D f).found[D]? = none :=
      (Map.get_erase _ _ _).trans (if_pos rfl)
    have hmass : mass (home.dropFound f.protocol D f) + f.entities.size = mass home := by
      have htotal := Map.total_erase (fun f : Found κ σ => f.entities.size) home.found D
      rw [hf] at htotal
      simp only [Option.map_some, Option.getD_some] at htotal
      simp only [mass, Home.dropFound]
      omega
    have hkeys : ∀ x ∈ Map.vals f.entities,
        (home.dropFound f.protocol D f).foundEntities[(⟨f.protocol, x.2.uniqueId⟩ : Key)]? = none ∧
          x.2.deviceUniqueId.map (deviceIdFor f.protocol) = some D := by
      intro x hx
      obtain ⟨u, hu⟩ := Map.mem_vals.mp hx
      obtain ⟨-, huid, hdevice⟩ := h.foundSaid D f u x.1 x.2 hf hu
      refine ⟨(get_foldl_erase _ _ _ _).trans (if_pos ⟨rfl, ?_⟩), hdevice⟩
      rw [huid, Std.ExtTreeMap.mem_keys, Std.ExtTreeMap.mem_iff_isSome_getElem?, hu]
      rfl
    have hstartLeads : Leads home (home.dropFound f.protocol D f) := .of_devices rfl rfl
    generalize home.dropFound f.protocol D f = start at *
    -- The device itself.
    obtain ⟨result, described, hdescribed, htied, hregisters⟩ :=
      describeDevice_live kinds hstart
        (by rw [hid, Leads.isHeld_eq hstartLeads.settings]; exact hheld f hf) (by rw [hid]; exact hnone)
    rw [quiet_some hdescribed, Option.bind_some]
    have hP := hdevice result described hf hstart hdescribed
    have hmass' : mass described = mass start := by
      rw [mass, mass, hregisters.found, size_congr hregisters.entities]
    -- Its entities.
    have hentities : described.entities.size + (Map.vals f.entities).length ≤ idNumbers := by
      have hle : described.entities.size ≤ mass described := Nat.le_add_right _ _
      rw [length_vals]
      omega
    obtain ⟨events, entered, hentered, htied', hP, hsettings, hdevices, hfound, hsize⟩ :=
      admitEntities_tied kinds stamp htied P
        (fun x hx home' next result => hentity x home' next result hf hx) hP hentities
        (fun x hx u hu => by
          have hdevice := (hkeys x hx).2
          rw [hu, Option.map_some, Option.some.injEq] at hdevice
          rw [hdevice, hregisters.found]
          exact hnone)
        (fun x hx => by rw [hregisters.foundEntities]; exact (hkeys x hx).1)
        (result.toOption.getD [])
    rw [hentered, Option.bind_some]
    have henteredLeads : Leads home entered :=
      (hstartLeads.trans hregisters.leads).trans (.of_devices hsettings hdevices)
    have henteredLess : FoundLess home entered :=
      (hless.trans (.of_eq hregisters.found)).trans (.of_eq hfound)
    have henteredMass : mass entered ≤ mass home := by
      rw [length_vals] at hsize
      have hdescribedMass : described.entities.size +
          Map.total (fun f : Found κ σ => f.entities.size) described.found = mass described := rfl
      rw [mass, hfound]
      omega
    -- What they last said.
    obtain ⟨events, reported, hreported, htied'', halike⟩ := sweep_keeps
      (fun (report : StateReport σ) home =>
        (home.reportState kinds f.protocol { report with replayed := true } stamp).quiet)
      (Map.vals f.reports) (fun home => (Tied home ∧ P home) ∧ Alike entered home)
      (fun report _ home hP => by
        obtain ⟨result, next, hnext, hstep⟩ := reportState_unsaid kinds hP.1.1 f.protocol
          { report with replayed := true } stamp
        exact ⟨_, next, quiet_some hnext,
          ⟨hP.1.1.alike hstep.alike, hadmits.unsaid home next hstep hP.1.2⟩,
          hP.2.trans hstep.alike⟩)
      events ⟨⟨htied', hP⟩, Alike.refl entered⟩
    rw [hreported, Option.map_some]
    have hdone : ∀ next : Home κ σ, Unsaid reported next → Tied next ∧ P next ∧
        Leads home next ∧ FoundLess home next ∧ mass next ≤ mass home := by
      intro next hnext
      have hall := halike.trans hnext.alike
      exact ⟨htied''.1.alike hnext.alike, hadmits.unsaid reported next hnext htied''.2,
        henteredLeads.trans (.of_alike hall),
        henteredLess.trans (.of_alike hall), (mass_alike hall).trans_le henteredMass⟩
    split
    · exact ⟨_, _, rfl, hdone reported (Unsaid.refl reported)⟩
    · exact ⟨_, _, rfl, hdone _ (setAvailability_unsaid reported _ _ _ _)⟩

end Admitting

/-- No device is in the home that the settings keep out. -/
def Settled (home : Home κ σ) : Prop :=
  ∀ (D : DeviceId) (d : Device), home.devices[D]? = some d → home.isHeld d.protocol D = false

lemma Settled.leads {home next : Home κ σ} (h : Settled home) (hnext : Leads home next) :
    Settled next := by
  intro D d hd
  rw [Leads.isHeld_eq hnext.settings]
  rcases hnext.live D d hd with hheld | ⟨d', hd', hprotocol⟩
  · exact hheld
  · rw [← hprotocol]
    exact h D d' hd'

lemma sweep_each {α : Type} (step : α → Home κ σ → Option (Changes κ σ)) (as : List α)
    (P : Home κ σ → Prop) (Q : α → Home κ σ → Prop)
    (hstep : ∀ a ∈ as, ∀ home : Home κ σ, P home →
      ∃ (events : List (Event κ σ)) (next : Home κ σ), step a home = some (events, next) ∧
        P next ∧ Q a next ∧ ∀ b ∈ as, Q b home → Q b next)
    (events : List (Event κ σ)) {home : Home κ σ} (h : P home) :
    ∃ (events' : List (Event κ σ)) (next : Home κ σ),
      sweep step as (events, home) = some (events', next) ∧ P next ∧ ∀ a ∈ as, Q a next := by
  suffices hsuffix : ∀ (bs : List α), (∀ b ∈ bs, b ∈ as) → ∀ (events : List (Event κ σ))
      (home : Home κ σ), P home → ∃ (events' : List (Event κ σ)) (next : Home κ σ),
        sweep step bs (events, home) = some (events', next) ∧ P next ∧
          (∀ a ∈ bs, Q a next) ∧ ∀ a ∈ as, Q a home → Q a next by
    obtain ⟨events', next, hsweep, hP, hQ, -⟩ := hsuffix as (fun _ hb => hb) events home h
    exact ⟨events', next, hsweep, hP, hQ⟩
  intro bs
  induction bs with
  | nil => exact fun _ events home h => ⟨events, home, rfl, h, by simp, fun _ _ hq => hq⟩
  | cons b bs ih =>
    intro hsub events home h
    obtain ⟨more, mid, hmid, hP, hQ, hkeep⟩ := hstep b (hsub b List.mem_cons_self) home h
    obtain ⟨events', next, hnext, hP', hQ', hkeep'⟩ :=
      ih (fun c hc => hsub c (List.mem_cons_of_mem _ hc)) (events ++ more) mid hP
    refine ⟨events', next, ?_, hP', fun a ha => ?_, fun a ha hq => hkeep' a ha (hkeep a ha hq)⟩
    · rw [sweep, hmid]
      exact hnext
    · rcases List.mem_cons.mp ha with rfl | ha
      · exact hkeep' a (hsub a List.mem_cons_self) hQ
      · exact hQ' a ha

lemma refreshDevice_alike (kinds : Kinds κ σ) {home : Home κ σ} (h : Tied home) {D : DeviceId}
    {d : Device} (hD : home.devices[D]? = some d) :
    ∃ (events : List (Event κ σ)) (next : Home κ σ),
      home.refreshDevice kinds D = some (events, next) ∧ Alike home next := by
  obtain ⟨name, hname⟩ := h.deviceNamed D d hD
  unfold Home.refreshDevice
  simp only [hname, hD]
  split
  · exact ⟨_, home, rfl, .refl home⟩
  · refine ⟨_, _, rfl, { Alike.refl home with devices := fun X => ?_ }⟩
    rw [Map.get_insert]
    split
    · next heq => rw [← heq, hD]; rfl
    · rfl

section Settings

variable [DecidableEq κ] [DecidableEq σ] (kinds : Kinds κ σ) {home : Home κ σ}

omit [DecidableEq κ] [DecidableEq σ] in
lemma holdAll_tied (h : Tied home) {P : Home κ σ → Prop}
    (hhold : ∀ (home : Home κ σ) (D : DeviceId), Tied home → P home → P (home.hold D).2)
    (hP : P home) :
    ∃ (events : List (Event κ σ)) (next : Home κ σ),
      sweep (fun id home => some (Home.hold home id)) home.nowHeld ([], home) =
          some (events, next) ∧
        Tied next ∧ P next ∧ Leads home next ∧ mass next ≤ mass home ∧ Settled next := by
  obtain ⟨events, next, hsweep, ⟨htied, hP, hleads, hmass⟩, hgone⟩ := sweep_each
    (fun id home => some (Home.hold home id)) home.nowHeld
    (fun next => Tied next ∧ P next ∧ Leads home next ∧ mass next ≤ mass home)
    (fun D next => ∀ d : Device, next.devices[D]? = some d → home.isHeld d.protocol D = false)
    (fun D _ next hnext => by
      obtain ⟨htied, hP, hleads, hmass⟩ := hnext
      obtain ⟨htied', hleads', hnone, hmass'⟩ := hold_tied htied D
      refine ⟨(next.hold D).1, (next.hold D).2, rfl,
        ⟨htied', hhold next D htied hP, hleads.trans hleads', hmass'.trans hmass⟩, fun d hd => ?_,
        fun X _ hX d hd => ?_⟩
      · rw [hnone] at hd
        cases hd
      · rcases hleads'.live X d hd with hheld | ⟨d', hd', hprotocol⟩
        · rwa [Leads.isHeld_eq hleads.settings] at hheld
        · rw [← hprotocol]
          exact hX d' hd')
    [] ⟨h, hP, .refl home, le_rfl⟩
  refine ⟨events, next, hsweep, htied, hP, hleads, hmass, fun D d hd => ?_⟩
  rw [Leads.isHeld_eq hleads.settings]
  rcases hleads.live D d hd with hheld | ⟨d', hd', hprotocol⟩
  · exact hheld
  · rw [← hprotocol]
    cases hheld : home.isHeld d'.protocol D with
    | false => rfl
    | true =>
      -- It was to be held, and so it was.
      have hmem : D ∈ home.nowHeld := by
        refine List.mem_map.mpr ⟨(D, d'), List.mem_filter.mpr ⟨?_, hheld⟩, rfl⟩
        exact Std.ExtTreeMap.mem_toList_iff_getElem?_eq_some.mpr hd'
      have hfalse := hgone D hmem d hd
      rw [← hprotocol, hheld] at hfalse
      cases hfalse

lemma admitAll_tied (stamp : Stamp) (h : Tied home) (hroom : mass home ≤ idNumbers)
    {P : Home κ σ → Prop}
    (hadmits : ∀ (home : Home κ σ) (D : DeviceId), Tied home → P home →
      Admits kinds stamp P home D)
    (hP : P home) (events : List (Event κ σ)) :
    ∃ (events' : List (Event κ σ)) (next : Home κ σ),
      sweep (fun id home => home.admitDevice kinds id stamp) home.nowAdded (events, home) =
          some (events', next) ∧ Tied next ∧ P next ∧ Leads home next := by
  obtain ⟨events', next, hsweep, htied, hP, hleads, -⟩ := sweep_keeps
    (fun id home => home.admitDevice kinds id stamp) home.nowAdded
    (fun next => Tied next ∧ P next ∧ Leads home next ∧ FoundLess home next ∧
      mass next ≤ mass home)
    (fun D hD next hnext => by
      obtain ⟨htied, hP, hleads, hless, hmass⟩ := hnext
      obtain ⟨⟨D', f⟩, hf, rfl⟩ := List.mem_map.mp hD
      obtain ⟨hf, hheld⟩ := List.mem_filter.mp hf
      have hf' := Std.ExtTreeMap.mem_toList_iff_getElem?_eq_some.mp hf
      obtain ⟨events, next', hnext, htied', hP', hleads', hless', hmass'⟩ :=
        admitDevice_tied kinds stamp htied (hmass.trans hroom)
          (fun g hg => by
            obtain ⟨g', hg', hprotocol⟩ := hless D' g hg
            rw [hf', Option.some.injEq] at hg'
            rw [Leads.isHeld_eq hleads.settings, ← hprotocol, ← hg']
            simpa using hheld)
          (hadmits next D' htied hP)
      exact ⟨events, next', hnext, htied', hP', hleads.trans hleads', hless.trans hless',
        hmass'.trans hmass⟩)
    events ⟨h, hP, .refl home, .of_eq rfl, le_rfl⟩
  exact ⟨events', next, hsweep, htied, hP, hleads⟩

omit [DecidableEq κ] [DecidableEq σ] in
lemma refreshDevices_tied (h : Tied home) (events : List (Event κ σ)) :
    ∃ (events' : List (Event κ σ)) (next : Home κ σ),
      sweep (fun id home => home.refreshDevice kinds id) home.devices.keys (events, home) =
          some (events', next) ∧ Tied next ∧ Alike home next := by
  obtain ⟨events', next, hsweep, hP⟩ := sweep_keeps
    (fun id home => home.refreshDevice kinds id) home.devices.keys
    (fun next => Tied next ∧ Alike home next)
    (fun D hD next hP => by
      rw [Std.ExtTreeMap.mem_keys, Std.ExtTreeMap.mem_iff_isSome_getElem?] at hD
      obtain ⟨d, hd⟩ := Option.isSome_iff_exists.mp hD
      obtain ⟨d', hd', -⟩ := hP.2.device' hd
      obtain ⟨events, next', hnext, halike⟩ := refreshDevice_alike kinds hP.1 hd'
      exact ⟨events, next', hnext, hP.1.alike halike, hP.2.trans halike⟩)
    events ⟨h, Alike.refl home⟩
  exact ⟨events', next, hsweep, hP⟩

omit [DecidableEq κ] [DecidableEq σ] in
lemma refreshEntities_tied (h : Tied home) (events : List (Event κ σ)) :
    ∃ (events' : List (Event κ σ)) (next : Home κ σ),
      sweep (fun id home => home.refreshEntity id) home.entities.keys (events, home) =
          some (events', next) ∧ Tied next ∧ Alike home next := by
  obtain ⟨events', next, hsweep, hP⟩ := sweep_keeps
    (fun id home => home.refreshEntity id) home.entities.keys
    (fun next => Tied next ∧ Alike home next)
    (fun E hE next hP => by
      rw [Std.ExtTreeMap.mem_keys, Std.ExtTreeMap.mem_iff_isSome_getElem?] at hE
      have hne : next.entities[E]? ≠ none := by
        rw [ne_eq, hP.2.entity_none]
        exact Option.isSome_iff_ne_none.mp hE
      obtain ⟨e, he⟩ := Option.ne_none_iff_exists'.mp hne
      obtain ⟨events, next', hnext, hrenamed⟩ := renameEntity_renamed hP.1 he
      refine ⟨events, next', ?_, hP.1.alike hrenamed.alike, hP.2.trans hrenamed.alike⟩
      unfold Home.refreshEntity
      rw [he]
      exact hnext)
    events ⟨h, Alike.refl home⟩
  exact ⟨events', next, hsweep, hP⟩

lemma applySettings_tied (h : Tied home) (hsettled : Settled home) (hroom : mass home ≤ idNumbers)
    (settings : Settings) (stamp : Stamp) :
    ∃ (events : List (Event κ σ)) (next : Home κ σ),
      home.applySettings kinds settings stamp = some (events, next) ∧ Tied next ∧
        Settled next := by
  unfold Home.applySettings
  split
  · exact ⟨[], home, rfl, h, hsettled⟩
  · have hstart := h.settings settings
    have hmass : mass { home with settings } ≤ idNumbers := hroom
    generalize ({ home with settings } : Home κ σ) = start at hstart hmass
    obtain ⟨held, afterHeld, hheld, htied, -, -, hmass', hsettled⟩ :=
      holdAll_tied (P := fun _ => True) hstart (fun _ _ _ h => h) trivial
    obtain ⟨added, afterAdded, hadded, htied', -, hleads⟩ := admitAll_tied (P := fun _ => True)
      kinds stamp htied (hmass'.trans hmass) (fun home D _ _ => admits_true kinds stamp home D)
      trivial held
    obtain ⟨devices, afterDevices, hdevices, hrefreshed, halike⟩ :=
      refreshDevices_tied kinds htied' added
    obtain ⟨entities, next, hentities, hnext, halike'⟩ :=
      refreshEntities_tied hrefreshed devices
    simp only [hheld, Option.bind_some, hadded, hdevices, hentities, Option.map_some]
    exact ⟨_, next, rfl, hnext, ((hsettled.leads hleads).leads (.of_alike halike)).leads
      (.of_alike halike')⟩

end Settings

lemma removeEntity_leads (home : Home κ σ) (p : ProtocolId) (u : UniqueId) :
    Leads home (home.removeEntity p u).2 := by
  unfold Home.removeEntity
  dsimp only
  split
  · exact .of_devices rfl rfl
  · split
    · exact .refl home
    · exact .of_devices rfl rfl

lemma removeProtocol_tied {home : Home κ σ} (h : Tied home) (p : ProtocolId)
    {P : Home κ σ → Prop} (hstep : ∀ (home : Home κ σ) (u : UniqueId), Tied home → P home →
      P (home.removeDevice p u).2) (hP : P home) :
    Tied (home.removeProtocol p).2 ∧ P (home.removeProtocol p).2 ∧
      Leads home (home.removeProtocol p).2 := by
  have hfold : ∀ (us : List UniqueId) (changes : Changes κ σ),
      (∀ u ∈ us, OwnFound home p u) → Tied changes.2 ∧ P changes.2 ∧ Leads home changes.2 ∧
        (∀ (D : DeviceId) (f : Found κ σ), changes.2.found[D]? = some f →
          home.found[D]? = some f) →
      let next := (us.foldl (fun changes u =>
        (changes.1 ++ (changes.2.removeDevice p u).1.toOption.getD [],
          (changes.2.removeDevice p u).2)) changes).2
      Tied next ∧ P next ∧ Leads home next := by
    intro us
    induction us with
    | nil => exact fun changes _ hall => ⟨hall.1, hall.2.1, hall.2.2.1⟩
    | cons u us ih =>
      rintro ⟨events, mid⟩ hus ⟨htied, hP, hleads, hfound⟩
      obtain ⟨htied', hleads', hfound'⟩ := removeDevice_tied htied
        (p := p) (u := u) fun f hf => hus u List.mem_cons_self f (hfound _ f hf)
      exact ih _ (fun v hv => hus v (List.mem_cons_of_mem _ hv))
        ⟨htied', hstep mid u htied hP, hleads.trans hleads',
          fun D f hf => hfound D f (hfound' D f hf)⟩
  refine hfold _ ([], home) (fun u hu f hf => ?_) ⟨h, hP, .refl home, fun _ _ hf => hf⟩
  rcases List.mem_append.mp hu with hu | hu
  · obtain ⟨d, hd, rfl⟩ := List.mem_map.mp hu
    obtain ⟨hd, hprotocol⟩ := List.mem_filter.mp hd
    obtain ⟨D, hD⟩ := Map.mem_vals.mp hd
    have hid := (h.deviceId D d hD).2
    rw [beq_iff_eq] at hprotocol
    rw [← hprotocol, hid] at hf
    rw [(h.foundId D f hf).2] at hD
    cases hD
  · obtain ⟨g, hg, rfl⟩ := List.mem_map.mp hu
    obtain ⟨hg, hprotocol⟩ := List.mem_filter.mp hg
    obtain ⟨D, hD⟩ := Map.mem_vals.mp hg
    rw [beq_iff_eq] at hprotocol
    rw [← hprotocol, (h.foundId D g hD).1, hD, Option.some.injEq] at hf
    rw [← hf, hprotocol]

lemma forgetDevice_tied {home : Home κ σ} (h : Tied home) (D : DeviceId) :
    Tied (home.forgetDevice D).2 ∧ Leads home (home.forgetDevice D).2 := by
  unfold Home.forgetDevice
  split
  · obtain ⟨htied, hleads, -⟩ := hold_tied h D
    exact ⟨htied, hleads⟩
  · split <;> exact ⟨h, .refl home⟩

lemma keepFound_tied {home : Home κ σ} (h : Tied home) {p : ProtocolId}
    {said : DeviceDescription} (hown : OwnFound home p said.uniqueId)
    (hlive : home.found[deviceIdFor p said.uniqueId]? = none →
      home.devices[deviceIdFor p said.uniqueId]? = none) :
    Tied (home.keepFound p said).2 ∧ Leads home (home.keepFound p said).2 := by
  unfold Home.keepFound
  dsimp only
  split
  · next f hf =>
    exact ⟨h.describeFound hf (by rw [hown f hf]) rfl rfl, .of_devices rfl rfl⟩
  · next hf => exact ⟨h.newFound hf rfl (hlive hf) rfl, .of_devices rfl rfl⟩

/-- Whether a described entity stays in the world it is in: in the home, or with the found device it
was found with. -/
def StaysPut (home : Home κ σ) (p : ProtocolId) (said : EntityDescription κ) : Prop :=
  let key : Key := ⟨p, said.uniqueId⟩
  match said.deviceUniqueId.bind fun u => home.found[deviceIdFor p u]? with
  | some f => f.protocol = p ∧ home.entityKeys[key]? = none ∧
      ∀ D : DeviceId, home.foundEntities[key]? = some D →
        said.deviceUniqueId.map (deviceIdFor p) = some D
  | none => home.foundEntities[key]? = none

/-- What is asked of a home that keeps it whole. Nothing a protocol says is about a device another
protocol found under the same id, or has in the home while the settings keep this one out; a
described entity stays in the world it is in; and there are ids for every entity. -/
def InOneWorld (kinds : Kinds κ σ) (home : Home κ σ) : HomeOp κ σ → Prop
  | .describeDevice p said => said.validate = .ok () → OwnFound home p said.uniqueId ∧
      ∀ d : Device, home.devices[deviceIdFor p said.uniqueId]? = some d →
        home.isHeld p (deviceIdFor p said.uniqueId) = true → d.protocol = p
  | .describeEntity p listed said _ => said.validate kinds = .ok () →
      listed.contains (said.kind kinds) = true → StaysPut home p said ∧ mass home < idNumbers
  | .removeDevice p u => OwnFound home p u
  | .applySettings _ _ => mass home < idNumbers
  | _ => True

section Runs

variable [DecidableEq κ] [DecidableEq σ] (kinds : Kinds κ σ) {home : Home κ σ}

omit [DecidableEq κ] [DecidableEq σ] in
lemma describeDevice_tied (h : Tied home) (hsettled : Settled home) {p : ProtocolId}
    {said : DeviceDescription} (hworld : InOneWorld kinds home (.describeDevice p said)) :
    ∃ (result : Except Rejected (List (Event κ σ))) (next : Home κ σ),
      home.describeDevice kinds p said = some (result, next) ∧ Tied next ∧ Leads home next := by
  by_cases hin : (home.isHeld p (deviceIdFor p said.uniqueId) ||
      home.found.contains (deviceIdFor p said.uniqueId)) = true
  · unfold Home.describeDevice
    split
    · exact ⟨_, home, rfl, h, .refl home⟩
    · next hvalid =>
      obtain ⟨hown, hlive⟩ := hworld hvalid
      simp only [hin, if_true]
      refine ⟨_, _, rfl, keepFound_tied h hown fun hnone => ?_⟩
      -- A live device of this protocol isn't held.
      cases hd : home.devices[deviceIdFor p said.uniqueId]? with
      | none => rfl
      | some d =>
        have hheld : home.isHeld p (deviceIdFor p said.uniqueId) = true := by
          rw [Std.ExtTreeMap.contains_eq_isSome_getElem?, hnone] at hin
          simpa using hin
        have hfalse := hsettled _ d hd
        rw [hlive d hd hheld, hheld] at hfalse
        cases hfalse
  · simp only [Bool.or_eq_true, not_or, Bool.not_eq_true] at hin
    have hfound : home.found[deviceIdFor p said.uniqueId]? = none :=
      Std.ExtTreeMap.getElem?_eq_none_of_contains_eq_false hin.2
    obtain ⟨result, next, hnext, htied, hregisters⟩ := describeDevice_live kinds h hin.1 hfound
    exact ⟨result, next, hnext, htied, hregisters.leads⟩

omit [DecidableEq κ] [DecidableEq σ] in
lemma describeFound_tied (h : Tied home) {p : ProtocolId} {said : EntityDescription κ}
    {u : UniqueId} {f : Found κ σ} (hstays : StaysPut home p said)
    (hu : said.deviceUniqueId = some u) (hf : home.found[deviceIdFor p u]? = some f)
    (listed : List EntityKind) :
    Tied (home.keepFoundEntity p listed said (deviceIdFor p u) f) := by
  unfold StaysPut at hstays
  simp only [hu, Option.bind_some, hf] at hstays
  obtain ⟨rfl, hlive, hother⟩ := hstays
  refine h.keepFoundEntity hf listed hlive (fun V hV => ?_) (by rw [hu]; rfl)
  have hD := hother V hV
  rw [Option.map_some, Option.some.injEq] at hD
  exact hD.symm

omit [DecidableEq σ] in
lemma describeEntity_tied (h : Tied home) {p : ProtocolId} {said : EntityDescription κ}
    {listed : List EntityKind} {stamp : Stamp}
    (hworld : InOneWorld kinds home (.describeEntity p listed said stamp)) :
    ∃ (result : Except Rejected (List (Event κ σ))) (next : Home κ σ),
      home.describeEntity kinds p listed said stamp = some (result, next) ∧ Tied next ∧
        Leads home next := by
  by_cases hok : said.validate kinds = .ok () ∧ listed.contains (said.kind kinds) = true
  · obtain ⟨hstays, hroom⟩ := hworld hok.1 hok.2
    cases hfound : said.deviceUniqueId.bind fun u => home.found[deviceIdFor p u]? with
    | some f =>
      obtain ⟨u, hu, hf⟩ := Option.bind_eq_some_iff.mp hfound
      unfold Home.describeEntity
      simp only [hok.1, hok.2, hu, hf, Bool.not_true, Bool.false_eq_true, if_false]
      exact ⟨_, _, rfl, describeFound_tied h hstays hu hf listed, .of_devices rfl rfl⟩
    | none =>
      have hfree : ∀ u : UniqueId, said.deviceUniqueId = some u →
          home.found[deviceIdFor p u]? = none := by
        intro u hu
        rwa [hu, Option.bind_some] at hfound
      unfold StaysPut at hstays
      simp only [hfound] at hstays
      have hle : home.entities.size ≤ mass home := Nat.le_add_right _ _
      obtain ⟨result, next, hnext, htied, hjoins⟩ :=
        describeEntity_live kinds listed stamp h (by omega) hfree hstays
      exact ⟨result, next, hnext, htied, .of_devices hjoins.settings hjoins.devices⟩
  · unfold Home.describeEntity
    split
    · exact ⟨_, home, rfl, h, .refl home⟩
    · next hvalid =>
      have hlisted : listed.contains (said.kind kinds) = false := by
        rw [← Bool.not_eq_true]
        exact fun hlisted => hok ⟨hvalid, hlisted⟩
      simp only [hlisted, Bool.not_false, if_true]
      exact ⟨_, home, rfl, h, .refl home⟩

lemma perform_tied (h : Tied home) (hsettled : Settled home) {op : HomeOp κ σ}
    (hop : InOneWorld kinds home op) :
    ∃ (result : Except Rejected (List (Event κ σ))) (next : Home κ σ),
      home.perform kinds op = some (result, next) ∧ Tied next ∧ Settled next := by
  have hleads : ∀ {next : Home κ σ}, Tied next ∧ Leads home next → Tied next ∧ Settled next :=
    fun hnext => ⟨hnext.1, hsettled.leads hnext.2⟩
  have halike : ∀ {next : Home κ σ}, Alike home next → Tied next ∧ Settled next :=
    fun hnext => ⟨h.alike hnext, hsettled.leads (.of_alike hnext)⟩
  cases op with
  | describeDevice p said =>
    obtain ⟨result, next, hnext, htied⟩ := describeDevice_tied kinds h hsettled hop
    exact ⟨result, next, hnext, hleads htied⟩
  | describeEntity p listed said stamp =>
    obtain ⟨result, next, hnext, htied⟩ := describeEntity_tied kinds h hop
    exact ⟨result, next, hnext, hleads htied⟩
  | removeDevice p u =>
    obtain ⟨htied, hlead, -⟩ := removeDevice_tied h hop
    exact ⟨_, _, rfl, hleads ⟨htied, hlead⟩⟩
  | removeEntity p u =>
    exact ⟨_, _, rfl, hleads ⟨removeEntity_tied h p u, removeEntity_leads home p u⟩⟩
  | reportState p report stamp =>
    obtain ⟨result, next, hnext, hstep⟩ := reportState_unsaid kinds h p report stamp
    exact ⟨result, next, hnext, halike hstep.alike⟩
  | setAvailability p target availability stamp =>
    exact ⟨_, _, rfl, halike (setAvailability_unsaid home p target availability stamp).alike⟩
  | markUnavailable p stamp =>
    exact ⟨_, _, rfl, halike (setAvailabilityOf_restated home _ _ _ _ _).alike⟩
  | applySettings settings stamp =>
    obtain ⟨events, next, hnext, htied⟩ :=
      applySettings_tied kinds h hsettled (Nat.le_of_lt hop) settings stamp
    exact ⟨.ok events, next, by simp only [Home.perform, hnext]; rfl, htied⟩
  | forgetDevice D => exact ⟨_, _, rfl, hleads (forgetDevice_tied h D)⟩
  | removeProtocol p =>
    obtain ⟨htied, -, hlead⟩ :=
      removeProtocol_tied (P := fun _ => True) h p (fun _ _ _ hP => hP) trivial
    exact ⟨_, _, rfl, hleads ⟨htied, hlead⟩⟩
  | recordCommand E asksFor => exact ⟨_, _, rfl, halike { Alike.refl home with }⟩
  | forgetCommand E => exact ⟨_, _, rfl, halike { Alike.refl home with }⟩
  | recordCall p id now => exact ⟨_, _, rfl, halike { Alike.refl home with }⟩
  | forgetCall p id => exact ⟨_, _, rfl, halike { Alike.refl home with }⟩
  | skipUpdate E context stamp =>
    exact ⟨_, _, rfl, halike (skipUpdate_restated home E context stamp).alike⟩
  | clearSkippedUpdate E context stamp =>
    exact ⟨_, _, rfl, halike (clearSkippedUpdate_restated home E context stamp).alike⟩
  | beginUpdate E stamp =>
    exact ⟨_, _, rfl, halike (changeUpdate_restated home E _ stamp _).alike⟩
  | failUpdate E why stamp =>
    exact ⟨_, _, rfl, halike (changeUpdate_restated home E _ stamp _).alike⟩
  | skipsToStore => exact ⟨_, _, rfl, halike { Alike.refl home with }⟩
  | restoreSkips skips => exact ⟨_, _, rfl, halike { Alike.refl home with }⟩

omit [DecidableEq κ] [DecidableEq σ] in
lemma settled_new : Settled (Home.new : Home κ σ) := by
  intro D d hd
  simp [Home.new] at hd

lemma comesTo_tied (h : ComesTo kinds (InOneWorld kinds) home) : Tied home ∧ Settled home := by
  induction h with
  | new => exact ⟨tied_new, settled_new⟩
  | step op _ allowed performed ih =>
    obtain ⟨result, next, hnext, htied⟩ := perform_tied kinds ih.1 ih.2 allowed
    rw [performed, Option.some.injEq, Prod.mk.injEq] at hnext
    rw [hnext.2]
    exact htied

end Runs

/-- What a home promises about what refers to what. -/
structure Intact (home : Home κ σ) : Prop where
  entityDevice : ∀ (E : EntityId) (e : Entity κ) (D : DeviceId), home.entities[E]? = some e →
    e.deviceId = some D → home.devices.contains D = true
  viaDevice : ∀ (D V : DeviceId) (d : Device), home.devices[D]? = some d →
    d.viaDeviceId = some V → home.devices.contains V = true
  viaEnds : Pointers.NoLoop fun D : DeviceId => (home.devices[D]?).bind Device.viaDeviceId
  deviceKeys : ∀ (k : Key) (D : DeviceId), home.deviceKeys[k]? = some D ↔
    ∃ d : Device, home.devices[D]? = some d ∧ d.key = k
  entityKeys : ∀ (k : Key) (E : EntityId), home.entityKeys[k]? = some E ↔
    ∃ e : Entity κ, home.entities[E]? = some e ∧ e.key = k
  states : ∀ E : EntityId, home.states.contains E = home.entities.contains E
  apart : ∀ k : Key, home.entityKeys.contains k = true → home.foundEntities.contains k = false
  found : ∀ (k : Key) (D : DeviceId), home.foundEntities[k]? = some D ↔
    ∃ f : Found κ σ, home.found[D]? = some f ∧ f.protocol = k.protocol ∧
      f.entities.contains k.uniqueId = true

lemma Tied.intact {home : Home κ σ} (h : Tied home) : Intact home where
  entityDevice E e D he hD := by
    obtain ⟨d, hd, -⟩ := h.entityDevice E e D he hD
    rw [Std.ExtTreeMap.contains_eq_isSome_getElem?, hd, Option.isSome_some]
  viaDevice D V d hd hV := by
    obtain ⟨v, hv⟩ := h.via D V (by rw [viaOf, hd, Option.bind_some, hV])
    rw [Std.ExtTreeMap.contains_eq_isSome_getElem?, hv, Option.isSome_some]
  viaEnds := h.noLoop
  deviceKeys := h.devices
  entityKeys := h.entities
  states E := by
    rw [Std.ExtTreeMap.contains_eq_isSome_getElem?, Std.ExtTreeMap.contains_eq_isSome_getElem?,
      Bool.eq_iff_iff, ← not_iff_not, Option.not_isSome_iff_eq_none, Option.not_isSome_iff_eq_none]
    exact h.states E
  apart k hk := by
    rw [Std.ExtTreeMap.contains_eq_isSome_getElem?] at hk
    cases hD : home.foundEntities[k]? with
    | none => rw [Std.ExtTreeMap.contains_eq_isSome_getElem?, hD, Option.isSome_none]
    | some D =>
      rw [h.apart k D hD] at hk
      cases hk
  found k D := by
    constructor
    · intro hD
      obtain ⟨f, hf, hprotocol, hu⟩ := h.foundKey k D hD
      exact ⟨f, hf, hprotocol, by
        rwa [Std.ExtTreeMap.contains_eq_isSome_getElem?, Option.isSome_iff_ne_none]⟩
    · rintro ⟨f, hf, hprotocol, hu⟩
      rw [Std.ExtTreeMap.contains_eq_isSome_getElem?] at hu
      obtain ⟨⟨listed, said⟩, hsaid⟩ := Option.isSome_iff_exists.mp hu
      have hD := (h.foundSaid D f k.uniqueId listed said hf hsaid).1
      rwa [hprotocol] at hD

variable [DecidableEq κ] [DecidableEq σ] (kinds : Kinds κ σ) {home : Home κ σ}

def movedOps : List (HomeOp Sample.Ability Sample.On) :=
  [.describeDevice Sample.demo (Sample.described Sample.deviceA),
    .applySettings (Sample.asking true [deviceIdFor Sample.demo Sample.deviceA]) Sample.stamp,
    .describeDevice Sample.demo (Sample.described Sample.deviceB),
    .describeEntity Sample.demo [.switch]
      (Sample.nameless Sample.relay Sample.deviceA .switch) Sample.stamp,
    .describeEntity Sample.demo [.switch]
      (Sample.nameless Sample.relay Sample.deviceB .switch) Sample.stamp,
    .removeDevice Sample.demo Sample.deviceA]

end Irori.Proofs
