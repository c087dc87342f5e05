import Irori.Proofs.Remembering

/-!
# Names and rooms

What devices and entities are called, and the rooms devices are in, come from what was last said
about them and from the settings, however the home came to be.
-/

namespace Irori.Proofs
open Irori Irori.Core

variable {κ σ : Type}

section

variable {heard : Heard κ} {kinds : Kinds κ σ} {home next : Home κ σ}

section Settings

variable [DecidableEq κ] [DecidableEq σ] {stamp : Stamp}

omit [DecidableEq σ] in
lemma admits_remembers (hr : Remembers heard home) (h : Tied home) (D : DeviceId) :
    Admits kinds stamp (Remembers heard) home D where
  none _ := hr
  device f result next hf htied hrun := by
    have hdropped := hr.dropFound f.protocol D f
    have hid := (h.foundId D f hf).1
    cases result with
    | error e => exact describeDevice_refused hrun ▸ hdropped
    | ok events =>
      have hnone : (home.dropFound f.protocol D f).found[D]? = none :=
        (Map.get_erase _ _ _).trans (if_pos rfl)
      refine (describeDevice_keeps htied hdropped (fun _ => ⟨fun g hg => ?_,
        fun _ => ?_⟩) hrun).1.again_device (hr.found D f hf)
      · rw [hid, hnone] at hg
        cases hg
      · rw [hid]
        exact (h.foundId D f hf).2
  entity f x home' next result hf hx htied hfree hkey hrun hr' := by
    obtain ⟨u, hu⟩ := Map.mem_vals.mp hx
    have huid := (h.foundSaid D f u x.1 x.2 hf hu).2.1
    have hstays : StaysPut home' f.protocol x.2 := by
      unfold StaysPut
      dsimp only
      split
      · next g hg =>
        obtain ⟨v, hv, hg⟩ := Option.bind_eq_some_iff.mp hg
        rw [hfree v hv] at hg
        cases hg
      · exact hkey
    cases result with
    | error e => exact describeEntity_refused hrun ▸ hr'
    | ok events =>
      refine (describeEntity_keeps htied hr' hstays hrun).1.again_entity ?_
      rw [huid]
      exact hr.foundEntity D f u x.1 x.2 hf hu
  unsaid home' next hnext hr' := hr'.unsaid hnext

def PlacedAt (kinds : Kinds κ σ) (home : Home κ σ) (D : DeviceId) : Prop :=
  ∀ (d : Device) (name : Name), home.devices[D]? = some d →
    home.reportedDeviceNames[D]? = some name →
    d.name = home.nameForDevice D name ∧ d.areaId = home.areaForDevice kinds D d.suggestedArea

/-- Nothing but the names of devices, their rooms and what people say of them is different. -/
def Refreshed (a b : Home κ σ) : Prop :=
  ∃ devices : Map DeviceId Device, b = { a with devices } ∧ ∀ D : DeviceId,
    (devices[D]?).map (fun d => (d.key, d.suggestedArea)) =
      (a.devices[D]?).map fun d => (d.key, d.suggestedArea)

omit [DecidableEq κ] [DecidableEq σ] in
lemma Refreshed.trans {a b c : Home κ σ} (hab : Refreshed a b) (hbc : Refreshed b c) :
    Refreshed a c := by
  obtain ⟨m, rfl, hm⟩ := hab
  obtain ⟨m', rfl, hm'⟩ := hbc
  exact ⟨m', rfl, fun D => (hm' D).trans (hm D)⟩

omit [DecidableEq κ] [DecidableEq σ] in
lemma Remembers.refreshed (h : Remembers heard home) (hnext : Refreshed home next) :
    Remembers heard next := by
  obtain ⟨devices, rfl, hsame⟩ := hnext
  refine { h with
    device := fun D d hd => ?_, entityDevice := fun E e D d he hD hd => ?_ }
  · obtain ⟨d', hd', heq⟩ := Alike.exists_of_map (hsame D) hd
    rw [Prod.mk.injEq] at heq
    rw [← heq.1, ← heq.2]
    exact h.device D d' hd'
  · obtain ⟨d', hd', heq⟩ := Alike.exists_of_map (hsame D) hd
    rw [← show d'.uniqueId = d.uniqueId from congrArg (fun tie => tie.1.uniqueId) heq]
    exact h.entityDevice E e D d' he hD hd'

omit [DecidableEq κ] [DecidableEq σ] in
lemma refreshDevice_placedAt {D : DeviceId} {changes : Changes κ σ}
    (hrun : home.refreshDevice kinds D = some changes) :
    Refreshed home changes.2 ∧ PlacedAt kinds changes.2 D ∧
      ∀ X : DeviceId, PlacedAt kinds home X → PlacedAt kinds changes.2 X := by
  unfold Home.refreshDevice at hrun
  split at hrun
  · next reported device hreported hD =>
    dsimp only at hrun
    split at hrun
    · next hsame =>
      cases hrun
      refine ⟨⟨home.devices, rfl, fun _ => rfl⟩, fun d name hd hname => ?_, fun _ hX => hX⟩
      rw [hD, Option.some.injEq] at hd
      rw [hreported, Option.some.injEq] at hname
      rw [← hd, ← hname, ← hsame]
      exact ⟨rfl, rfl⟩
    · cases hrun
      refine ⟨⟨_, rfl, fun X => ?_⟩, fun d name hd hname => ?_, fun X hX d name hd hname => ?_⟩
      · rw [Map.get_insert]
        split
        · next heq => rw [← heq, hD]; rfl
        · rfl
      · rcases Map.get_insert_some hd with ⟨-, rfl⟩ | ⟨hne, -⟩
        · rw [hreported, Option.some.injEq] at hname
          rw [← hname]
          exact ⟨rfl, rfl⟩
        · exact absurd rfl hne
      · rcases Map.get_insert_some hd with ⟨rfl, rfl⟩ | ⟨-, hd⟩
        · rw [hreported, Option.some.injEq] at hname
          rw [← hname]
          exact ⟨rfl, rfl⟩
        · exact hX d name hd hname
  · cases hrun

omit [DecidableEq κ] [DecidableEq σ] in
lemma refreshDevices_placed (h : Tied home) (events : List (Event κ σ)) :
    ∃ (events' : List (Event κ σ)) (next : Home κ σ),
      sweep (fun id home => home.refreshDevice kinds id) home.devices.keys (events, home) =
          some (events', next) ∧ Tied next ∧ Alike home next ∧ Refreshed home next ∧
        ∀ D : DeviceId, PlacedAt kinds next D := by
  obtain ⟨events', next, hsweep, ⟨htied, halike, hrefreshed⟩, hplaced⟩ := sweep_each
    (fun id home => home.refreshDevice kinds id) home.devices.keys
    (fun next => Tied next ∧ Alike home next ∧ Refreshed home next)
    (fun D next => PlacedAt kinds next D)
    (fun D hD next hP => by
      obtain ⟨htied, halike, hrefreshed⟩ := hP
      rw [Std.ExtTreeMap.mem_keys, Std.ExtTreeMap.mem_iff_isSome_getElem?] at hD
      obtain ⟨d, hd⟩ := Option.isSome_iff_exists.mp hD
      obtain ⟨d', hd', -⟩ := halike.device' hd
      obtain ⟨events, next', hnext, halike'⟩ := refreshDevice_alike kinds htied hd'
      obtain ⟨hone, hat, hothers⟩ := refreshDevice_placedAt hnext
      exact ⟨events, next', hnext,
        ⟨htied.alike halike', halike.trans halike', hrefreshed.trans hone⟩, hat,
        fun X _ hX => hothers X hX⟩)
    events ⟨h, .refl home, home.devices, rfl, fun _ => rfl⟩
  refine ⟨events', next, hsweep, htied, halike, hrefreshed, fun D d name hd => ?_⟩
  refine hplaced D ?_ d name hd
  obtain ⟨d', hd', -⟩ := halike.device hd
  rw [Std.ExtTreeMap.mem_keys, Std.ExtTreeMap.mem_iff_isSome_getElem?, hd']
  rfl

omit [DecidableEq κ] [DecidableEq σ] in
lemma refreshEntities_named (h : Tied home) (events : List (Event κ σ)) :
    ∃ (events' : List (Event κ σ)) (next : Home κ σ),
      sweep (fun id home => home.refreshEntity id) home.entities.keys (events, home) =
          some (events', next) ∧ Renamed home next ∧ ∀ E : EntityId, NamedAt next E := by
  obtain ⟨events', next, hsweep, hrenamed, -, hnamed⟩ := sweep_named h
    (fun id home => home.refreshEntity id) home.entities.keys
    (fun E hE mid hmid => by
      rw [Std.ExtTreeMap.mem_keys, Std.ExtTreeMap.mem_iff_isSome_getElem?] at hE
      have hne : mid.entities[E]? ≠ none := by
        rw [ne_eq, hmid.alike.entity_none]
        exact Option.isSome_iff_ne_none.mp hE
      obtain ⟨e, he⟩ := Option.ne_none_iff_exists'.mp hne
      refine ⟨e, he, ?_⟩
      unfold Home.refreshEntity
      rw [he])
    events
  refine ⟨events', next, hsweep, hrenamed, fun E e he => ?_⟩
  refine hnamed E ?_ e he
  obtain ⟨e', he', -⟩ := hrenamed.alike.entity he
  rw [Std.ExtTreeMap.mem_keys, Std.ExtTreeMap.mem_iff_isSome_getElem?, he']
  rfl

lemma applySettings_keeps (h : Tied home) (hroom : mass home ≤ idNumbers)
    (hr : Remembers heard home) (hn : Named kinds home) (settings : Settings) {changes : Changes κ σ}
    (hrun : home.applySettings kinds settings stamp = some changes) :
    Remembers heard changes.2 ∧ Named kinds changes.2 := by
  unfold Home.applySettings at hrun
  split at hrun
  · cases hrun
    exact ⟨hr, hn⟩
  · have hstart := h.settings settings
    have hmass : mass { home with settings } ≤ idNumbers := hroom
    have hr' : Remembers heard { home with settings } := { hr with }
    generalize ({ home with settings } : Home κ σ) = start at hstart hmass hr' hrun
    obtain ⟨held, afterHeld, hheld, htied, hr', -, hmass', -⟩ := holdAll_tied hstart
      (fun home D htied hr => (@hold_keeps _ _ _ kinds _ htied D hr).1) hr'
    obtain ⟨added, afterAdded, hadded, htied', hr', -⟩ := admitAll_tied kinds stamp htied
      (hmass'.trans hmass) (fun home D htied hr => admits_remembers hr htied D) hr' held
    obtain ⟨devices, afterDevices, hdevices, hrefreshed, -, honly, hplaced⟩ :=
      @refreshDevices_placed _ _ kinds _ htied' added
    obtain ⟨entities, next, hentities, hrenamed, hnamed⟩ :=
      refreshEntities_named hrefreshed devices
    simp only [hheld, Option.bind_some, hadded, hdevices, hentities, Option.map_some,
      Option.some.injEq] at hrun
    rw [← hrun]
    refine ⟨(hr'.refreshed honly).renamed hrenamed, fun D d name hd hname => ?_, hnamed⟩
    obtain ⟨entities, rfl, -⟩ := hrenamed
    exact hplaced D d name hd hname

end Settings

end

/-- A home after operations, with what was heard on the way. -/
inductive Hears [DecidableEq κ] [DecidableEq σ] (kinds : Kinds κ σ)
    (Allowed : Home κ σ → HomeOp κ σ → Prop) : Heard κ → Home κ σ → Prop
  | new : Hears kinds Allowed .none Home.new
  | step {heard : Heard κ} {home next : Home κ σ} {result : Except Rejected (List (Event κ σ))}
      (op : HomeOp κ σ) (before : Hears kinds Allowed heard home) (allowed : Allowed home op)
      (performed : home.perform kinds op = some (result, next)) :
      Hears kinds Allowed (heard.after op result) next

/-- Names and rooms are what people said, else what was heard last. -/
structure Faithful (kinds : Kinds κ σ) (heard : Heard κ) (home : Home κ σ) : Prop where
  device : ∀ (D : DeviceId) (d : Device), home.devices[D]? = some d →
    ∃ said : DeviceDescription, heard.devices[d.key]? = some said ∧
      d.name = ((home.settings.devices[D]?).bind DeviceSettings.name).getD said.name ∧
      d.areaId = placed kinds home.settings
        (((home.settings.devices[D]?).map DeviceSettings.area).getD .unsaid) said.suggestedArea
  entity : ∀ (E : EntityId) (e : Entity κ), home.entities[E]? = some e →
    ∃ said : EntityDescription κ, heard.entities[e.key]? = some said ∧
      some e.name = (((home.settings.entities[e.key]?).bind EntitySettings.name).or said.name).or
        ((e.deviceId.bind (home.devices[·]?)).map Device.name)

/-- What is in two homes is called the same and in the same room, where the same was heard. -/
structure SameNames (heard heard' : Heard κ) (home home' : Home κ σ) : Prop where
  device : ∀ (D D' : DeviceId) (d d' : Device), home.devices[D]? = some d →
    home'.devices[D']? = some d' → d.key = d'.key →
    heard'.devices[d.key]? = heard.devices[d.key]? → d.name = d'.name ∧ d.areaId = d'.areaId
  entity : ∀ (E E' : EntityId) (e e' : Entity κ), home.entities[E]? = some e →
    home'.entities[E']? = some e' → e.key = e'.key →
    heard'.entities[e.key]? = heard.entities[e.key]? →
    (∀ (D : DeviceId) (d : Device), e.deviceId = some D → home.devices[D]? = some d →
      heard'.devices[d.key]? = heard.devices[d.key]?) → e.name = e'.name

section Runs

variable [DecidableEq κ] [DecidableEq σ] {kinds : Kinds κ σ} {heard heard' : Heard κ}
  {home next home' : Home κ σ}

/-- The home after several operations, and what was heard once they were done. -/
def hearAll (kinds : Kinds κ σ) :
    List (HomeOp κ σ) → Heard κ × Home κ σ → Option (Heard κ × Home κ σ)
  | [], now => some now
  | op :: ops, (heard, home) =>
    match home.perform kinds op with
    | none => none
    | some (result, next) => hearAll kinds ops (heard.after op result, next)

lemma Hears.hearAll {ops : List (HomeOp κ σ)} {now : Heard κ × Home κ σ}
    (h : Hears kinds (fun _ _ => True) heard home)
    (hnow : Proofs.hearAll kinds ops (heard, home) = some now) :
    Hears kinds (fun _ _ => True) now.1 now.2 := by
  induction ops generalizing heard home with
  | nil =>
    rw [Proofs.hearAll, Option.some.injEq] at hnow
    exact hnow ▸ h
  | cons op ops ih =>
    rw [Proofs.hearAll] at hnow
    split at hnow
    · cases hnow
    · next result mid hmid => exact ih (h.step op trivial hmid) hnow

lemma Hears.comesTo {Allowed : Home κ σ → HomeOp κ σ → Prop}
    (h : Hears kinds Allowed heard home) : ComesTo kinds Allowed home := by
  induction h with
  | new => exact .new
  | step op _ allowed performed ih => exact ih.step op allowed performed

omit [DecidableEq κ] [DecidableEq σ] in
lemma notLive_of_held (hsettled : Settled home) {p : ProtocolId} {D : DeviceId}
    (hlive : ∀ d : Device, home.devices[D]? = some d → home.isHeld p D = true → d.protocol = p)
    (hin : (home.isHeld p D || home.found.contains D) = true) (hnone : home.found[D]? = none) :
    home.devices[D]? = none := by
  cases hd : home.devices[D]? with
  | none => rfl
  | some d =>
    have hheld : home.isHeld p D = true := by
      rw [Std.ExtTreeMap.contains_eq_isSome_getElem?, hnone] at hin
      simpa using hin
    have hfalse := hsettled _ d hd
    rw [hlive d hd hheld, hheld] at hfalse
    cases hfalse

lemma perform_keeps (h : Tied home) (hsettled : Settled home) (hr : Remembers heard home)
    (hn : Named kinds home) {op : HomeOp κ σ} (hop : InOneWorld kinds home op)
    {result : Except Rejected (List (Event κ σ))}
    (hrun : home.perform kinds op = some (result, next)) :
    Remembers (heard.after op result) next ∧ Named kinds next := by
  have hunsaid : ∀ {next : Home κ σ}, Unsaid home next → Remembers heard next ∧ Named kinds next :=
    fun hnext => ⟨hr.unsaid hnext, hn.unsaid hnext⟩
  cases op with
  | describeDevice p said =>
    cases result with
    | error e => exact describeDevice_refused hrun ▸ ⟨hr, hn⟩
    | ok events =>
      have hvalid : said.validate = .ok () := by
        change home.describeDevice kinds p said = _ at hrun
        unfold Home.describeDevice at hrun
        split at hrun
        · cases hrun
        · next hvalid => exact hvalid
      obtain ⟨hown, hlive⟩ := hop hvalid
      obtain ⟨hr', hn'⟩ := describeDevice_keeps h hr
        (fun hin => ⟨hown, notLive_of_held hsettled hlive hin⟩) hrun
      exact ⟨hr', hn' hn⟩
  | describeEntity p listed said stamp =>
    cases result with
    | error e => exact describeEntity_refused hrun ▸ ⟨hr, hn⟩
    | ok events =>
      have hallowed : said.validate kinds = .ok () ∧
          listed.contains (said.kind kinds) = true := by
        change home.describeEntity kinds p listed said stamp = _ at hrun
        unfold Home.describeEntity at hrun
        split at hrun
        · cases hrun
        · next hvalid =>
          dsimp only at hrun
          split at hrun
          · cases hrun
          · next hlisted => exact ⟨hvalid, by simpa using hlisted⟩
      obtain ⟨hr', hn'⟩ := describeEntity_keeps h hr (hop hallowed.1 hallowed.2).1 hrun
      exact ⟨hr', hn' hn⟩
  | removeDevice p u =>
    obtain ⟨hr', hn'⟩ := removeDevice_keeps h p u hr
    exact run_snd hrun ▸ ⟨hr', hn' hn⟩
  | removeEntity p u =>
    exact run_snd hrun ▸ ⟨removeEntity_remembers hr p u, removeEntity_named hn p u⟩
  | reportState p report stamp => exact hunsaid (reportState_run hrun)
  | setAvailability p target availability stamp =>
    exact run_snd hrun ▸ hunsaid (setAvailability_unsaid home p target availability stamp)
  | markUnavailable p stamp =>
    exact run_snd hrun ▸ hunsaid (setAvailabilityOf_restated home _ _ _ _ _).unsaid
  | applySettings settings stamp =>
    obtain ⟨changes, hchanges, htold⟩ := Option.bind_eq_some_iff.mp hrun
    exact run_snd htold ▸ applySettings_keeps h (Nat.le_of_lt hop) hr hn settings hchanges
  | forgetDevice D =>
    have hforget : Remembers heard (home.forgetDevice D).2 ∧
        Named kinds (home.forgetDevice D).2 := by
      unfold Home.forgetDevice
      split
      · obtain ⟨hr', hn'⟩ := @hold_keeps _ _ _ kinds _ h D hr
        exact ⟨hr', hn' hn⟩
      · split <;> exact ⟨hr, hn⟩
    exact run_snd hrun ▸ hforget
  | removeProtocol p => exact run_snd hrun ▸ removeProtocol_keeps h p hr hn
  | skipUpdate E context stamp =>
    exact run_snd hrun ▸ hunsaid (skipUpdate_restated home E context stamp).unsaid
  | clearSkippedUpdate E context stamp =>
    exact run_snd hrun ▸ hunsaid (clearSkippedUpdate_restated home E context stamp).unsaid
  | beginUpdate E stamp =>
    exact run_snd hrun ▸ hunsaid (changeUpdate_restated home E _ stamp _).unsaid
  | failUpdate E why stamp =>
    exact run_snd hrun ▸ hunsaid (changeUpdate_restated home E _ stamp _).unsaid
  | recordCommand | forgetCommand | recordCall | forgetCall | skipsToStore | restoreSkips =>
    exact run_snd hrun ▸ hunsaid { Unsaid.refl home with }

lemma hears_keeps (h : Hears kinds (InOneWorld kinds) heard home) :
    Remembers heard home ∧ Named kinds home := by
  induction h with
  | new => exact ⟨remembers_new, named_new⟩
  | step op before allowed performed ih =>
    obtain ⟨htied, hsettled⟩ := comesTo_tied kinds before.comesTo
    exact perform_keeps htied hsettled ih.1 ih.2 allowed performed

omit [DecidableEq κ] [DecidableEq σ] in
lemma faithful_of_named (hr : Remembers heard home) (hn : Named kinds home) :
    Faithful kinds heard home where
  device D d hd := by
    obtain ⟨said, hheard, -, hname, harea⟩ := hr.device D d hd
    obtain ⟨hcalled, hplaced⟩ := hn.device D d said.name hd hname
    rw [harea] at hplaced
    exact ⟨said, hheard, hcalled, hplaced⟩
  entity E e he := by
    obtain ⟨listed, said, hheard, -, hname⟩ := hr.entity E e he
    refine ⟨said, hheard, ?_⟩
    rw [← hn.entity E e he]
    unfold Home.nameForEntity Home.entityKey
    rw [he, hname, Option.map_some, Option.bind_some]
    split
    · next chosen hchosen =>
      have hchosen : (home.settings.entities[e.key]?).bind EntitySettings.name = some chosen := hchosen
      rw [hchosen]
      rfl
    · next hchosen =>
      have hchosen : (home.settings.entities[e.key]?).bind EntitySettings.name = none := hchosen
      rw [hchosen]
      cases said.name <;> rfl

omit [DecidableEq κ] [DecidableEq σ] in
lemma Remembers.entityOf (hr : Remembers heard home) (h : Tied home) {E : EntityId}
    {e : Entity κ} (he : home.entities[E]? = some e) {said : EntityDescription κ}
    (hheard : heard.entities[e.key]? = some said) :
    e.deviceId = said.deviceUniqueId.map (deviceIdFor e.protocol) ∧
      ∀ (D : DeviceId) (d : Device), e.deviceId = some D → home.devices[D]? = some d →
        said.deviceUniqueId = some d.uniqueId := by
  obtain ⟨listed, said', hheard', hsaid', -⟩ := hr.entity E e he
  rw [hheard, Option.some.injEq] at hheard'
  subst hheard'
  constructor
  · obtain ⟨listed', said', hsaid, -, hdevice⟩ := h.entitySaid E e he
    rw [hsaid', Option.some.injEq, Prod.mk.injEq] at hsaid
    rw [hdevice, hsaid.2]
  · intro D d hD hd
    obtain ⟨listed', said', hsaid, huid⟩ := hr.entityDevice E e D d he hD hd
    rw [hsaid', Option.some.injEq, Prod.mk.injEq] at hsaid
    rw [hsaid.2, huid]

end Runs

/-- An entity of a device in the home, described again under another name with a device that was
only found. -/
def renamedOps : List (HomeOp Sample.Ability Sample.On) :=
  [.describeDevice Sample.demo (Sample.described Sample.deviceA),
    .applySettings (Sample.asking true [deviceIdFor Sample.demo Sample.deviceA]) Sample.stamp,
    .describeDevice Sample.demo (Sample.described Sample.deviceB),
    .describeEntity Sample.demo [.switch]
      (Sample.nameless Sample.relay Sample.deviceA .switch) Sample.stamp,
    .describeEntity Sample.demo [.switch]
      { Sample.nameless Sample.relay Sample.deviceB .switch with name := some Sample.desk }
      Sample.stamp]

end Irori.Proofs
