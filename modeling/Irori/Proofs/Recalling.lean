import Irori.Home.Calls

/-!
# What is remembered of calls

What protocols tell the core leaves the calls remembered as they are, and takes from an entity what
it was told to be exactly where the entity has reported, is removed or loses a value.
-/

namespace Irori.Core

variable {κ σ ς : Type}

section

variable {s : Calling κ σ ς} {k j : Nat} {call other : Call ς}

lemma get_withPhase {phase : CallPhase ς}
    (h : (s.withPhase k call phase).calls[j]? = some other) :
    (j = k ∧ other = { call with phase }) ∨ (j ≠ k ∧ s.calls[j]? = some other) := by
  rw [show (s.withPhase k call phase).calls = s.calls.insert k { call with phase } from rfl,
    Map.get_insert] at h
  split at h
  · next hsame =>
    cases h
    exact .inl ⟨hsame.symm, rfl⟩
  · next hne => exact .inr ⟨fun hsame => hne hsame.symm, h⟩

lemma get_begin {entity : EntityId} {command : Command} {context : Context}
    (h : (s.begin entity command context).calls[j]? = some other) :
    (j = s.nextCall ∧ other = ⟨entity, command, context, s.lockFor entity, .waits⟩) ∨
      s.calls[j]? = some other := by
  rw [show (s.begin entity command context).calls = s.calls.insert s.nextCall
    ⟨entity, command, context, s.lockFor entity, .waits⟩ from rfl, Map.get_insert] at h
  split at h
  · next hsame =>
    cases h
    exact .inl ⟨hsame.symm, rfl⟩
  · exact .inr h

end

def Home.valueOf (home : Home κ σ) (id : EntityId) : Option (State σ) :=
  (home.states[id]?).bind EntityState.state

def removedIn (events : List (Event κ σ)) : List EntityId :=
  events.filterMap fun event =>
    match event with
    | .entityRemoved id => some id
    | _ => none

/-- The entities that are removed with a device, up to the first that can't be. -/
def removedWith : List (Entity κ) → Home κ σ → List EntityId
  | [], _ => []
  | entity :: rest, home =>
    match home.removeEntity entity.protocol entity.uniqueId with
    | (.error _, _) => []
    | (.ok events, home) => removedIn events ++ removedWith rest home

def Loses (home next : Home κ σ) (id : EntityId) : Prop :=
  (home.valueOf id).isSome = true ∧ (next.valueOf id).isNone = true

instance (home next : Home κ σ) (id : EntityId) : Decidable (Loses home next id) :=
  inferInstanceAs (Decidable (_ ∧ _))

/-- Whether the entity has reported, is removed, or loses a value it no longer fits. -/
def hears (home : Home κ σ) (op : HomeOp κ σ) (result : Except Rejected (List (Event κ σ)))
    (next : Home κ σ) (id : EntityId) : Bool :=
  match op with
  | .reportState protocol report _ =>
    result.isOk && (home.foundEntities[(⟨protocol, report.uniqueId⟩ : Key)]?).isNone &&
      home.entityKeys[(⟨protocol, report.uniqueId⟩ : Key)]? == some id
  | .describeEntity protocol _ description _ =>
    home.entityKeys[(⟨protocol, description.uniqueId⟩ : Key)]? == some id &&
      decide (Loses home next id)
  | .removeEntity _ _ => (removedIn (result.toOption.getD [])).contains id
  | .removeDevice protocol uniqueId =>
    (home.found[deviceIdFor protocol uniqueId]?).isNone &&
      match home.deviceKeys[(⟨protocol, uniqueId⟩ : Key)]? with
      | some device =>
        (removedWith (home.owned device)
          { home with
            deviceKeys := home.deviceKeys.erase ⟨protocol, uniqueId⟩
            deviceDescriptions := home.deviceDescriptions.erase device }).contains id
      | none => false
  | _ => false

structure SameCalls (a b : Home κ σ) : Prop where
  recentCalls : b.recentCalls = a.recentCalls
  commanded : b.commanded = a.commanded

lemma SameCalls.refl (a : Home κ σ) : SameCalls a a := ⟨rfl, rfl⟩

lemma SameCalls.trans {a b c : Home κ σ} (h : SameCalls a b) (h' : SameCalls b c) :
    SameCalls a c :=
  ⟨h'.recentCalls.trans h.recentCalls, h'.commanded.trans h.commanded⟩

structure SameValues (a b : Home κ σ) : Prop where
  calls : SameCalls a b
  values : ∀ id : EntityId, b.valueOf id = a.valueOf id

lemma SameValues.refl (a : Home κ σ) : SameValues a a := ⟨.refl a, fun _ => rfl⟩

lemma SameValues.trans {a b c : Home κ σ} (h : SameValues a b) (h' : SameValues b c) :
    SameValues a c :=
  ⟨h.calls.trans h'.calls, fun id => (h'.values id).trans (h.values id)⟩

variable (home : Home κ σ)

lemma valueOf_insert (id other : EntityId) (new : EntityState σ) :
    ({ home with states := home.states.insert id new } : Home κ σ).valueOf other =
      if id = other then new.state else home.valueOf other := by
  unfold Home.valueOf
  rw [Map.get_insert]
  split <;> rfl

lemma sameValues_insert {id : EntityId} {old new : EntityState σ} (hold : home.states[id]? = some old)
    (hstate : new.state = old.state) :
    SameValues home { home with states := home.states.insert id new } := by
  refine ⟨⟨rfl, rfl⟩, fun other => ?_⟩
  rw [valueOf_insert]
  split
  · next hid =>
    unfold Home.valueOf
    rw [← hid, hold]
    exact hstate
  · rfl

lemma setAvailabilityOf1_same (availability : Availability) (now : Timestamp) (context : Context)
    (reported : Reported) (id : EntityId) :
    SameValues home (home.setAvailabilityOf1 availability now context reported id).2 := by
  unfold Home.setAvailabilityOf1
  split
  · exact .refl home
  · next old hold =>
    split
    · dsimp only
      split
      · exact sameValues_insert home hold rfl
      · exact .refl home
    · exact sameValues_insert home hold rfl

lemma setAvailabilityOf_same (ids : List EntityId) (availability : Availability) (now : Timestamp)
    (context : Context) (reported : Reported) :
    SameValues home (home.setAvailabilityOf ids availability now context reported).2 := by
  refine Home.setAvailabilityOf_induct (motive := fun changes => SameValues home changes.2)
    (.refl home) fun changes id _ h => ?_
  exact h.trans (setAvailabilityOf1_same changes.2 availability now context reported id)

lemma setAvailability_same (protocol : ProtocolId) (target : AvailabilityTarget)
    (availability : Availability) (stamp : Stamp) :
    SameCalls home (home.setAvailability protocol target availability stamp).2 := by
  unfold Home.setAvailability
  cases target with
  | device device =>
    dsimp only
    split
    · exact ⟨rfl, rfl⟩
    · split
      · exact .refl home
      · exact (setAvailabilityOf_same home _ _ _ _ _).calls
  | entities uniqueIds =>
    dsimp only
    split
    · exact .refl home
    · split
      · exact .refl home
      · exact (setAvailabilityOf_same home _ _ _ _ _).calls

lemma renameEntity_same {deviceId : Option DeviceId} {id : EntityId} {changes : Changes κ σ}
    (h : home.renameEntity deviceId id = some changes) : SameCalls home changes.2 := by
  unfold Home.renameEntity at h
  split at h
  · split at h
    · cases h
      exact .refl home
    · cases h
      exact ⟨rfl, rfl⟩
  · cases h

lemma sweep_same {α : Type} {step : α → Home κ σ → Option (Changes κ σ)}
    (hstep : ∀ (a : α) (home : Home κ σ) (changes : Changes κ σ), step a home = some changes →
      SameCalls home changes.2) (as : List α) {home : Home κ σ} {changes changes' : Changes κ σ}
    (hsame : SameCalls home changes.2) (h : sweep step as changes = some changes') :
    SameCalls home changes'.2 := by
  induction as generalizing changes with
  | nil =>
    cases h
    exact hsame
  | cons a as ih =>
    obtain ⟨events, before⟩ := changes
    rw [sweep] at h
    split at h
    · cases h
    · next more next hnext =>
      have hlater : SameCalls home (events ++ more, next).2 :=
        hsame.trans (hstep a before (more, next) hnext)
      exact ih hlater h

lemma addDevice_same (kinds : Kinds κ σ) (protocol : ProtocolId) (description : DeviceDescription)
    (via : Option DeviceId) : SameCalls home (home.addDevice kinds protocol description via).2 := by
  unfold Home.addDevice
  dsimp only
  split <;> exact ⟨rfl, rfl⟩

lemma describeDevice_same (kinds : Kinds κ σ) (protocol : ProtocolId)
    (description : DeviceDescription) {result : Except Rejected (List (Event κ σ))}
    {next : Home κ σ} (h : home.describeDevice kinds protocol description = some (result, next)) :
    SameCalls home next := by
  unfold Home.describeDevice at h
  split at h
  · cases h
    exact .refl home
  · dsimp only at h
    split at h
    · cases h
      unfold Home.keepFound
      dsimp only
      split <;> exact ⟨rfl, rfl⟩
    · split at h
      · cases h
        exact .refl home
      · split at h
        · unfold Home.updateDevice at h
          split at h
          · cases h
            exact .refl home
          · split at h
            · cases h
            · dsimp only at h
              split at h
              · cases h
                exact ⟨rfl, rfl⟩
              · split at h
                · cases h
                  exact ⟨rfl, rfl⟩
                · obtain ⟨⟨events, swept⟩, hswept, hsame⟩ := Option.map_eq_some_iff.mp h
                  cases hsame
                  have hkept := sweep_same (fun entity home changes hchanges =>
                    renameEntity_same home hchanges) _ (SameCalls.refl _) hswept
                  exact ⟨hkept.recentCalls, hkept.commanded⟩
        · next via _ _ _ =>
          have hadded := addDevice_same home kinds protocol description via
          rw [Option.some.inj h] at hadded
          exact hadded

/-- How what entities were told changes: it goes where the entity is heard of. -/
structure Forgets (home next : Home κ σ) (heard : EntityId → Prop) : Prop where
  recentCalls : next.recentCalls = home.recentCalls
  gone : ∀ id, heard id → next.commanded[id]? = none
  others : ∀ id, ¬ heard id → next.commanded[id]? = home.commanded[id]?

lemma SameCalls.forgets {home next : Home κ σ} {heard : EntityId → Prop} (h : SameCalls home next)
    (hnone : ∀ id, ¬ heard id) : Forgets home next heard :=
  ⟨h.recentCalls, fun id hid => absurd hid (hnone id), fun id _ => by rw [h.commanded]⟩

lemma not_loses (id : EntityId) : ¬ Loses home home id := by
  rintro ⟨hsome, hnone⟩
  rw [Option.isNone_iff_eq_none] at hnone
  rw [hnone] at hsome
  cases hsome

lemma forgetMisfit_forgets (kinds : Kinds κ σ) {id : EntityId} (capabilities : κ)
    {old : EntityState σ} (hold : home.states[id]? = some old) (stamp : Stamp) :
    Forgets home (home.forgetMisfit kinds id capabilities old stamp).2 fun other =>
      other = id ∧ Loses home (home.forgetMisfit kinds id capabilities old stamp).2 id := by
  unfold Home.forgetMisfit
  split
  · exact (SameCalls.refl home).forgets fun _ h => not_loses home id h.2
  · next state hstate =>
    split
    · exact (SameCalls.refl home).forgets fun _ h => not_loses home id h.2
    · refine ⟨rfl, fun other hother => ?_, fun other hother => ?_⟩
      · show (home.commanded.erase id)[other]? = none
        rw [hother.1, Map.get_erase, if_pos rfl]
      · show (home.commanded.erase id)[other]? = home.commanded[other]?
        rw [Map.get_erase, if_neg]
        rintro rfl
        refine hother ⟨rfl, ?_, ?_⟩
        · unfold Home.valueOf
          rw [hold, Option.bind_some, hstate]
          rfl
        · show (((home.states.insert id _)[id]?).bind EntityState.state).isNone = true
          rw [Map.get_insert, if_pos rfl]
          rfl

lemma Loses.congr {a b c d : Home κ σ} (hab : SameValues a b) (hcd : SameValues c d) (id : EntityId) :
    Loses b c id ↔ Loses a d id := by
  unfold Loses
  rw [hab.values, hcd.values]

lemma Forgets.between {a b c d : Home κ σ} {id : EntityId} (hab : SameValues a b)
    (h : Forgets b c fun other => other = id ∧ Loses b c id) (hcd : SameValues c d) :
    Forgets a d fun other => other = id ∧ Loses a d id := by
  refine ⟨?_, fun other hother => ?_, fun other hother => ?_⟩
  · rw [hcd.calls.recentCalls, h.recentCalls, hab.calls.recentCalls]
  · rw [hcd.calls.commanded]
    exact h.gone other ⟨hother.1, (Loses.congr hab hcd id).mpr hother.2⟩
  · rw [hcd.calls.commanded, ← hab.calls.commanded]
    exact h.others other fun hheard => hother ⟨hheard.1, (Loses.congr hab hcd id).mp hheard.2⟩

section Describing

variable [DecidableEq κ]

lemma updateEntity_forgets (kinds : Kinds κ σ) (protocol : ProtocolId) (listed : List EntityKind)
    (description : EntityDescription κ) (deviceId : Option DeviceId) (stamp : Stamp) {id : EntityId}
    {result : Except Rejected (List (Event κ σ))} {next : Home κ σ}
    (h : home.updateEntity kinds protocol listed description deviceId stamp id =
      some (result, next)) :
    Forgets home next fun other => other = id ∧ Loses home next id := by
  unfold Home.updateEntity at h
  split at h
  · cases h
  · split at h
    · cases h
      exact (SameCalls.refl home).forgets fun _ h => not_loses home id h.2
    · dsimp only at h
      split at h
      · next name old hname hold =>
        cases h
        exact Forgets.between (by exact ⟨⟨rfl, rfl⟩, fun _ => rfl⟩)
          (forgetMisfit_forgets _ kinds _ (by exact hold) stamp)
          (setAvailabilityOf_same _ _ _ _ _ _)
      · cases h

omit [DecidableEq κ] in
lemma addEntity_same (kinds : Kinds κ σ) (protocol : ProtocolId) (listed : List EntityKind)
    (description : EntityDescription κ) (device : Option Device) (stamp : Stamp)
    {result : Except Rejected (List (Event κ σ))} {next : Home κ σ}
    (h : home.addEntity kinds protocol listed description device stamp = some (result, next)) :
    SameCalls home next := by
  unfold Home.addEntity at h
  split at h
  · split at h
    · cases h
    · cases h
      exact ⟨rfl, rfl⟩
  · cases h

lemma describeLive_forgets (kinds : Kinds κ σ) (protocol : ProtocolId) (listed : List EntityKind)
    (description : EntityDescription κ) (stamp : Stamp) (device : Option Device)
    {result : Except Rejected (List (Event κ σ))} {next : Home κ σ}
    (h : home.describeLive kinds protocol listed description stamp device = some (result, next)) :
    Forgets home next fun id =>
      home.entityKeys[(⟨protocol, description.uniqueId⟩ : Key)]? = some id ∧ Loses home next id := by
  unfold Home.describeLive at h
  split at h
  · next id hid =>
    obtain ⟨hrecent, hgone, hothers⟩ :=
      updateEntity_forgets home kinds protocol listed description _ stamp h
    refine ⟨hrecent, fun other hother => ?_, fun other hother => ?_⟩
    · have hsame : id = other := Option.some.inj (hid.symm.trans hother.1)
      exact hgone other ⟨hsame.symm, hsame ▸ hother.2⟩
    · exact hothers other fun hheard => hother ⟨by rw [hheard.1]; exact hid, by
        rw [hheard.1]
        exact hheard.2⟩
  · next hnone =>
    refine (addEntity_same home kinds protocol listed description device stamp h).forgets ?_
    rintro id ⟨hid, _⟩
    rw [hnone] at hid
    cases hid

lemma describeEntity_forgets (kinds : Kinds κ σ) (protocol : ProtocolId) (listed : List EntityKind)
    (description : EntityDescription κ) (stamp : Stamp)
    {result : Except Rejected (List (Event κ σ))} {next : Home κ σ}
    (h : home.describeEntity kinds protocol listed description stamp = some (result, next)) :
    Forgets home next fun id =>
      home.entityKeys[(⟨protocol, description.uniqueId⟩ : Key)]? = some id ∧ Loses home next id := by
  have hrefl : Forgets home home fun id =>
      home.entityKeys[(⟨protocol, description.uniqueId⟩ : Key)]? = some id ∧ Loses home home id :=
    (SameCalls.refl home).forgets fun id h => not_loses home id h.2
  unfold Home.describeEntity at h
  split at h
  · cases h
    exact hrefl
  · dsimp only at h
    split at h
    · cases h
      exact hrefl
    · split at h
      · exact describeLive_forgets home kinds protocol listed description stamp _ h
      · split at h
        · cases h
          exact ⟨hrefl.recentCalls, fun id hid => absurd hid.2 (not_loses home id),
            fun id _ => rfl⟩
        · split at h
          · cases h
            exact hrefl
          · split at h
            · cases h
            · exact describeLive_forgets home kinds protocol listed description stamp _ h

end Describing

lemma removeEntity_forgets {protocol : ProtocolId} {uniqueId : UniqueId}
    {result : Except Rejected (List (Event κ σ))} {next : Home κ σ}
    (h : home.removeEntity protocol uniqueId = (result, next)) :
    Forgets home next fun id => id ∈ removedIn (result.toOption.getD []) := by
  unfold Home.removeEntity at h
  dsimp only at h
  split at h
  · cases h
    exact ⟨rfl, fun id hid => (nomatch hid), fun id _ => rfl⟩
  · split at h
    · cases h
      exact (SameCalls.refl home).forgets fun id hid => (nomatch hid)
    · next removed _ =>
      cases h
      refine ⟨rfl, fun id hid => ?_, fun id hid => ?_⟩
      · show (home.commanded.erase removed)[id]? = none
        rw [List.mem_singleton.mp hid, Map.get_erase, if_pos rfl]
      · show (home.commanded.erase removed)[id]? = home.commanded[id]?
        rw [Map.get_erase, if_neg]
        rintro rfl
        exact hid (List.mem_singleton_self _)

lemma removeEntities_forgets (entities : List (Entity κ))
    {result : Except Rejected (List (Event κ σ))} {next : Home κ σ}
    (h : Home.removeEntities entities home = (result, next)) :
    Forgets home next fun id => id ∈ removedWith entities home := by
  induction entities generalizing home result next with
  | nil =>
    cases h
    exact (SameCalls.refl home).forgets fun _ hid => nomatch hid
  | cons entity rest ih =>
    unfold Home.removeEntities at h
    unfold removedWith
    cases hremoved : home.removeEntity entity.protocol entity.uniqueId with
    | mk first mid =>
      rw [hremoved] at h
      have hfirst := removeEntity_forgets home hremoved
      cases first with
      | error e =>
        cases h
        exact ⟨hfirst.recentCalls, fun _ hid => (nomatch hid), fun id _ =>
          hfirst.others id fun hmem => (nomatch hmem)⟩
      | ok events =>
        dsimp only at h ⊢
        cases hrest : Home.removeEntities rest mid with
        | mk second last =>
          rw [hrest] at h
          cases h
          have hlater := ih mid hrest
          refine ⟨hlater.recentCalls.trans hfirst.recentCalls, fun id hid => ?_,
            fun id hid => ?_⟩
          · by_cases hlast : id ∈ removedWith rest mid
            · exact hlater.gone id hlast
            · rw [hlater.others id hlast]
              exact hfirst.gone id ((List.mem_append.mp hid).resolve_right hlast)
          · rw [List.mem_append, not_or] at hid
            rw [hlater.others id hid.2]
            exact hfirst.others id hid.1

lemma removeDevice_forgets {protocol : ProtocolId} {uniqueId : UniqueId} {result next}
    (h : home.removeDevice protocol uniqueId = (result, next)) :
    Forgets home next fun id =>
      hears home (.removeDevice protocol uniqueId) result next id = true := by
  unfold Home.removeDevice at h
  dsimp only at h
  split at h
  · next found hfound =>
    cases h
    refine ⟨rfl, fun id hid => ?_, fun id _ => rfl⟩
    dsimp only [hears] at hid
    rw [hfound] at hid
    cases hid
  · next hfound =>
    split at h
    · next hkey =>
      cases h
      refine (SameCalls.refl home).forgets fun id hid => ?_
      dsimp only [hears] at hid
      rw [hfound, hkey] at hid
      cases hid
    · next device hdevice =>
      generalize hbefore : ({ home with
        deviceKeys := home.deviceKeys.erase ⟨protocol, uniqueId⟩
        deviceDescriptions := home.deviceDescriptions.erase device } : Home κ σ) = before at h
      cases hremoved : Home.removeEntities (before.owned device) before with
      | mk first mid =>
        have hforgets := removeEntities_forgets _ _ hremoved
        have hheard : ∀ id, hears home (.removeDevice protocol uniqueId) result next id = true ↔
            id ∈ removedWith (before.owned device) before := by
          intro id
          rw [← hbefore]
          dsimp only [hears]
          rw [hfound, hdevice]
          exact List.contains_iff_mem
        have hsame : SameCalls home before := by
          rw [← hbefore]
          exact ⟨rfl, rfl⟩
        have hmid : Forgets home mid fun id =>
            hears home (.removeDevice protocol uniqueId) result next id = true :=
          ⟨hforgets.recentCalls.trans hsame.recentCalls, fun id hid =>
            hforgets.gone id ((hheard id).mp hid), fun id hid => by
              rw [hforgets.others id fun hmem => hid ((hheard id).mpr hmem), hsame.commanded]⟩
        rw [hremoved] at h
        cases first with
        | error e =>
          cases h
          exact hmid
        | ok events =>
          cases h
          exact ⟨hmid.recentCalls, hmid.gone, hmid.others⟩

section Reporting

lemma foldReport_same (protocol : ProtocolId) (id : EntityId) (report : StateReport σ) :
    SameCalls home (home.foldReport protocol id report).2 := by
  unfold Home.foldReport
  split
  · simp only [Home.foldUpdate]
    split <;> exact ⟨rfl, rfl⟩
  · exact .refl home

variable [DecidableEq σ]

lemma keepReport_forgets (protocol : ProtocolId) (report : StateReport σ)
    (parent : Option ContextId) (stamp : Stamp) (id : EntityId) (old : EntityState σ) :
    Forgets home (home.keepReport protocol report parent stamp id old).2 fun other =>
      other = id := by
  have hcommanded : (home.keepReport protocol report parent stamp id old).2.commanded =
      home.commanded.erase id ∧
        (home.keepReport protocol report parent stamp id old).2.recentCalls =
          home.recentCalls := by
    unfold Home.keepReport
    dsimp only
    split_ifs <;> exact ⟨rfl, rfl⟩
  refine ⟨hcommanded.2, fun other hother => ?_, fun other hother => ?_⟩
  · rw [hcommanded.1, hother, Map.get_erase, if_pos rfl]
  · rw [hcommanded.1, Map.get_erase, if_neg fun hid => hother hid.symm]

lemma reportLive_forgets (kinds : Kinds κ σ) (protocol : ProtocolId) (report : StateReport σ)
    (stamp : Stamp) {id : EntityId} {result : Except Rejected (List (Event κ σ))} {next : Home κ σ}
    (h : home.reportLive kinds protocol report stamp id = some (result, next)) :
    Forgets home next fun other => result.isOk = true ∧ other = id := by
  have hfold := foldReport_same home protocol id report
  have hkeep : ∀ (parent : Option ContextId) (old : EntityState σ),
      Forgets home ((home.foldReport protocol id report).2.keepReport protocol
        (home.foldReport protocol id report).1 parent stamp id old).2 fun other => other = id := by
    intro parent old
    obtain ⟨hrecent, hgone, hothers⟩ := keepReport_forgets (home.foldReport protocol id report).2
      protocol (home.foldReport protocol id report).1 parent stamp id old
    exact ⟨hrecent.trans hfold.recentCalls, hgone, fun other hother => by
      rw [hothers other hother, hfold.commanded]⟩
  unfold Home.reportLive at h
  split at h
  · cases h
  · split at h
    · cases h
      exact (SameCalls.refl home).forgets fun _ hid => nomatch hid.1
    · dsimp only at h
      split at h
      · split at h
        · split at h
          · cases h
          · cases h
            obtain ⟨hrecent, hgone, hothers⟩ := hkeep (some _) _
            exact ⟨hrecent, fun other hother => hgone other hother.2, fun other hother =>
              hothers other fun hid => hother ⟨rfl, hid⟩⟩
        · cases h
          exact hfold.forgets fun _ hid => nomatch hid.1
      · split at h
        · cases h
        · cases h
          obtain ⟨hrecent, hgone, hothers⟩ := hkeep none _
          exact ⟨hrecent, fun other hother => hgone other hother.2, fun other hother =>
            hothers other fun hid => hother ⟨rfl, hid⟩⟩

omit [DecidableEq σ] in
lemma cleaned_uniqueId (report : StateReport σ) : (Home.cleaned report).uniqueId = report.uniqueId := by
  unfold Home.cleaned
  split <;> rfl

lemma reportState_forgets (kinds : Kinds κ σ) (protocol : ProtocolId) (report : StateReport σ)
    (stamp : Stamp) {result : Except Rejected (List (Event κ σ))} {next : Home κ σ}
    (h : home.reportState kinds protocol report stamp = some (result, next)) :
    Forgets home next fun id =>
      hears home (.reportState protocol report stamp) result next id = true := by
  have hheard : ∀ id, hears home (.reportState protocol report stamp) result next id = true ↔
      result.isOk = true ∧ home.foundEntities[(⟨protocol, report.uniqueId⟩ : Key)]? = none ∧
        home.entityKeys[(⟨protocol, report.uniqueId⟩ : Key)]? = some id := by
    intro id
    dsimp only [hears]
    rw [Bool.and_eq_true, Bool.and_eq_true, beq_iff_eq, Option.isNone_iff_eq_none, and_assoc]
  simp only [hheard]
  unfold Home.reportState at h
  dsimp only at h
  rw [cleaned_uniqueId] at h
  split at h
  · cases h
    exact (SameCalls.refl home).forgets fun _ hid => nomatch hid.1
  · split at h
    · next device hfound =>
      cases h
      refine ⟨rfl, fun id hid => ?_, fun id _ => rfl⟩
      have hnone := hid.2.1
      rw [hfound] at hnone
      cases hnone
    · next hfound =>
      split at h
      · cases h
        exact (SameCalls.refl home).forgets fun _ hid => nomatch hid.1
      · next id hid =>
        obtain ⟨hrecent, hgone, hothers⟩ := reportLive_forgets home kinds protocol _ stamp h
        refine ⟨hrecent, fun other hother => hgone other ⟨hother.1, ?_⟩, fun other hother =>
          hothers other fun hheard => hother ⟨hheard.1, hfound, ?_⟩⟩
        · exact Option.some.inj (hother.2.2.symm.trans hid)
        · rw [hid, hheard.2]

end Reporting

lemma changeUpdate_same (id : EntityId) (context : Context) (stamp : Stamp)
    (change : UpdateState → UpdateState) :
    SameCalls home (home.changeUpdate id context stamp change).2 := by
  unfold Home.changeUpdate
  split
  · exact .refl home
  · split
    · dsimp only
      split
      · exact .refl home
      · exact ⟨rfl, rfl⟩
    · exact .refl home

lemma skipUpdate_same (id : EntityId) (context : Context) (stamp : Stamp) :
    SameCalls home (home.skipUpdate id context stamp).2 := by
  unfold Home.skipUpdate
  dsimp only
  split
  · exact .refl home
  · split
    · exact .refl home
    · split
      · exact .refl home
      · exact .refl home
      · obtain ⟨hrecent, hcommanded⟩ := changeUpdate_same
          { home with skipped := home.skipped.insert _ _, skipsChanged := true } id context stamp _
        exact ⟨hrecent, hcommanded⟩

lemma clearSkippedUpdate_same (id : EntityId) (context : Context) (stamp : Stamp) :
    SameCalls home (home.clearSkippedUpdate id context stamp).2 := by
  unfold Home.clearSkippedUpdate
  split
  · exact .refl home
  · next key _ =>
    obtain ⟨hrecent, hcommanded⟩ := changeUpdate_same
      { home with
        skipped := home.skipped.erase key
        skipsChanged := home.skipped.contains key || home.skipsChanged } id context stamp _
    exact ⟨hrecent, hcommanded⟩

lemma beginUpdate_same (id : EntityId) (stamp : Stamp) :
    SameCalls home (home.beginUpdate id stamp).2 :=
  changeUpdate_same home id _ stamp _

/-- Whatever a protocol tells, the calls remembered stay, and what an entity was told to be is
forgotten exactly where the entity is heard of. -/
theorem perform_forgets [DecidableEq κ] [DecidableEq σ] (kinds : Kinds κ σ) {op : HomeOp κ σ}
    (hsender : op.sender.isSome = true) {result : Except Rejected (List (Event κ σ))}
    {next : Home κ σ} (h : home.perform kinds op = some (result, next)) :
    Forgets home next fun id => hears home op result next id = true := by
  cases op with
  | describeDevice protocol description =>
    exact (describeDevice_same home kinds protocol description h).forgets fun _ hid => (nomatch hid)
  | describeEntity protocol listed description stamp =>
    have hforgets := describeEntity_forgets home kinds protocol listed description stamp h
    simpa only [hears, Bool.and_eq_true, beq_iff_eq, decide_eq_true_eq] using hforgets
  | removeDevice protocol uniqueId => exact removeDevice_forgets home (Option.some.inj h)
  | removeEntity protocol uniqueId =>
    have hforgets := removeEntity_forgets home (Option.some.inj h)
    simpa only [hears, List.contains_iff_mem] using hforgets
  | reportState protocol report stamp => exact reportState_forgets home kinds protocol report stamp h
  | setAvailability protocol target availability stamp =>
    have hsame := setAvailability_same home protocol target availability stamp
    rw [Option.some.inj h] at hsame
    exact hsame.forgets fun _ hid => (nomatch hid)
  | _ => cases hsender

end Irori.Core
