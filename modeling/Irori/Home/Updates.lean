import Irori.Home.Home

/-!
# Updates

What the core adds to an update that no device keeps: the version someone chose to skip, and why
the last install didn't finish. A protocol reports what the device says; this folds the rest in.
-/

namespace Irori.Core

variable {κ σ : Type}

def stopped : String := "It stopped before the new version was installed."

structure Skip where
  protocol : ProtocolId
  uniqueId : UniqueId
  version : String

/-- The longest text kept from a device about an update, and the longest link. -/
def textMax : Nat := 255
def linkMax : Nat := 2048

def cleanText (text : Option String) : Option String :=
  (text.map fun text => String.ofList ((trim text).toList.take textMax)).filter
    fun text => !text.isEmpty

def cleanLink (url : Option String) : Option String :=
  url.filter fun url => url.utf8ByteSize ≤ linkMax &&
    ("https://".toList.isPrefixOf url.toList || "http://".toList.isPrefixOf url.toList) &&
    !url.toList.any isWhitespace

def clean (update : UpdateState) : UpdateState :=
  { update with
    skippedVersion := none
    installedVersion := cleanText update.installedVersion
    latestVersion := cleanText update.latestVersion
    title := cleanText update.title
    releaseSummary := cleanText update.releaseSummary
    lastError := cleanText update.lastError
    releaseUrl := cleanLink update.releaseUrl }

/-- What the protocol says went wrong, when it isn't installing. -/
def told (reported : UpdateState) : Option String :=
  reported.lastError.filter fun _ => !reported.inProgress

/-- Whether the version passed over is still the one on offer, has been left behind by a newer
one, or can't be told. -/
inductive SkipVerdict
  | kept
  | forgotten
  | silent
  deriving DecidableEq

def skipVerdict (skipped latest : Option String) : SkipVerdict :=
  if skipped.isNone then .silent
  else if latest = skipped then .kept
  else if latest.isSome then .forgotten
  else .silent

/-- Why the last install didn't finish, as far as the core can work it out. -/
def workedOut (old new : UpdateState) (told : Option String) : Option String :=
  if new.inProgress then none
  else if told.isSome then none
  else if old.inProgress && old.installedVersion == new.installedVersion &&
      UpdateState.differs new.installedVersion new.latestVersion then some stopped
  else if old.installedVersion = new.installedVersion then old.lastError
  else none

/-- What the device said, with what the core knows folded in, and the version passed over, forgotten
once the device has a newer one. -/
def fold (old : Option UpdateState) (reported : UpdateState) (skipped : Option String) :
    UpdateState × Option String :=
  let new := { reported with skippedVersion := none, lastError := none }
  let verdict := skipVerdict skipped new.latestVersion
  let new := if verdict = .kept then { new with skippedVersion := skipped, available := false }
    else new
  let lastError := (told reported).or (old.bind fun old => workedOut old new (told reported))
  ({ new with lastError }, if verdict = .forgotten then none else skipped)

namespace Home

variable (home : Home κ σ)

def update (id : EntityId) : Option UpdateState :=
  match (home.states[id]?).bind EntityState.state with
  | some (.update update) => some update
  | _ => none

def foldUpdate (id : EntityId) (key : Key) (reported : UpdateState) : State σ × Home κ σ :=
  let skipped := home.skipped[key]?
  let (new, left) := fold (home.update id) reported skipped
  (.update new,
    if skipped.isSome ∧ left.isNone then
      { home with skipped := home.skipped.erase key, skipsChanged := true }
    else home)

def changeUpdate (id : EntityId) (context : Context) (stamp : Stamp)
    (change : UpdateState → UpdateState) : Changes κ σ :=
  match home.states[id]? with
  | none => ([], home)
  | some old =>
    match old.state with
    | some (.update update) =>
      let updated := change update
      if updated = update then ([], home)
      else
        let now := max stamp.now old.lastUpdated
        let new := { old with
          state := some (.update updated)
          lastUpdated := now
          lastChanged := if updated.available = update.available then old.lastChanged else now
          context }
        ([.stateChanged id (some old) new], { home with states := home.states.insert id new })
    | _ => ([], home)

/-- Passes over the version on offer: it stops counting as available until a newer one comes. -/
def skipUpdate (id : EntityId) (context : Context) (stamp : Stamp) :
    Except Rejected (List (Event κ σ)) × Home κ σ :=
  let refuse (what : String) : Except Rejected (List (Event κ σ)) × Home κ σ :=
    (.error ⟨"`" ++ id.text ++ "` " ++ what⟩, home)
  match home.update id with
  | none => refuse "hasn't said what version it has"
  | some update =>
    if update.inProgress then refuse "is installing; there's nothing to skip"
    else
      match update.latestVersion.filter (fun _ => update.available), home.entityKey id with
      | none, _ => refuse "has no update to skip"
      | some _, none => refuse "isn't here any more"
      | some version, some key =>
        let home := { home with skipped := home.skipped.insert key version, skipsChanged := true }
        let (events, home) := home.changeUpdate id context stamp fun update =>
          { update with skippedVersion := some version, available := false }
        (.ok events, home)

def clearSkippedUpdate (id : EntityId) (context : Context) (stamp : Stamp) : Changes κ σ :=
  match home.entityKey id with
  | none => ([], home)
  | some key =>
    let home := { home with
      skipped := home.skipped.erase key
      skipsChanged := home.skipped.contains key || home.skipsChanged }
    home.changeUpdate id context stamp fun update =>
      { update with
        skippedVersion := none
        available := UpdateState.differs update.installedVersion update.latestVersion }

def beginUpdate (id : EntityId) (stamp : Stamp) : Changes κ σ :=
  home.changeUpdate id (systemContext stamp) stamp fun update => { update with lastError := none }

/-- An install didn't happen, as far as the core can tell. -/
def failUpdate (id : EntityId) (why : String) (stamp : Stamp) : Changes κ σ :=
  home.changeUpdate id (systemContext stamp) stamp fun update =>
    { update with lastError := some why, inProgress := false, progress := none }

/-- The skipped versions, when they've changed since this was last asked: what to store. -/
def skipsToStore : Option (List Skip) × Home κ σ :=
  (if home.skipsChanged then
      some (home.skipped.toList.map fun (key, version) => ⟨key.protocol, key.uniqueId, version⟩)
    else none,
    { home with skipsChanged := false })

/-- The skipped versions as they were stored, before any protocol has reported. -/
def restoreSkips (skips : List Skip) : Home κ σ :=
  { home with
    skipped := skips.foldl
      (fun kept skip => kept.insert ⟨skip.protocol, skip.uniqueId⟩ skip.version) ∅ }

end Home

end Irori.Core
