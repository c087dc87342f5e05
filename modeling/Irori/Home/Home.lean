import Irori.Home.Types

/-!
# The home

The registry (what exists) and live state (what it's doing), and what devices and entities are
called and where they are.
-/

namespace Irori.Core

variable {κ σ : Type}

def systemProtocol : String := "irori"

/-- A device a protocol has found that isn't in the home: what its protocol says about it is kept,
so adding the device puts it in as it is now. -/
structure Found (κ σ : Type) where
  protocol : ProtocolId
  description : DeviceDescription
  entities : Map UniqueId (List EntityKind × EntityDescription κ)
  reports : Map UniqueId (StateReport σ)
  available : Bool

structure Home (κ σ : Type) where
  devices : Map DeviceId Device
  deviceKeys : Map Key DeviceId
  entities : Map EntityId (Entity κ)
  entityKeys : Map Key EntityId
  states : Map EntityId (EntityState σ)
  /-- What each protocol calls its devices, whatever a person calls them. -/
  reportedDeviceNames : Map DeviceId Name
  /-- The same for entities. One that isn't here uses its device's name. -/
  reportedEntityNames : Map EntityId Name
  settings : Settings
  deviceDescriptions : Map DeviceId DeviceDescription
  entityDescriptions : Map EntityId (List EntityKind × EntityDescription κ)
  found : Map DeviceId (Found κ σ)
  /-- Which found device each of their entities belongs to. -/
  foundEntities : Map Key DeviceId
  /-- What the core last told an entity to be, until the device reports back. -/
  commanded : Map EntityId Typed
  /-- The version of each update someone chose to pass over. -/
  skipped : Map Key String
  skipsChanged : Bool
  recentCalls : Map ProtocolId (List (ContextId × Timestamp))

/-- What an operation answers, and the home it leaves. Nothing where the code panics. -/
abbrev Outcome (κ σ : Type) := Option (Except Rejected (List (Event κ σ)) × Home κ σ)

abbrev Changes (κ σ : Type) := List (Event κ σ) × Home κ σ

def Outcome.quiet (outcome : Outcome κ σ) : Option (Changes κ σ) :=
  outcome.map fun (result, home) => (result.toOption.getD [], home)

/-- One operation after the other, with all they tell. -/
def sweep {α : Type} (step : α → Home κ σ → Option (Changes κ σ)) :
    List α → Changes κ σ → Option (Changes κ σ)
  | [], changes => some changes
  | a :: rest, (events, home) =>
    match step a home with
    | none => none
    | some (more, home) => sweep step rest (events ++ more, home)

def Device.key (device : Device) : Key := ⟨device.protocol, device.uniqueId⟩

def Entity.key (entity : Entity κ) : Key := ⟨entity.protocol, entity.uniqueId⟩

namespace Home

def new : Home κ σ where
  devices := ∅
  deviceKeys := ∅
  entities := ∅
  entityKeys := ∅
  states := ∅
  reportedDeviceNames := ∅
  reportedEntityNames := ∅
  settings := Settings.empty
  deviceDescriptions := ∅
  entityDescriptions := ∅
  found := ∅
  foundEntities := ∅
  commanded := ∅
  skipped := ∅
  skipsChanged := false
  recentCalls := ∅

variable (home : Home κ σ)

def isHeld (protocol : ProtocolId) (id : DeviceId) : Bool :=
  protocol.text != systemProtocol && home.settings.askBeforeAdding &&
    !home.settings.devices.contains id

def entityKey (id : EntityId) : Option Key := (home.entities[id]?).map Entity.key

def owned (id : DeviceId) : List (Entity κ) :=
  (Map.vals home.entities).filter fun entity => entity.deviceId == some id

/-- What a device is called: the name a person gave it, else the one its protocol reports. -/
def nameForDevice (id : DeviceId) (reported : Name) : Name :=
  ((home.settings.devices[id]?).bind DeviceSettings.name).getD reported

def descriptionForDevice (id : DeviceId) : Option Description :=
  (home.settings.devices[id]?).bind DeviceSettings.description

end Home

/-- Where a device ends up: what a person said, else what the device suggests. -/
def placed (kinds : Kinds κ σ) (settings : Settings) (chosen : Placement)
    (suggested : Option Name) : Option AreaId :=
  match chosen with
  | .within area => (settings.area area).map Area.id
  | .nowhere => none
  | .unsaid => (suggested.bind (settings.areaNamed kinds)).map Area.id

namespace Home

variable (home : Home κ σ)

def areaForDevice (kinds : Kinds κ σ) (id : DeviceId) (suggested : Option Name) : Option AreaId :=
  placed kinds home.settings (((home.settings.devices[id]?).map DeviceSettings.area).getD .unsaid)
    suggested

def chosenName (key : Key) : Option Name :=
  (home.settings.entities[key]?).bind EntitySettings.name

/-- What an entity is called: the name a person gave it, else the one its protocol reports, else
its device's name. Nothing where the code panics: a nameless entity without its device. -/
def nameForEntity (id : EntityId) (deviceId : Option DeviceId) : Option Name :=
  match (home.entityKey id).bind home.chosenName with
  | some chosen => some chosen
  | none =>
    match home.reportedEntityNames[id]? with
    | some reported => some reported
    | none => (deviceId.bind (home.devices[·]?)).map Device.name

def renameEntity (deviceId : Option DeviceId) (id : EntityId) : Option (Changes κ σ) :=
  match home.nameForEntity id deviceId, home.entities[id]? with
  | some name, some entity =>
    if entity.name = name then some ([], home)
    else
      let entity := { entity with name }
      some ([.entityUpdated entity], { home with entities := home.entities.insert id entity })
  | _, _ => none

end Home

def systemContext (stamp : Stamp) : Context := ⟨stamp.contextId, none, .system⟩

def deviceContext (protocol : ProtocolId) (stamp : Stamp) (parent : Option ContextId) : Context :=
  ⟨stamp.contextId, parent, .device protocol⟩

/-- How long a delivered service call can be named as a cause: five minutes. -/
def callWindow : Int := 5 * 60 * 1000000000

/-- Past this many calls within the window, the oldest are forgotten. -/
def maxRecentCalls : Nat := 1024

def withinCallWindow (calledAt now : Timestamp) : Bool :=
  -callWindow ≤ now - calledAt && now - calledAt ≤ callWindow

end Irori.Core
