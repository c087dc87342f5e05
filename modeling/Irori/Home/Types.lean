import Irori.Home.Ids

/-!
# The registry and what is said about it

What exists in a home, what protocols say about it, and what a person has said. The kinds of
entity are a parameter: what each can do, and what its values are.
-/

namespace Irori

mutual

theorem Json.eq_iff : ∀ a b : Json, Json.eq a b = true ↔ a = b
  | .null, b => by cases b <;> simp [Json.eq]
  | .bool x, b => by cases b <;> simp [Json.eq]
  | .number x, b => by cases b <;> simp [Json.eq]
  | .string x, b => by cases b <;> simp [Json.eq]
  | .array xs, b => by
    cases b with
    | array ys => simp [Json.eq, Json.eqItems_iff xs ys]
    | _ => simp [Json.eq]
  | .object xs, b => by
    cases b with
    | object ys => simp [Json.eq, Json.eqEntries_iff xs ys]
    | _ => simp [Json.eq]

theorem Json.eqItems_iff : ∀ as bs : List Json, Json.eqItems as bs = true ↔ as = bs
  | [], bs => by cases bs <;> simp [Json.eqItems]
  | a :: as, bs => by
    cases bs with
    | nil => simp [Json.eqItems]
    | cons b bs => simp [Json.eqItems, Json.eq_iff a b, Json.eqItems_iff as bs]

theorem Json.eqEntries_iff :
    ∀ as bs : List (String × Json), Json.eqEntries as bs = true ↔ as = bs
  | [], bs => by cases bs <;> simp [Json.eqEntries]
  | (k, a) :: as, bs => by
    cases bs with
    | nil => simp [Json.eqEntries]
    | cons b bs => simp [Json.eqEntries, Json.eq_iff a b.2, Json.eqEntries_iff as bs, Prod.ext_iff]

end

instance : LawfulBEq Json where
  eq_of_beq h := (Json.eq_iff _ _).mp h
  rfl := (Json.eq_iff _ _).mpr rfl

instance : DecidableEq Json := fun a b => decidable_of_iff _ (Json.eq_iff a b)

namespace Core

structure UpdateState where
  /-- A newer version than the installed one is there to install, and it isn't the skipped one. -/
  available : Bool
  installedVersion : Option String
  latestVersion : Option String
  inProgress : Bool
  progress : Option ℚ
  title : Option String
  releaseSummary : Option String
  releaseUrl : Option String
  /-- The version someone chose to pass over. The core sets it; a protocol's is ignored. -/
  skippedVersion : Option String
  lastError : Option String
  deriving DecidableEq

namespace UpdateState

def isSkipped (update : UpdateState) : Bool :=
  update.skippedVersion.isSome && update.skippedVersion == update.latestVersion

/-- Whether there is a newer version, skipped or not. -/
def differs : Option String → Option String → Bool
  | some installed, some latest => installed != latest
  | _, _ => false

end UpdateState

/-- A typed value: an update's, or one of another kind. -/
inductive State (σ : Type)
  | update (update : UpdateState)
  | other (value : σ)
  deriving DecidableEq

/-- What the registry asks of the kinds of entity, their abilities `κ` and values `σ`, and of
Unicode and decimal numbers. -/
structure Kinds (κ σ : Type) where
  kind : κ → EntityKind
  validate : κ → Except String Unit
  stateKind : σ → EntityKind
  validateState : σ → Except String Unit
  fits : κ → State σ → Except String Unit
  toLowercase : String → String
  display : ℚ → String

variable {κ σ : Type}

def UpdateState.validate (kinds : Kinds κ σ) (update : UpdateState) : Except String Unit :=
  let skipped : Except String Unit :=
    if update.available && update.skippedVersion.isSome && update.isSkipped then
      .error "a skipped version isn't available; clear the skip first"
    else .ok ()
  match update.progress with
  | none => skipped
  | some progress =>
    if ¬ (0 ≤ progress ∧ progress ≤ 100) then
      .error ("progress is 0-100%, not " ++ kinds.display progress)
    else if ¬ update.inProgress then
      .error "progress is only there while an install is in progress"
    else skipped

namespace State

def kind (kinds : Kinds κ σ) : State σ → EntityKind
  | update _ => .update
  | other value => kinds.stateKind value

def validate (kinds : Kinds κ σ) : State σ → Except String Unit
  | update value => value.validate kinds
  | other value => kinds.validateState value

end State

def Kinds.fit (kinds : Kinds κ σ) (capabilities : κ) (state : State σ) : Except String Unit :=
  if kinds.kind capabilities ≠ state.kind kinds then
    .error ("it's a " ++ (kinds.kind capabilities).domain ++ ", but the report is for a " ++
      (state.kind kinds).domain)
  else kinds.fits capabilities state

structure Floor where
  id : FloorId
  name : Name
  level : Int
  deriving DecidableEq

structure Area where
  id : AreaId
  name : Name
  floorId : Option FloorId
  deriving DecidableEq

structure Device where
  id : DeviceId
  protocol : ProtocolId
  uniqueId : UniqueId
  name : Name
  description : Option Description
  manufacturer : Option String
  model : Option String
  swVersion : Option String
  hwVersion : Option String
  serialNumber : Option String
  areaId : Option AreaId
  suggestedArea : Option Name
  viaDeviceId : Option DeviceId
  deriving DecidableEq

inductive EntityCategory
  | config
  | diagnostic
  deriving DecidableEq

structure Entity (κ : Type) where
  id : EntityId
  protocol : ProtocolId
  uniqueId : UniqueId
  name : Name
  deviceId : Option DeviceId
  areaId : Option AreaId
  capabilities : κ
  entityCategory : Option EntityCategory
  deriving DecidableEq

inductive Origin
  | device (protocol : ProtocolId)
  | user (userId : UserId)
  | automation (extension : ExtensionId) (runId : ContextId)
  | api (tokenId : TokenId)
  | system
  deriving DecidableEq

structure Context where
  id : ContextId
  parentId : Option ContextId
  origin : Origin
  deriving DecidableEq

abbrev Attributes := Map AttributeKey Json

structure EntityState (σ : Type) where
  entityId : EntityId
  availability : Availability
  /-- The typed value, or `none` if the entity has never reported one. -/
  state : Option (State σ)
  attributes : Attributes
  lastChanged : Timestamp
  lastUpdated : Timestamp
  lastReported : Timestamp
  context : Context
  deriving DecidableEq

structure DeviceDescription where
  uniqueId : UniqueId
  name : Name
  manufacturer : Option String
  model : Option String
  swVersion : Option String
  hwVersion : Option String
  serialNumber : Option String
  suggestedArea : Option Name
  /-- The handle of the bridge or hub this device is reached through. -/
  viaDeviceUniqueId : Option UniqueId
  deriving DecidableEq

def DeviceDescription.validate (d : DeviceDescription) : Except String Unit :=
  if d.viaDeviceUniqueId = some d.uniqueId then
    .error ("device `" ++ d.uniqueId.text ++
      "` can't be reached via itself (via_device_unique_id is its own unique_id)")
  else .ok ()

structure EntityDescription (κ : Type) where
  uniqueId : UniqueId
  name : Option Name
  deviceUniqueId : Option UniqueId
  suggestedObjectId : Option ObjectId
  capabilities : κ
  entityCategory : Option EntityCategory
  deriving DecidableEq

namespace EntityDescription

def validate (kinds : Kinds κ σ) (d : EntityDescription κ) : Except String Unit :=
  if d.name.isNone ∧ d.deviceUniqueId.isNone then
    .error ("entity `" ++ d.uniqueId.text ++ "` has no name, so it must belong to a device " ++
      "(set `device_unique_id`) whose name it uses")
  else
    match kinds.validate d.capabilities with
    | .error e => .error ("entity `" ++ d.uniqueId.text ++ "`: " ++ e)
    | .ok () => .ok ()

def kind (kinds : Kinds κ σ) (d : EntityDescription κ) : EntityKind := kinds.kind d.capabilities

end EntityDescription

structure StateReport (σ : Type) where
  uniqueId : UniqueId
  /-- The typed value, or `none` if the device doesn't know it. -/
  state : Option (State σ)
  attributes : Attributes
  causedBy : Option ContextId
  /-- The protocol is repeating what it last heard rather than hearing something new. -/
  replayed : Bool
  deriving DecidableEq

def StateReport.validate (kinds : Kinds κ σ) (report : StateReport σ) : Except String Unit :=
  match report.state with
  | none => .ok ()
  | some state =>
    match state.validate kinds with
    | .error e => .error ("entity `" ++ report.uniqueId.text ++ "`: " ++ e)
    | .ok () => .ok ()

inductive AvailabilityTarget
  | device (uniqueId : UniqueId)
  | entities (uniqueIds : List UniqueId)

structure Rejected where
  text : String
  deriving DecidableEq

inductive Placement
  | unsaid
  | nowhere
  | within (area : AreaId)
  deriving DecidableEq

structure DeviceSettings where
  name : Option Name
  description : Option Description
  area : Placement
  added : Bool
  deriving DecidableEq

structure EntitySettings where
  name : Option Name
  deriving DecidableEq

structure Settings where
  floors : List Floor
  areas : List Area
  /-- The plan as it is drawn, as the text of its file: the core only compares it. -/
  floorplan : String
  devices : Map DeviceId DeviceSettings
  entities : Map Key EntitySettings
  askBeforeAdding : Bool
  deriving DecidableEq

def trim (text : String) : String :=
  String.ofList ((text.toList.dropWhile isWhitespace).rdropWhile isWhitespace)

namespace Settings

def empty : Settings := ⟨[], [], "", ∅, ∅, false⟩

def area (settings : Settings) (id : AreaId) : Option Area :=
  settings.areas.find? fun area => area.id == id

def areaNamed (kinds : Kinds κ σ) (settings : Settings) (name : Name) : Option Area :=
  let wanted := kinds.toLowercase (trim name.text)
  settings.areas.find? fun area => kinds.toLowercase (trim area.name.text) == wanted

end Settings

inductive Event (κ σ : Type)
  | stateChanged (entityId : EntityId) (oldState : Option (EntityState σ))
      (newState : EntityState σ)
  | deviceAdded (device : Device)
  | deviceUpdated (device : Device)
  | deviceRemoved (deviceId : DeviceId)
  | entityAdded (entity : Entity κ)
  | entityUpdated (entity : Entity κ)
  | entityRemoved (entityId : EntityId)
  | settingsChanged
  | foundChanged

/-- When an operation happens, and the id for the context it creates if it changes something. -/
structure Stamp where
  now : Timestamp
  contextId : ContextId

end Core

end Irori
