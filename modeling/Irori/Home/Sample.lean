import Irori.Home.Calls

/-!
# A home to try things on

Two kinds of entity, switches and updates, and the devices, entities and settings of a small home.
-/

namespace Irori.Core.Sample

inductive Ability
  | switch
  | update
  deriving DecidableEq

abbrev On := Bool

def kinds : Kinds Ability On where
  kind
    | .switch => .switch
    | .update => .update
  validate _ := .ok ()
  stateKind _ := .switch
  validateState _ := .ok ()
  fits _ _ := .ok ()
  toLowercase := fun text => text.toLower
  display := fun q => toString q

def demo : ProtocolId := ⟨"demo", by decide⟩

def hub : ProtocolId := ⟨"a", by decide⟩
def hubB : ProtocolId := ⟨"a_b", by decide⟩

def colon : UniqueId := ⟨"b:c", by decide⟩
def plain : UniqueId := ⟨"c", by decide⟩

def deviceA : UniqueId := ⟨"a", by decide⟩
def deviceB : UniqueId := ⟨"b", by decide⟩
def relay : UniqueId := ⟨"relay", by decide⟩
def lamp : Name := ⟨"Lamp", by decide⟩
def desk : Name := ⟨"Desk", by decide⟩

def stamp : Stamp := ⟨0, ulid 0 0⟩

def described (uniqueId : UniqueId) : DeviceDescription :=
  { uniqueId
    name := lamp
    manufacturer := none
    model := none
    swVersion := none
    hwVersion := none
    serialNumber := none
    suggestedArea := none
    viaDeviceUniqueId := none }

def nameless (uniqueId device : UniqueId) (capabilities : Ability) : EntityDescription Ability :=
  { uniqueId
    name := none
    deviceUniqueId := some device
    suggestedObjectId := none
    capabilities
    entityCategory := none }

def updateId : EntityId := ⟨"update.demo_a", by decide⟩

def offered (latestVersion : String) (causedBy : Option ContextId) : StateReport On :=
  { uniqueId := relay
    state := some (.update
      { available := true
        installedVersion := some "1"
        latestVersion := some latestVersion
        inProgress := false
        progress := none
        title := none
        releaseSummary := none
        releaseUrl := none
        skippedVersion := none
        lastError := none })
    attributes := ∅
    causedBy
    replayed := false }

/-- Settings under which the devices `added` are in the home, and no other unless `ask` is false. -/
def asking (ask : Bool) (added : List DeviceId) : Settings :=
  { Settings.empty with
    devices := added.foldl (fun devices id => devices.insert id ⟨none, none, .unsaid, true⟩) ∅
    askBeforeAdding := ask }

def lampId : EntityId := ⟨"switch.demo_a", by decide⟩

def services : Services Ability On Bool where
  hasServices kind := kind == .switch
  toggle _ current := some (if current = some (.bool true) then "turn_off" else "turn_on")
  named _ action := if action = "turn_on" ∨ action = "turn_off" then some action else none
  ofData name _ := .ok (name == "turn_on")
  stepped _ _ _ := none
  numberSetValue _ := false
  supports _ _ := .ok ()
  asksFor on := some (.bool on)
  primary
    | .other on => .bool on
    | .update _ => .bool false
  care _ := .sent

def cause (n : Nat) : Context := ⟨ulid 0 n, none, .system⟩

def lampThere : List (CallStep Ability On) :=
  [.told (.describeDevice demo (described deviceA)),
    .told (.describeEntity demo [.switch] (nameless relay deviceA .switch) stamp)]

def asks (k : Nat) (action : String) (context : Context) : List (CallStep Ability On) :=
  [.begins lampId ⟨action, []⟩ context, .getsTurn k, .resolves k none stamp, .dispatches k true 0,
    .checks k]

def leaves (k : Nat) : List (CallStep Ability On) := [.givesTurn k, .releases k, .drops k]

def isNow (on : On) (causedBy : Option ContextId) : CallStep Ability On :=
  .told (.reportState demo
    { uniqueId := relay, state := some (.other on), attributes := ∅, causedBy, replayed := false }
    stamp)

end Irori.Core.Sample
