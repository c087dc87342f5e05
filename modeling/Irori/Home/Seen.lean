import Irori.Home.Reach

/-!
# The home as one person has it

How much of the home a person has, what is shown of each list, and of the plan of the home: its
walls, the openings in them, and where the rooms and devices are.
-/

namespace Irori.Core

variable {κ σ : Type}

structure Point where
  x : Int
  y : Int
  deriving DecidableEq

inductive OpeningKind
  | door
  | window
  deriving DecidableEq

inductive Side
  | left
  | right
  deriving DecidableEq

inductive Hinge
  | near
  | far
  | overhead
  deriving DecidableEq

structure Opening where
  kind : OpeningKind
  at_ : Int
  width : Nat
  side : Side
  hinge : Hinge
  sensor : Option EntityId
  deriving DecidableEq

structure Wall where
  start : Point
  stop : Point
  thickness : Nat
  openings : List Opening
  deriving DecidableEq

inductive Tint
  | ember | moss | slate | sand | plum | teal | rose | sky | olive | stone
  deriving DecidableEq

structure PlacedArea where
  area : AreaId
  points : List Point
  label : Point
  tint : Option Tint
  deriving DecidableEq

inductive Glyph
  | bulb | lamp | ceilingLight | lightStrip | spotlight | chandelier | outdoorLight | plug
  | switch | outlet | fan | tv | speaker | remote | computer | router | gameConsole | camera
  | doorbell | bell | lock | alarm | siren | motion | person | vibration | door | window
  | garageDoor | gate | blind | curtain | thermostat | temperature | humidity | radiator
  | airConditioner | air | smoke | leak | valve | waterHeater | sprinkler | plant | washer
  | dishwasher | fridge | oven | kettle | coffee | vacuum | mower | battery | solar | charger
  | energy | sun | bed | pet | button | dot
  deriving DecidableEq

structure PlacedDevice where
  device : Option DeviceId
  entity : Option EntityId
  at_ : Point
  facing : Option Nat
  fieldOfView : Option Nat
  copy : Bool
  icon : Option Glyph
  deriving DecidableEq

structure Level where
  walls : List Wall
  areas : List PlacedArea
  devices : List PlacedDevice
  deriving DecidableEq

abbrev Floorplan := Map FloorId Level

inductive Reach
  /-- All of it: an owner, a user with no rooms listed, and anybody in an open home. -/
  | whole
  | rooms (rooms : Rooms)
  deriving DecidableEq

inductive Thing
  | area (id : AreaId)
  | floor (id : FloorId)
  | device (id : DeviceId)
  | entity (id : EntityId)
  deriving DecidableEq

def Thing.mark : Thing → String
  | .area id => "a:" ++ id.text
  | .floor id => "f:" ++ id.text
  | .device id => "d:" ++ id.text
  | .entity id => "e:" ++ id.text

def Rooms.has (rooms : Rooms) : Thing → Bool
  | .area id => id ∈ rooms.areas
  | .floor id => id ∈ rooms.floors
  | .device id => id ∈ rooms.devices
  | .entity id => id ∈ rooms.entities

namespace Reach

/-- Nothing at all: somebody who isn't anybody. -/
def nothing : Reach := .rooms ⟨∅, ∅, ∅, ∅⟩

def isWhole : Reach → Bool
  | .whole => true
  | .rooms _ => false

def sees : Reach → Thing → Bool
  | .whole, _ => true
  | .rooms held, thing => held.has thing

/-- Everything they have, or nothing for the whole home. -/
def marks : Reach → Option (Finset String)
  | .whole => none
  | .rooms held => some
      (held.areas.image (fun id => (Thing.area id).mark) ∪
        held.floors.image (fun id => (Thing.floor id).mark) ∪
        held.devices.image (fun id => (Thing.device id).mark) ∪
        held.entities.image fun id => (Thing.entity id).mark)

variable (reach : Reach)

/-- They see the device; the rest of the wiring is the owner's. -/
def shown (device : Device) : Device :=
  { device with
    viaDeviceId :=
      if device.viaDeviceId.any fun via => !reach.sees (.device via) then none
      else device.viaDeviceId
    suggestedArea := none }

def devices (devices : List Device) : List Device :=
  if reach.isWhole then devices
  else (devices.filter fun device => reach.sees (.device device.id)).map reach.shown

def entities (entities : List (Entity κ)) : List (Entity κ) :=
  if reach.isWhole then entities
  else entities.filter fun entity => reach.sees (.entity entity.id)

def states (states : List (EntityState σ)) : List (EntityState σ) :=
  if reach.isWhole then states
  else states.filter fun state => reach.sees (.entity state.entityId)

def areas (areas : List Area) : List Area :=
  if reach.isWhole then areas else areas.filter fun area => reach.sees (.area area.id)

def floors (floors : List Floor) : List Floor :=
  if reach.isWhole then floors else floors.filter fun floor => reach.sees (.floor floor.id)

def seesPlaced (placed : PlacedDevice) : Bool :=
  match placed.device, placed.entity with
  | some device, _ => reach.sees (.device device)
  | none, some entity => reach.sees (.entity entity)
  | none, none => false

/-- The walls of a floor they have a room on stay: a wall is structure, not a thing in the home. -/
def level (level : Level) : Level :=
  { level with
    areas := level.areas.filter fun placed => reach.sees (.area placed.area)
    devices := level.devices.filter reach.seesPlaced }

/-- The plan with only their floors, their rooms' shapes, and their things on it. -/
def floorplan (plan : Floorplan) : Floorplan :=
  if reach.isWhole then plan
  else plan.filterMap fun id level =>
    if reach.sees (.floor id) then some (reach.level level) else none

end Reach

def Floor.before (a b : Floor) : Prop := a.level < b.level ∨ (a.level = b.level ∧ a.id ≤ b.id)

instance (a b : Floor) : Decidable (a.before b) := inferInstanceAs (Decidable (_ ∨ _))

structure Seen (κ σ : Type) where
  home : Home κ σ
  plan : Floorplan
  reach : Reach

namespace Seen

variable (seen : Seen κ σ)

def devices : List Device := seen.reach.devices (Map.vals seen.home.devices)

def device (id : DeviceId) : Option Device := seen.devices.find? fun device => device.id == id

def entities : List (Entity κ) := seen.reach.entities (Map.vals seen.home.entities)

def entity (id : EntityId) : Option (Entity κ) :=
  if seen.reach.sees (.entity id) then seen.home.entities[id]? else none

def states : List (EntityState σ) := seen.reach.states (Map.vals seen.home.states)

def state (id : EntityId) : Option (EntityState σ) :=
  if seen.reach.sees (.entity id) then seen.home.states[id]? else none

def areas : List Area := seen.reach.areas seen.home.settings.areas

def floors : List Floor := seen.reach.floors (seen.home.settings.floors.insertionSort Floor.before)

def floorplan : Floorplan := seen.reach.floorplan seen.plan

end Seen

end Irori.Core
