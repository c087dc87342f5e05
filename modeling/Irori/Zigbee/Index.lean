import Irori.Home.Ids
import Irori.Lib.Map
import Mathlib.Data.List.Destutter

/-!
# Which topic belongs to which entity

What the Zigbee protocol keeps of the broker's discovery configs: its entities and the indexes by
topic, from the extension's `lib`, over the topics an entity has, from the discovery crate's `state`
and `kinds`. Of an entity's topics it has those that come in; how a payload is read is a parameter.
-/

namespace Irori.Zigbee

structure Reading where
  topic : String
  deriving DecidableEq

/-- Something it's told and, when it says so, reads back. -/
structure Setting where
  state : Option Reading
  deriving DecidableEq

def stateOf (setting : Option Setting) : Option Reading := setting.bind Setting.state

inductive LightTopics
  | json (stateTopic : String)
  | default (stateTopic brightnessStateTopic : Option String)
  deriving DecidableEq

def LightTopics.listens : LightTopics → List String
  | .json stateTopic => [stateTopic]
  | .default stateTopic brightnessStateTopic => [stateTopic, brightnessStateTopic].reduceOption

structure TrackerTopics where
  stateTopic : Option String
  jsonAttributesTopic : Option String
  deriving DecidableEq

structure OpeningTopics where
  stateTopic : Option String
  positionTopic : Option String
  deriving DecidableEq

def OpeningTopics.listens (opening : OpeningTopics) : List String :=
  [opening.stateTopic, opening.positionTopic].reduceOption

structure CoverTopics where
  opening : OpeningTopics
  tiltStatusTopic : Option String
  deriving DecidableEq

def CoverTopics.listens (cover : CoverTopics) : List String :=
  cover.opening.listens ++ cover.tiltStatusTopic.toList

structure UpdateTopics where
  stateTopic : Option String
  latest : Option Reading
  failure : Option String
  deriving DecidableEq

def UpdateTopics.listens (update : UpdateTopics) : List String :=
  update.stateTopic.toList ++ (update.latest.map Reading.topic).toList ++ update.failure.toList

structure FanTopics where
  power : Setting
  speed : Option Setting
  preset : Option Setting
  oscillation : Option Setting
  direction : Option Setting
  deriving DecidableEq

def FanTopics.readings (fan : FanTopics) : List Reading :=
  [some fan.power, fan.speed, fan.preset, fan.oscillation, fan.direction].filterMap stateOf

structure ClimateTopics where
  mode : Option Setting
  temperature : Option Setting
  temperatureLow : Option Setting
  temperatureHigh : Option Setting
  targetHumidity : Option Setting
  fanMode : Option Setting
  swingMode : Option Setting
  presetMode : Option Setting
  currentTemperature : Option Reading
  currentHumidity : Option Reading
  action : Option Reading
  deriving DecidableEq

def ClimateTopics.readings (climate : ClimateTopics) : List Reading :=
  [climate.mode, climate.temperature, climate.temperatureLow, climate.temperatureHigh,
    climate.targetHumidity, climate.fanMode, climate.swingMode,
    climate.presetMode].filterMap stateOf ++
    [climate.currentTemperature, climate.currentHumidity, climate.action].reduceOption

structure WaterHeaterTopics where
  mode : Option Setting
  temperature : Option Setting
  currentTemperature : Option Reading
  deriving DecidableEq

def WaterHeaterTopics.readings (heater : WaterHeaterTopics) : List Reading :=
  [stateOf heater.mode, stateOf heater.temperature, heater.currentTemperature].reduceOption

structure HumidifierTopics where
  power : Setting
  target : Setting
  mode : Option Setting
  currentHumidity : Option Reading
  action : Option Reading
  deriving DecidableEq

def HumidifierTopics.readings (humidifier : HumidifierTopics) : List Reading :=
  [stateOf (some humidifier.power), stateOf (some humidifier.target), stateOf humidifier.mode,
    humidifier.currentHumidity, humidifier.action].reduceOption

inductive EntityTopics
  | light (topics : LightTopics)
  | switch (stateTopic : Option String)
  | sensor (stateTopic : String)
  | binarySensor (stateTopic : String)
  | number (stateTopic : Option String)
  | select (stateTopic : Option String)
  | text (stateTopic : Option String)
  | button
  | event (stateTopic : String)
  | cover (topics : CoverTopics)
  | lock (stateTopic : Option String)
  | alarmControlPanel (stateTopic : String)
  | moment (stateTopic : Option String)
  | vacuum (stateTopic : Option String)
  | lawnMower (activityStateTopic : Option String)
  | scene
  | deviceTracker (topics : TrackerTopics)
  | fan (topics : FanTopics)
  | valve (topics : OpeningTopics)
  | siren (stateTopic : Option String)
  | update (topics : UpdateTopics)
  | climate (topics : ClimateTopics)
  | waterHeater (topics : WaterHeaterTopics)
  | humidifier (topics : HumidifierTopics)
  deriving DecidableEq

def heardOn (topics : EntityTopics) : List String :=
  let readings : List Reading → List String := List.map Reading.topic
  match topics with
  | .light topics => topics.listens
  | .switch stateTopic | .number stateTopic | .select stateTopic | .text stateTopic
  | .lock stateTopic | .moment stateTopic | .vacuum stateTopic | .lawnMower stateTopic
  | .siren stateTopic => stateTopic.toList
  | .sensor stateTopic | .binarySensor stateTopic | .event stateTopic
  | .alarmControlPanel stateTopic => [stateTopic]
  | .deviceTracker topics => topics.stateTopic.toList ++ topics.jsonAttributesTopic.toList
  | .button | .scene => []
  | .cover topics => topics.listens
  | .valve topics => topics.listens
  | .update topics => topics.listens
  | .fan topics => readings topics.readings
  | .climate topics => readings topics.readings
  | .waterHeater topics => readings topics.readings
  | .humidifier topics => readings topics.readings

def topicsOf (uniqueId : UniqueId) (topics : EntityTopics) : List (String × UniqueId) :=
  let sorted := (heardOn topics).mergeSort fun a b => decide (a ≤ b)
  (sorted.destutter (· ≠ ·)).map fun topic => (topic, uniqueId)

structure Message (π : Type) where
  topic : String
  payload : π

section Decode

variable {π σ : Type}

def Message.on (message : Message π) (topic : Option String) : Bool := topic = some message.topic

def Message.onAny (message : Message π) (readings : List Reading) : Bool :=
  readings.any fun reading => reading.topic = message.topic

def hears (message : Message π) : EntityTopics → Bool
  | .light (.json stateTopic) => stateTopic = message.topic
  | .light (.default stateTopic brightnessStateTopic) =>
    message.on stateTopic || message.on brightnessStateTopic
  | .switch stateTopic | .number stateTopic | .select stateTopic | .text stateTopic
  | .lock stateTopic | .moment stateTopic | .vacuum stateTopic | .lawnMower stateTopic
  | .siren stateTopic => message.on stateTopic
  | .sensor stateTopic | .binarySensor stateTopic | .event stateTopic
  | .alarmControlPanel stateTopic => message.on (some stateTopic)
  | .deviceTracker tracker =>
    message.on tracker.stateTopic || message.on tracker.jsonAttributesTopic
  | .button | .scene => false
  | .cover cover =>
    message.on cover.tiltStatusTopic || cover.opening.listens.contains message.topic
  | .valve valve => valve.listens.contains message.topic
  | .update update =>
    message.on update.failure || message.on update.stateTopic ||
      message.on (update.latest.map Reading.topic)
  | .fan fan => message.onAny fan.readings
  | .climate climate => message.onAny climate.readings
  | .waterHeater heater => message.onAny heater.readings
  | .humidifier humidifier => message.onAny humidifier.readings

def decode (reads : EntityTopics → Message π → Option σ → Option (Except String σ))
    (topics : EntityTopics) (message : Message π) (previous : Option σ) :
    Option (Except String σ) :=
  if hears message topics then reads topics message previous else none

end Decode

structure AvailabilityTopic where
  topic : String
  payloadAvailable : String
  payloadNotAvailable : String

structure Listener where
  uniqueId : UniqueId
  payloadAvailable : String
  payloadNotAvailable : String

structure ParsedConfig where
  uniqueId : UniqueId
  device : Option UniqueId
  topics : EntityTopics
  availability : List AvailabilityTopic

structure Entity where
  device : Option UniqueId
  topics : EntityTopics

structure Registry where
  entities : Map UniqueId Entity
  configTopics : Map String UniqueId
  stateTopics : Map String (List UniqueId)
  availabilityTopics : Map String (List Listener)
  /-- The device each unpair that isn't answered yet is for, by its transaction. -/
  unpairs : Map String UniqueId

def Registry.empty : Registry := ⟨∅, ∅, ∅, ∅, ∅⟩

/-- Drops an entity from a topic's list, and the topic once its list is empty. -/
def unlist (uniqueId : UniqueId) (lists : Map String (List UniqueId)) (topic : String) :
    Map String (List UniqueId) :=
  match lists[topic]? with
  | none => lists
  | some ids =>
    let ids := ids.filter (· ≠ uniqueId)
    if ids.isEmpty then lists.erase topic else lists.insert topic ids

def push {α : Type} (lists : Map String (List α)) (topic : String) (item : α) :
    Map String (List α) :=
  lists.insert topic ((lists[topic]?).getD [] ++ [item])

def deindex (uniqueId : UniqueId) (oldTopics : EntityTopics) (registry : Registry) : Registry :=
  { registry with
    stateTopics := (topicsOf uniqueId oldTopics).foldl
      (fun lists (topic, _) => unlist uniqueId lists topic) registry.stateTopics
    availabilityTopics := (registry.availabilityTopics.map fun _ (listeners : List Listener) =>
      listeners.filter fun listener => listener.uniqueId ≠ uniqueId).filter
        fun _ listeners => !listeners.isEmpty
    configTopics := registry.configTopics.filter fun _ id => id ≠ uniqueId }

def forget (uniqueId : UniqueId) (registry : Registry) : Registry :=
  match registry.entities[uniqueId]? with
  | none => registry
  | some old =>
    deindex uniqueId old.topics { registry with entities := registry.entities.erase uniqueId }

def register (topic : String) (parsed : ParsedConfig) (registry : Registry) : Registry :=
  let uniqueId := parsed.uniqueId
  let registry := forget uniqueId registry
  { registry with
    stateTopics := (topicsOf uniqueId parsed.topics).foldl
      (fun lists (topic, id) => push lists topic id) registry.stateTopics
    availabilityTopics := parsed.availability.foldl
      (fun lists offered => push lists offered.topic
        ⟨uniqueId, offered.payloadAvailable, offered.payloadNotAvailable⟩)
      registry.availabilityTopics
    configTopics := registry.configTopics.insert topic uniqueId
    entities := registry.entities.insert uniqueId ⟨parsed.device, parsed.topics⟩ }

inductive Event
  /-- A discovery config came that isn't empty: what parsing makes of it, and whether the core takes
  the device and the entity it describes. -/
  | config (topic : String) (parsed : Except String ParsedConfig) (device entity : Bool)
  | cleared (topic : String)
  | unpair (transaction : String) (device : UniqueId)
  | response (transaction : Option String) (outcome : Except String Unit)

def describe (topic : String) (parsed : Except String ParsedConfig) (device entity : Bool)
    (registry : Registry) : Registry :=
  match parsed with
  | .error _ => registry
  | .ok parsed =>
    if parsed.device.isSome && !device then registry
    else if !entity then registry
    else register topic parsed registry

def clear (topic : String) (registry : Registry) : Registry :=
  match registry.configTopics[topic]? with
  | none => registry
  | some uniqueId =>
    forget uniqueId { registry with configTopics := registry.configTopics.erase topic }

def unpaired (transaction : Option String) (outcome : Except String Unit) (registry : Registry) :
    Registry :=
  match transaction.bind fun transaction => registry.unpairs[transaction]? with
  | none => registry
  | some device =>
    let registry := match transaction with
      | none => registry
      | some transaction => { registry with unpairs := registry.unpairs.erase transaction }
    match outcome with
    | .error _ => registry
    | .ok () =>
      let owned := (registry.entities.toList.filter fun entry => entry.2.device = some device).map
        Prod.fst
      owned.foldl (fun registry uniqueId => forget uniqueId registry) registry

def step (registry : Registry) : Event → Registry
  | .config topic parsed device entity => describe topic parsed device entity registry
  | .cleared topic => clear topic registry
  | .unpair transaction device =>
    { registry with unpairs := registry.unpairs.insert transaction device }
  | .response transaction outcome => unpaired transaction outcome registry

def run (registry : Registry) (events : List Event) : Registry := events.foldl step registry

end Irori.Zigbee
