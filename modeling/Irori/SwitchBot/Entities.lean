import Irori.SwitchBot.Model

/-!
# From a device to entities

Which entities a device has, given what is known of it, and the state of each. What an entity can
do is left out.
-/

namespace Irori

namespace SwitchBot

/-- One entity of a device: its key, its name (none for the device's main feature), and whether
it's a setting or a diagnostic. -/
structure Entity where
  key : String
  name : Option String
  category : Option Core.EntityCategory
  deriving DecidableEq

inductive LockStatus
  | locked
  | unlocked
  | locking
  | unlocking
  | jammed
  deriving DecidableEq

inductive OpenState
  | closed
  | opened
  deriving DecidableEq

inductive VacuumActivity
  | cleaning
  | paused
  | returning
  | docked
  | error
  | idle
  deriving DecidableEq

inductive State
  | lock (state : LockStatus)
  | binarySensor (on : Bool)
  | sensor (value : ℚ)
  | switch (on : Bool)
  | cover (state : OpenState) (position tilt : Option Nat)
  | humidifier (on : Bool) (currentHumidity : Option ℚ) (mode : Option String)
  | vacuum (activity : VacuumActivity)
  deriving DecidableEq

namespace Entity

def main (key : String) : Entity := ⟨key, none, none⟩

def sensor (key name : String) : Entity := ⟨key, some name, none⟩

def diagnostic (key name : String) : Entity := ⟨key, some name, some .diagnostic⟩

end Entity

namespace Sensors

open Entity

def temperature : Entity := sensor "temperature" "Temperature"
def humidity : Entity := sensor "humidity" "Humidity"
def co2Sensor : Entity := sensor "co2" "Carbon dioxide"
def lightLevel : Entity := sensor "light_level" "Light level"
def battery : Entity := diagnostic "battery" "Battery"
def motion : Entity := sensor "motion" "Motion"

def calibration : Entity := diagnostic "calibration" "Calibration"

def entities : Family → List Entity
  | .hub .none => []
  | .hub .hub2 => [temperature, humidity, lightLevel]
  | .hub .hub3 => [temperature, humidity, lightLevel, motion]
  | .meter co2 =>
    [temperature, humidity] ++ (if co2 then [co2Sensor] else []) ++ [battery]
  | .contact => [sensor "contact" "Door", motion, sensor "bright" "Light", battery]
  | .motion => [motion, sensor "bright" "Light", battery]
  | .presence => [sensor "occupied" "Presence", lightLevel, battery]
  | .leak => [sensor "leak" "Leak", battery]
  | _ => []

def state (key : String) (reading : Reading) : Option State :=
  let number (value : Option ℚ) := value.map State.sensor
  let on (value : Option Bool) := value.map State.binarySensor
  match key with
  | "temperature" => number reading.temperature
  | "humidity" => number reading.humidity
  | "co2" => number reading.co2
  | "light_level" => number reading.lightLevel
  | "battery" => number reading.battery
  | "power" => number reading.power
  | "power_2" => number reading.power2
  | "voltage" => number reading.voltage
  | "voltage_2" => number reading.voltage2
  | "current" => number reading.current
  | "current_2" => number reading.current2
  | "energy_today" => number reading.energyToday
  | "energy_today_2" => number reading.energyToday2
  | "motion" => on reading.motion
  | "contact" => on reading.contactOpen
  | "bright" => on reading.bright
  | "occupied" => on reading.occupied
  | "leak" => on reading.leak
  | "door" => on reading.doorOpen
  -- A problem when it isn't calibrated.
  | "calibration" => on (reading.calibrated.map (!·))
  | "water_tank" => on reading.lackWater
  | _ => none

/-- Power, voltage, current and today's energy of a device's only channel. -/
def metered : List Entity :=
  [sensor "power" "Power", diagnostic "voltage" "Voltage", diagnostic "current" "Current",
    sensor "energy_today" "Energy today"]

def meteredFirst : List Entity :=
  [sensor "power" "Channel 1 power", diagnostic "voltage" "Channel 1 voltage",
    diagnostic "current" "Channel 1 current", sensor "energy_today" "Channel 1 energy today"]

def meteredSecond : List Entity :=
  [sensor "power_2" "Channel 2 power", diagnostic "voltage_2" "Channel 2 voltage",
    diagnostic "current_2" "Channel 2 current", sensor "energy_today_2" "Channel 2 energy today"]

end Sensors

namespace Lock

def entities : Family → List Entity
  | .lock door _ =>
    [Entity.main "main"] ++ (if door then [Entity.sensor "door" "Door"] else []) ++
      [Sensors.calibration, Sensors.battery]
  | _ => []

def status : Bolt → LockStatus
  | .locked => .locked
  | .unlocked => .unlocked
  | .locking => .locking
  | .unlocking => .unlocking
  | .jammed => .jammed

def state (key : String) (reading : Reading) : Option State :=
  match key with
  | "main" => reading.bolt.map fun bolt => .lock (status bolt)
  | _ => none

end Lock

namespace Power

def switchMode (reading : Reading) : Bool := reading.botMode == some "switchMode"

/-- A Bot is a switch in switch mode, and a button otherwise. -/
def entities (family : Family) (reading : Reading) : List Entity :=
  match family with
  | .bot =>
    [if switchMode reading then Entity.main "switch" else Entity.main "press", Sensors.battery]
  | .plug meter _ =>
    [Entity.main "main"] ++ match meter with
      | .none => []
      -- The Plug Mini US and JP don't count the day's energy.
      | .mini => Sensors.metered.filter (·.key ≠ "energy_today")
      | .full => Sensors.metered
  | .relay2 =>
    [Entity.sensor "switch_1" "Channel 1", Entity.sensor "switch_2" "Channel 2"] ++
      Sensors.meteredFirst ++ Sensors.meteredSecond
  | _ => []

def state (key : String) (reading : Reading) : Option State :=
  match key with
  | "main" | "switch" | "switch_1" => reading.on.map .switch
  | "switch_2" => reading.on2.map .switch
  | _ => none

end Power

namespace Cover

def entities : Family → List Entity
  | .curtain | .rollerShade => [Entity.main "main", Sensors.calibration, Sensors.battery]
  | .blindTilt => [Entity.main "main", Sensors.calibration]
  | .garage => [Entity.main "main"]
  | _ => []

def percent (value : ℚ) : Nat := ⌊clamp (roundAway value)⌋.toNat

def shut (closed : Bool) : OpenState := if closed then .closed else .opened

def state (family : Family) (key : String) (reading : Reading) : Option State :=
  if key ≠ "main" then none
  else
    match family with
    | .garage => reading.doorOpen.map fun opened => .cover (shut (!opened)) none none
    | .blindTilt =>
      reading.position.map fun position =>
        .cover (shut (decide (percent position = 0))) none (some (percent position))
    | _ =>
      reading.position.map fun position =>
        .cover (shut (decide (percent position = 0))) (some (percent position)) none

end Cover

namespace Humidifier

/-- The Evaporative Humidifier's modes, by SwitchBot's number less one. -/
def evaporative : List String :=
  ["level 4", "level 3", "level 2", "level 1", "humidity", "sleep", "auto", "drying"]

def entities (family : Family) : List Entity :=
  [Entity.main "main", Sensors.humidity] ++
    if family = .humidifier then
      [Sensors.temperature, Entity.diagnostic "water_tank" "Water tank"]
    else []

def state (family : Family) (key : String) (reading : Reading) : Option State :=
  if key ≠ "main" then none
  else
    let mode :=
      if family = .humidifier then
        reading.humidifierAuto.bind fun auto => if auto then some "auto" else none
      else
        reading.humidifierMode.bind fun mode => if mode = 0 then none else evaporative[mode - 1]?
    reading.on.map fun on => .humidifier on reading.humidity mode

end Humidifier

namespace Vacuum

def entities : Family → List Entity
  | .vacuum _ => [Entity.main "main", Sensors.battery]
  | _ => []

def state (key : String) (reading : Reading) : Option State :=
  if key ≠ "main" then none
  else
    reading.working.map fun working => .vacuum <|
      match working with
      | "Clearing" | "InRemoteControl" => .cleaning
      | "Paused" => .paused
      | "GotoChargeBase" => .returning
      | "Charging" | "ChargeDone" | "InDustCollecting" => .docked
      | "InTrouble" => .error
      | _ => .idle

end Vacuum

def entities (family : Family) (reading : Reading) : List Entity :=
  match family with
  | .hub _ | .meter _ | .contact | .motion | .presence | .leak => Sensors.entities family
  | .lock _ _ => Lock.entities family
  | .bot | .plug _ _ | .relay2 => Power.entities family reading
  | .curtain | .rollerShade | .blindTilt | .garage => Cover.entities family
  | .humidifier | .evaporative => Humidifier.entities family
  | .vacuum _ => Vacuum.entities family

/-- The state of the entity with `key`, or `none` while nothing is known. -/
def state (family : Family) (key : String) (reading : Reading) : Option State :=
  let own := match family with
    | .lock _ _ => Lock.state key reading
    | .bot | .plug _ _ | .relay2 => Power.state key reading
    | .curtain | .rollerShade | .blindTilt | .garage => Cover.state family key reading
    | .humidifier | .evaporative => Humidifier.state family key reading
    | .vacuum _ => Vacuum.state key reading
    | _ => none
  own.or (Sensors.state key reading)

end SwitchBot

end Irori
