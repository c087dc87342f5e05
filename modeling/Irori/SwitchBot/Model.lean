import Irori.Rules.Eval
import Irori.Home.Types

/-!
# SwitchBot's devices

Which family a `deviceType` is, and the one reading of a device that everything said about it is
merged into. Decimals are exact here; how one is read from text and written is a parameter.
-/

namespace Irori

namespace SwitchBot

inductive HubSensors
  | none
  /-- Temperature, humidity, light level 1-20. -/
  | hub2
  /-- Temperature, humidity, light level 1-10, motion. -/
  | hub3
  deriving DecidableEq

inductive Meter
  | none
  /-- Voltage, current, and `weight`, which is watts. -/
  | mini
  | full
  deriving DecidableEq

/-- The two sets of commands of robot vacuums; those that mop carry a water level. -/
inductive VacuumApi
  | simple
  | clean
  | mop
  deriving DecidableEq

inductive Family
  | hub (sensors : HubSensors)
  | meter (co2 : Bool)
  | contact
  | motion
  | presence
  | leak
  | lock (door deadbolt : Bool)
  | bot
  | plug (meter : Meter) (outlet : Bool)
  | relay2
  | curtain
  | rollerShade
  | blindTilt
  | garage
  | humidifier
  | evaporative
  | vacuum (api : VacuumApi)
  deriving DecidableEq

namespace Family

def of (deviceType : String) : Option Family :=
  if deviceType ∈ ["Hub", "Hub Plus", "Hub Mini", "Hub Mini2", "AI Hub"] then some (.hub .none)
  else if deviceType = "Hub 2" then some (.hub .hub2)
  else if deviceType = "Hub 3" then some (.hub .hub3)
  else if deviceType ∈ ["Meter", "MeterPlus", "Meter Plus", "WoIOSensor", "MeterPro"] then
    some (.meter false)
  else if deviceType = "MeterPro(CO2)" then some (.meter true)
  else if deviceType = "Contact Sensor" then some .contact
  else if deviceType = "Motion Sensor" then some .motion
  else if deviceType = "Presence Sensor" then some .presence
  else if deviceType = "Water Detector" then some .leak
  else if deviceType ∈ ["Smart Lock", "Smart Lock Pro", "Smart Lock Pro Wifi",
      "Smart Lock Ultra"] then some (.lock true true)
  else if deviceType ∈ ["Smart Lock Lite", "Lock Lite"] then some (.lock false true)
  else if deviceType ∈ ["Lock Vision", "Lock Vision Pro"] then some (.lock true false)
  else if deviceType = "Bot" then some .bot
  else if deviceType = "Plug" then some (.plug .none true)
  else if deviceType = "Relay Switch 1" then some (.plug .none false)
  else if deviceType ∈ ["Plug Mini (US)", "Plug Mini (JP)"] then some (.plug .mini true)
  else if deviceType = "Plug Mini (EU)" then some (.plug .full true)
  else if deviceType = "Relay Switch 1PM" then some (.plug .full false)
  else if deviceType = "Relay Switch 2PM" then some .relay2
  else if deviceType ∈ ["Curtain", "Curtain3"] then some .curtain
  else if deviceType = "Roller Shade" then some .rollerShade
  else if deviceType = "Blind Tilt" then some .blindTilt
  else if deviceType = "Garage Door Opener" then some .garage
  else if deviceType = "Humidifier" then some .humidifier
  else if deviceType = "Humidifier2" then some .evaporative
  else if deviceType ∈ ["K10+", "K10+ Pro", "Robot Vacuum Cleaner S1",
      "Robot Vacuum Cleaner S1 Plus"] then some (.vacuum .simple)
  else if deviceType ∈ ["Robot Vacuum Cleaner K10+ Pro Combo", "Robot Vacuum Cleaner K11+",
      "Robot Vacuum Cleaner K20 Plus Pro"] then some (.vacuum .clean)
  else if deviceType ∈ ["Robot Vacuum Cleaner S10", "Robot Vacuum Cleaner S20"] then
    some (.vacuum .mop)
  else none

end Family

inductive Bolt
  | locked
  | unlocked
  /-- On its way, as Bluetooth says while the motor turns. -/
  | locking
  | unlocking
  | jammed
  deriving DecidableEq

/-- Everything known about one device, under one name per thing. Each is `none` until a source
says. -/
structure Reading where
  temperature : Option ℚ
  humidity : Option ℚ
  co2 : Option ℚ
  lightLevel : Option ℚ
  bright : Option Bool
  battery : Option ℚ
  motion : Option Bool
  /-- A contact sensor apart, or left open past its timeout. -/
  contactOpen : Option Bool
  occupied : Option Bool
  leak : Option Bool
  bolt : Option Bolt
  doorOpen : Option Bool
  calibrated : Option Bool
  on : Option Bool
  /-- The second channel of a Relay Switch 2PM; the first is `on`. -/
  on2 : Option Bool
  power : Option ℚ
  power2 : Option ℚ
  voltage : Option ℚ
  voltage2 : Option ℚ
  current : Option ℚ
  current2 : Option ℚ
  energyToday : Option ℚ
  energyToday2 : Option ℚ
  /-- How open: 0 closed, 100 open. -/
  position : Option ℚ
  /-- Which way a Blind Tilt's slats lean. -/
  tiltUp : Option Bool
  moving : Option Bool
  botMode : Option String
  humidifierAuto : Option Bool
  humidifierMode : Option Nat
  lackWater : Option Bool
  working : Option String
  online : Option Bool
  version : Option String
  deriving DecidableEq

structure Decimals where
  parse : String → Option ℚ
  display : ℚ → String

abbrev Status := List (String × Json)

section

variable (decimals : Decimals)

def number (status : Status) (key : String) : Option ℚ :=
  match status.lookup key with
  | some (.number n) => some n.asF64
  | some (.string text) => decimals.parse (Core.trim text)
  | _ => none

def text (status : Status) (key : String) : Option String :=
  match status.lookup key with
  | some (.string said) => if Core.trim said = "" then none else some (Core.trim said)
  | _ => none

def flag (status : Status) (key : String) : Option Bool :=
  match status.lookup key with
  | some (.bool said) => some said
  | _ => none

def toAsciiLowercase (text : String) : String := String.ofList (text.toList.map Char.toLower)

def eqIgnoreAsciiCase (a b : String) : Bool := toAsciiLowercase a == toAsciiLowercase b

def detected (status : Status) : Option Bool :=
  (text status "detectionState").map (eqIgnoreAsciiCase · "DETECTED")

def switched (status : Status) : Option Bool :=
  (((text status "power").or (text status "powerState")).map (eqIgnoreAsciiCase · "on")).or
    ((number decimals status "switchStatus").map (decide <| · ≠ 0))

def bolt (state : String) : Option Bolt :=
  let state := toAsciiLowercase state
  if state = "jammed" then some .jammed
  else if "unlock".toList.isPrefixOf state.toList then some .unlocked
  else if "lock".toList.isPrefixOf state.toList || state == "latchboltlocked" then some .locked
  else none

def milliamps (value : ℚ) : ℚ := value / 1000

def wattMinutes (value : ℚ) : ℚ := roundAway (value / 60 * 100) / 100

def clamp (value : ℚ) : ℚ := Max.max 0 (Min.min value 100)

/-- A Blind Tilt's position: 0 closed down, 50 open, 100 closed up. How open, and which way the
slats lean. -/
def blindTilt (raw : ℚ) : ℚ × Option Bool :=
  let raw := clamp raw
  let side := if 50 < raw then some true else if raw < 50 then some false else none
  (100 - 2 * |raw - 50|, side)

namespace Reading

def empty : Reading :=
  ⟨none, none, none, none, none, none, none, none, none, none, none, none, none, none, none, none,
    none, none, none, none, none, none, none, none, none, none, none, none, none, none, none, none,
    none⟩

def common (status : Status) : Reading :=
  let fahrenheit := (text status "scale").any (eqIgnoreAsciiCase · "FAHRENHEIT")
  { empty with
    temperature := (number decimals status "temperature").map fun t =>
      roundAway ((if fahrenheit then (t - 32) * 5 / 9 else t) * 10) / 10
    humidity := number decimals status "humidity"
    co2 := number decimals status "CO2"
    lightLevel := number decimals status "lightLevel"
    bright := (text status "brightness").map (eqIgnoreAsciiCase · "bright")
    battery := number decimals status "battery"
    motion := (flag status "moveDetected").or (detected status)
    calibrated := flag status "calibrate"
    moving := flag status "moving"
    version := (text status "version").or ((number decimals status "version").map decimals.display)
    online := (flag status "online").or
      ((text status "onlineStatus").map (eqIgnoreAsciiCase · "online")) }

/-- What the status API says about a device of `family`. -/
def fromStatus (family : Family) (status : Status) : Reading :=
  let reading := common decimals status
  let number := number decimals status
  match family with
  | .contact =>
    { reading with
      contactOpen := (text status "openState").map fun state => !eqIgnoreAsciiCase state "close" }
  | .presence =>
    { reading with
      occupied := ((flag status "Detected").or (flag status "detected")).or (detected status)
      motion := none }
  | .leak =>
    { reading with
      leak := ((number "status").map (decide <| · ≠ 0)).or
        ((number "detectionState").map (decide <| · ≠ 0))
      motion := none }
  | .lock _ _ =>
    { reading with
      bolt := (text status "lockState").bind SwitchBot.bolt
      doorOpen := (text status "doorState").map ("open".toList.isPrefixOf ·.toList) }
  | .bot =>
    { reading with on := switched decimals status, botMode := text status "deviceMode" }
  | .plug meter _ =>
    { reading with
      on := switched decimals status
      voltage := number "voltage"
      current := (number "electricCurrent").map milliamps
      power := if meter = .mini then number "weight" else number "power"
      energyToday := (number "usedElectricity").map wattMinutes }
  | .relay2 =>
    { reading with
      on := (number "switch1Status").map (decide <| · ≠ 0)
      on2 := (number "switch2Status").map (decide <| · ≠ 0)
      power := number "switch1Power"
      power2 := number "switch2Power"
      voltage := number "switch1Voltage"
      voltage2 := number "switch2Voltage"
      current := (number "switch1ElectricCurrent").map milliamps
      current2 := (number "switch2ElectricCurrent").map milliamps
      energyToday := (number "switch1UsedElectricity").map wattMinutes
      energyToday2 := (number "switch2UsedElectricity").map wattMinutes }
  | .curtain | .rollerShade =>
    -- Counted from the open position: 0 is open.
    { reading with position := (number "slidePosition").map fun p => 100 - clamp p }
  | .blindTilt =>
    let tilt := (number "slidePosition").map SwitchBot.blindTilt
    -- Which way it opens, when the cloud says, over what the position suggests.
    let direction := (text status "direction").map toAsciiLowercase
    { reading with
      position := tilt.map Prod.fst
      tiltUp := if direction = some "up" then some true
        else if direction = some "down" then some false else tilt.bind Prod.snd }
  | .garage =>
    -- `doorStatus` 0 is "on": open.
    { reading with doorOpen := (number "doorStatus").map (decide <| · = 0) }
  | .humidifier =>
    { reading with
      on := switched decimals status
      humidifierAuto := flag status "auto"
      lackWater := flag status "lackWater" }
  | .evaporative =>
    { reading with
      on := switched decimals status
      humidifierMode := ((number "mode").filter fun mode => 1 ≤ mode ∧ mode ≤ 8).map
        fun mode => ⌊mode⌋.toNat }
  | .vacuum _ => { reading with working := text status "workingStatus" }
  | .hub _ | .meter _ | .motion => reading

def merge (reading newer : Reading) : Reading where
  temperature := newer.temperature.or reading.temperature
  humidity := newer.humidity.or reading.humidity
  co2 := newer.co2.or reading.co2
  lightLevel := newer.lightLevel.or reading.lightLevel
  bright := newer.bright.or reading.bright
  battery := newer.battery.or reading.battery
  motion := newer.motion.or reading.motion
  contactOpen := newer.contactOpen.or reading.contactOpen
  occupied := newer.occupied.or reading.occupied
  leak := newer.leak.or reading.leak
  bolt := newer.bolt.or reading.bolt
  doorOpen := newer.doorOpen.or reading.doorOpen
  calibrated := newer.calibrated.or reading.calibrated
  on := newer.on.or reading.on
  on2 := newer.on2.or reading.on2
  power := newer.power.or reading.power
  power2 := newer.power2.or reading.power2
  voltage := newer.voltage.or reading.voltage
  voltage2 := newer.voltage2.or reading.voltage2
  current := newer.current.or reading.current
  current2 := newer.current2.or reading.current2
  energyToday := newer.energyToday.or reading.energyToday
  energyToday2 := newer.energyToday2.or reading.energyToday2
  position := newer.position.or reading.position
  tiltUp := newer.tiltUp.or reading.tiltUp
  moving := newer.moving.or reading.moving
  botMode := newer.botMode.or reading.botMode
  humidifierAuto := newer.humidifierAuto.or reading.humidifierAuto
  humidifierMode := newer.humidifierMode.or reading.humidifierMode
  lackWater := newer.lackWater.or reading.lackWater
  working := newer.working.or reading.working
  online := newer.online.or reading.online
  version := newer.version.or reading.version

end Reading

end

/-- What a reading says about a home's safety: its bolt, door, contact and leak. -/
def guarded (reading : Reading) : Reading :=
  { Reading.empty with
    bolt := reading.bolt
    doorOpen := reading.doorOpen
    contactOpen := reading.contactOpen
    leak := reading.leak }

def unguard (reading : Reading) : Reading :=
  { reading with bolt := none, doorOpen := none, contactOpen := none, leak := none }

def differ {α : Type} [DecidableEq α] : Option α → Option α → Bool
  | some a, some b => a != b
  | _, _ => false

/-- Whether the cloud's reading contradicts what the adverts said on what `guarded` keeps. A lock
caught turning says nothing either way. -/
def contradicts (cloud adverts : Reading) : Bool :=
  let turning := adverts.bolt == some .locking || adverts.bolt == some .unlocking
  (!turning && differ cloud.bolt adverts.bolt) || differ cloud.doorOpen adverts.doorOpen ||
    differ cloud.contactOpen adverts.contactOpen || differ cloud.leak adverts.leak

def readable (deviceType : String) : String :=
  match deviceType with
  | "MeterPlus" => "Meter Plus"
  | "WoIOSensor" => "Outdoor Meter"
  | "MeterPro" => "Meter Pro"
  | "MeterPro(CO2)" => "Meter Pro CO2"
  | "Curtain3" => "Curtain 3"
  | "Humidifier2" => "Evaporative Humidifier"
  | "Smart Lock Pro Wifi" => "Smart Lock Pro Wi-Fi"
  | other => other

end SwitchBot

end Irori
