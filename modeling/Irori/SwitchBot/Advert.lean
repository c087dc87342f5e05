import Irori.SwitchBot.Model
import Irori.Lib.Map

/-!
# What a device says in its Bluetooth adverts

A device advertises with its MAC address in the first six bytes, which is also its id in
SwitchBot's cloud. The service data's first byte says the model; newer models say it with a product
id at the end of the service data instead.
-/

namespace Irori

namespace SwitchBot

def company : Nat := 2409
/-- The Bot's and the oldest Curtain's. -/
def companyOld : Nat := 89
def companyHumidifier : Nat := 741

def service : String := "0000fd3d-0000-1000-8000-00805f9b34fb"
def serviceOld : String := "00000d00-0000-1000-8000-00805f9b34fb"

/-- One advert as the radio hands it over: manufacturer and service data merged per device. -/
structure Advert where
  address : Option (Vector UInt8 6)
  manufacturer : Map Nat (List UInt8)
  /-- By UUID, lower case. -/
  service : Map String (List UInt8)
  rssi : Option Int

def hexDigit (n : Nat) : Char := "0123456789ABCDEF".toList.getD n '0'

def hex (byte : UInt8) : List Char := [hexDigit (byte.toNat / 16), hexDigit (byte.toNat % 16)]

namespace Advert

variable (advert : Advert)

def serviceData : Option (List UInt8) :=
  (advert.service[SwitchBot.service]?).or (advert.service[serviceOld]?)

def manufacturerData : Option (List UInt8) :=
  ((advert.manufacturer[company]?).or (advert.manufacturer[companyHumidifier]?)).or
    (advert.manufacturer[companyOld]?)

def claimed : Option (List UInt8) :=
  ((advert.manufacturer[company]?).filter (6 ≤ ·.length)).map (·.take 6)

/-- The address the radio heard it from, when it says (macOS gives zeros). -/
def radioAddress : Option (List UInt8) :=
  (advert.address.map Vector.toList).filter (·.any (· ≠ 0))

/-- The device's MAC address as SwitchBot's cloud writes it. From the advert itself when it carries
it, else from the radio. -/
def mac : Option String :=
  (advert.claimed.or advert.radioAddress).map fun bytes => String.ofList (bytes.flatMap hex)

/-- The advert names one device's MAC but came from another address. -/
def claimsAnotherAddress : Bool :=
  match advert.claimed, advert.radioAddress with
  | some claimed, some heardFrom => claimed != heardFrom
  | _, _ => false

end Advert

inductive Model
  | contact
  | bot
  | motion
  | curtain
  | curtain3
  | meter
  | meterPlus
  | outdoorMeter
  | meterPro
  | meterProCo2
  | hub2
  | hub3
  | plugUs
  | plugJp
  | plugEu
  | humidifier
  | evaporative
  | lock
  | lockPro
  | lockLite
  | lockUltra
  | lockVision
  | lockVisionPro
  | lockProWifi
  | blindTilt
  | leak
  | relay1
  | relay1Pm
  | relay2Pm
  | garage
  | rollerShade
  | presence
  deriving DecidableEq

namespace Model

def deviceType : Model → String
  | contact => "Contact Sensor"
  | bot => "Bot"
  | motion => "Motion Sensor"
  | curtain => "Curtain"
  | curtain3 => "Curtain3"
  | meter => "Meter"
  | meterPlus => "MeterPlus"
  | outdoorMeter => "WoIOSensor"
  | meterPro => "MeterPro"
  | meterProCo2 => "MeterPro(CO2)"
  | hub2 => "Hub 2"
  | hub3 => "Hub 3"
  | plugUs => "Plug Mini (US)"
  | plugJp => "Plug Mini (JP)"
  | plugEu => "Plug Mini (EU)"
  | humidifier => "Humidifier"
  | evaporative => "Humidifier2"
  | lock => "Smart Lock"
  | lockPro => "Smart Lock Pro"
  | lockLite => "Smart Lock Lite"
  | lockUltra => "Smart Lock Ultra"
  | lockVision => "Lock Vision"
  | lockVisionPro => "Lock Vision Pro"
  | lockProWifi => "Smart Lock Pro Wifi"
  | blindTilt => "Blind Tilt"
  | leak => "Water Detector"
  | relay1 => "Relay Switch 1"
  | relay1Pm => "Relay Switch 1PM"
  | relay2Pm => "Relay Switch 2PM"
  | garage => "Garage Door Opener"
  | rollerShade => "Roller Shade"
  | presence => "Presence Sensor"

def types : List Model :=
  [contact, bot, motion, curtain, curtain3, meter, meterPlus, outdoorMeter, meterPro, meterProCo2,
    hub2, hub3, plugUs, plugJp, plugEu, humidifier, evaporative, lock, lockPro, lockLite,
    lockUltra, lockVision, lockVisionPro, lockProWifi, blindTilt, leak, relay1, relay1Pm,
    relay2Pm, garage, rollerShade, presence]

def ofType (deviceType : String) : Option Model :=
  types.find? fun model => model.deviceType == deviceType

/-- What a model byte says: a model that is read, one that SwitchBot has but isn't read here, or
nothing. -/
inductive Byte
  | read (model : Model)
  | unread
  | unknown

def readBytes : List (List Nat × Model) :=
  [(['d'.toNat, 'D'.toNat], contact), (['H'.toNat], bot), (['s'.toNat, 'S'.toNat], motion),
    (['\x7b'.toNat, '['.toNat], curtain3), (['c'.toNat, 'C'.toNat], curtain),
    (['w'.toNat, 'W'.toNat], outdoorMeter), (['i'.toNat, 'I'.toNat], meterPlus),
    (['T'.toNat, 't'.toNat], meter), (['4'.toNat, 0x14], meterPro),
    (['5'.toNat, 0x15], meterProCo2), (['v'.toNat, 'V'.toNat], hub2),
    (['g'.toNat, 'G'.toNat], plugUs), (['j'.toNat, 'J'.toNat], plugJp),
    (['?'.toNat, 0x1f], plugEu), (['e'.toNat, 'E'.toNat], humidifier),
    (['#'.toNat, 0x03], evaporative), (['o'.toNat, 'O'.toNat], lock),
    (['$'.toNat, 0x04], lockPro), (['-'.toNat, 0x0d], lockLite),
    (['x'.toNat, 'X'.toNat], blindTilt), (['&'.toNat, 0x06], leak), ([';'.toNat, 0x1b], relay1),
    (['<'.toNat, 0x1c], relay1Pm), (['='.toNat, 0x1d], relay2Pm), (['>'.toNat, 0x1e], garage),
    ([','.toNat, 0x0c], rollerShade)]

/-- Lights, remotes, keypads, fans, vacuums, purifiers and the Hub Mini Matter. -/
def unreadBytes : List Nat :=
  ['r'.toNat, 'R'.toNat, 'u'.toNat, 'U'.toNat, 'q'.toNat, 'Q'.toNat, 'n'.toNat, 'N'.toNat,
    'y'.toNat, 'Y'.toNat, 'b'.toNat, 'B'.toNat, 0x07, 0x27, '%'.toNat, 0x05, '~'.toNat, '^'.toNat,
    '.'.toNat, 0x0f, 'z'.toNat, 'Z'.toNat, '3'.toNat, 0x13, '\x7d'.toNat, ']'.toNat, '('.toNat,
    0x08, '*'.toNat, 0x0a, '+'.toNat, 0x0b, '7'.toNat, 0x17, '8'.toNat, 0x18]

/-- From the model byte: the service data's first, less its top bit. -/
def ofByte (byte : Nat) : Byte :=
  match readBytes.find? fun entry => entry.1.contains byte with
  | some (_, model) => .read model
  | none => if unreadBytes.contains byte then .unread else .unknown

def ofProduct : List UInt8 → Option Model
  | variant :: rest =>
    if 1 < variant then none
    else if rest = [0x10, 0xb9, 0x40] then some hub3
    else if rest = [0x10, 0xa5, 0xb8] then some lockUltra
    else if rest = [0x11, 0x69, 0x09] then some lockVisionPro
    else if rest = [0x11, 0x69, 0x08] then some lockVision
    else if rest = [0x10, 0xff, 0x90] then some lockProWifi
    else if rest = [0x10, 0xcc, 0xc8] then some presence
    else none
  | [] => none

end Model

def slice (bytes : List UInt8) (first last : Nat) : Option (List UInt8) :=
  if last ≤ bytes.length then some ((bytes.take last).drop first) else none

def productModel (service : List UInt8) : Option Model :=
  let n := service.length
  if 5 < n then
    (Model.ofProduct (service.drop (n - 4))).or
      (Model.ofProduct ((service.drop (n - 5)).take 4))
  else none

/-- Which model sent the advert, where its model byte says nothing: what the cloud says the device
is, then the length of the Humidifier's advert, then a product id. -/
def hintedModel (advert : Advert) (hint : Option String) : Option Model :=
  match hint.bind Model.ofType with
  | some model => some model
  | none =>
    if (advert.manufacturer[companyHumidifier]?).any (·.length == 6) then some .humidifier
    else advert.serviceData.bind productModel

def model (advert : Advert) (hint : Option String) : Option Model :=
  match advert.serviceData.bind List.head? with
  | none => hintedModel advert hint
  | some first =>
    match Model.ofByte (first &&& 0x7f).toNat with
    | .read model => some model
    | .unread => none
    | .unknown => hintedModel advert hint

def tenths (value : ℚ) : ℚ := roundAway (value * 10) / 10

/-- A meter's temperature from its first two bytes: tenths in the low nibble of the first, the sign
and whole degrees in the second. -/
def temperature (th : List UInt8) : ℚ :=
  let degrees := th.getD 1 0
  let value : ℚ := (degrees &&& 0x7f).toNat + ((th.getD 0 0 &&& 0x0f).toNat : ℚ) / 10
  tenths (if degrees &&& 0x80 ≠ 0 then value else -value)

/-- A meter's temperature and humidity from its three bytes. All zero means the sensor hasn't read
yet. -/
def climate (th : List UInt8) : Option (ℚ × ℚ) :=
  let humidity : ℚ := (th.getD 2 0 &&& 0x7f).toNat
  if temperature th ≠ 0 ∨ humidity ≠ 0 then some (temperature th, humidity) else none

/-- A lock's state: half locked is locked, a stop on the way is jammed, and latch states are
unlocked. -/
def advertBolt (status : UInt8) : Bolt :=
  match status.toNat with
  | 0 | 7 => .locked
  | 2 => .locking
  | 3 => .unlocking
  | 4 | 5 => .jammed
  | _ => .unlocked

def bit (bytes : List UInt8) (i : Nat) (mask : UInt8) : Bool := bytes.getD i 0 &&& mask != 0

def low (byte mask : UInt8) : ℚ := (byte &&& mask).toNat

def read (model : Model) (svc mfr : List UInt8) : Option Reading :=
  let battery : Option ℚ := (svc[2]?).map (low · 0x7f)
  let empty := Reading.empty
  match model with
  | .meter | .meterPlus | .outdoorMeter | .meterPro | .meterProCo2 => do
    let th ← (slice mfr 8 11).or (slice svc 3 6)
    let (temperature, humidity) ← climate th
    -- The sensor reads 400-9999 ppm; more is a garbled advert.
    let co2 : Option ℚ :=
      if model = .meterProCo2 then
        (slice mfr 13 15).bind fun b =>
          let co2 : Nat := (b.getD 0 0).toNat * 256 + (b.getD 1 0).toNat
          if co2 ≤ 9999 then some (co2 : ℚ) else none
      else none
    some { empty with
      temperature := some temperature, humidity := some humidity, battery := battery, co2 := co2 }
  | .hub2 => do
    let status ← mfr[12]?
    let (temperature, humidity) ← (slice mfr 13 16).bind climate
    some { empty with
      temperature := some temperature, humidity := some humidity
      lightLevel := some (low status 0x1f) }
  | .hub3 =>
    if mfr.length < 17 then none
    else
      let d := mfr.drop 6
      let th := (d.take 10).drop 7
      some { empty with
        temperature := some (temperature th), humidity := some (low (th.getD 2 0) 0x7f)
        lightLevel := some (low (d.getD 6 0) 0x0f), motion := some (bit d 10 0x80) }
  | .contact =>
    let full := 13 ≤ mfr.length
    if ¬full ∧ svc.length < 9 then none
    else
      let (motion, opened, timeout, light) :=
        if full then (bit mfr 7 0x80, bit mfr 7 0x10, bit mfr 7 0x20, bit mfr 7 0x40)
        else (bit svc 1 0x40, bit svc 3 0x02, bit svc 3 0x04, bit svc 3 0x01)
      -- Left open past its timeout is still open.
      some { empty with
        battery := battery, motion := some motion, contactOpen := some (opened || timeout)
        bright := some light }
  | .motion =>
    let bySvc := 6 ≤ svc.length
    let byMfr := 8 ≤ mfr.length
    if ¬bySvc ∧ ¬byMfr then none
    else
      some { empty with
        motion := some (if byMfr then bit mfr 7 0x40 else bit svc 1 0x40)
        battery := if bySvc then battery else none
        bright := some (if byMfr then bit mfr 7 0x20 else bit svc 5 0x02) }
  | .leak =>
    if mfr.length < 9 then none
    else
      some { empty with leak := some (bit mfr 8 0x01), battery := some (low (mfr.getD 7 0) 0x7f) }
  | .presence =>
    if mfr.length < 12 then none
    else
      some { empty with
        occupied := some (bit mfr 7 0x40), lightLevel := some (low (mfr.getD 11 0) 0x1f)
        battery := battery }
  | .lock | .lockLite | .lockVision =>
    if mfr.length < 9 then none
    else
      some { empty with
        bolt := some (advertBolt ((mfr.getD 7 0 &&& 0x70) >>> 4))
        calibrated := some (bit mfr 7 0x80), battery := battery
        doorOpen := if model = .lock then some (bit mfr 7 0x04) else none }
  | .lockPro | .lockProWifi | .lockUltra | .lockVisionPro =>
    if mfr.length < 12 then none
    else
      some { empty with
        bolt := some (advertBolt ((mfr.getD 7 0 &&& 0x78) >>> 3))
        calibrated := some (bit mfr 7 0x80), doorOpen := some (bit mfr 8 0x10)
        battery := some (low (mfr.getD 9 0) 0x7f) }
  | .bot =>
    if svc.length < 3 then none
    else
      -- Only a Bot in switch mode is on or off; in press mode the bit means nothing.
      let switching := bit svc 1 0x80
      some { empty with
        botMode := some (if switching then "switchMode" else "pressMode")
        on := if switching then some (!bit svc 1 0x40) else none, battery := battery }
  | .plugUs | .plugJp =>
    if mfr.length < 12 then none
    else
      let watts := ((mfr.getD 10 0).toNat * 256 + (mfr.getD 11 0).toNat) % 0x8000
      some { empty with on := some (mfr.getD 7 0 == 0x80), power := some ((watts : ℚ) / 10) }
  | .relay1 | .relay1Pm | .plugEu =>
    (mfr[7]?).map fun (b : UInt8) => { empty with on := some (b &&& 0x80 != 0) }
  | .relay2Pm =>
    (mfr[7]?).map fun (b : UInt8) =>
      { empty with on := some (b &&& 0x80 != 0), on2 := some (b &&& 0x40 != 0) }
  | .garage =>
    (mfr[7]?).map fun (b : UInt8) => { empty with doorOpen := some (b &&& 0x20 == 0) }
  | .curtain | .curtain3 => do
    let (d, battery) ←
      if 13 ≤ mfr.length then some ((mfr.take 11).drop 8, mfr[12]?)
      else if 11 ≤ mfr.length then some ((mfr.take 11).drop 8, svc[2]?)
      else if 6 ≤ svc.length then some ((svc.take 6).drop 3, svc[2]?)
      else none
    -- Counted from open, like the cloud's: 0 is open.
    some { empty with
      position := some (100 - Min.min (low (d.getD 0 0) 0x7f) 100), moving := some (bit d 0 0x80)
      battery := battery.map (low · 0x7f), calibrated := (svc[1]?).map (· &&& 0x40 != 0) }
  | .rollerShade =>
    if mfr.length < 10 then none
    else
      let d := mfr.drop 6
      some { empty with
        position := some (100 - Min.min (low (d.getD 2 0) 0x7f) 100)
        calibrated := some (bit d 2 0x80), moving := some (bit d 1 0x06), battery := battery }
  | .blindTilt =>
    if mfr.length < 10 then none
    else
      let d := mfr.drop 6
      let (opened, up) := blindTilt (Min.min (low (d.getD 2 0) 0x7f) 100)
      some { empty with
        position := some opened, tiltUp := up, moving := some (bit d 2 0x80)
        calibrated := some (bit d 1 0x01), battery := battery }
  | .humidifier =>
    if svc.length < 5 then none else some { empty with on := some (svc.getD 1 0 != 0) }
  | .evaporative =>
    if mfr.length < 17 then none
    else
      let mode := (mfr.getD 7 0 &&& 0x0f).toNat
      -- The room's humidity, when a meter is paired with it.
      let d := (mfr.take 12).drop 9
      let humidity := (d.getD 0 0 &&& 0x7f).toNat
      let paired := bit d 0 0x80 && decide (humidity ≤ 100)
      let degrees : ℚ := low (d.getD 1 0) 0x7f + ((d.getD 2 0 >>> 4).toNat : ℚ) / 10
      some { empty with
        on := some (bit mfr 7 0x80)
        humidifierMode := if 1 ≤ mode ∧ mode ≤ 8 then some mode else none
        humidity := if paired then some (humidity : ℚ) else none
        temperature :=
          if paired then some (tenths (if bit d 1 0x80 then degrees else -degrees)) else none }

structure Heard where
  mac : String
  deviceType : String
  reading : Reading
  rssi : Option Int

/-- Reads an advert. `hint` is the device's type from the cloud's list, when it's listed there.
`none` for anything that isn't a device read here, or that says nothing yet. -/
def parse (advert : Advert) (hint : Option String) : Option Heard := do
  let mac ← advert.mac
  let model ← SwitchBot.model advert hint
  let reading ← read model (advert.serviceData.getD []) (advert.manufacturerData.getD [])
  some ⟨mac, model.deviceType, reading, advert.rssi⟩

end SwitchBot

end Irori
