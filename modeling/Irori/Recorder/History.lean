import Irori.Recorder.Writer

/-!
# What the recorder is told

The front of the recorder: it listens to the core, and asks the recorder to keep changes, to forget
entities that have left the home, and to convert what it kept of a temperature before its readings
were converted. Which entities were asked about is remembered only while Irori runs.
-/

namespace Irori.Recorder

variable {σ : Type}

inductive TemperatureUnit
  | celsius | fahrenheit | kelvin
  deriving DecidableEq

def isWhiteSpace (c : Char) : Bool :=
  let n := c.toNat
  (0x9 ≤ n && n ≤ 0xD) || n = 0x20 || n = 0x85 || n = 0xA0 || n = 0x1680 ||
    (0x2000 ≤ n && n ≤ 0x200A) || n = 0x2028 || n = 0x2029 || n = 0x202F || n = 0x205F ||
    n = 0x3000

namespace TemperatureUnit

def parse (text : String) : Option TemperatureUnit :=
  let text := String.ofList ((text.toList.dropWhile isWhiteSpace).rdropWhile isWhiteSpace)
  if ["°C", "C", "℃", "celsius", "Celsius"].contains text then some .celsius
  else if ["°F", "F", "℉", "fahrenheit", "Fahrenheit"].contains text then some .fahrenheit
  else if ["K", "kelvin", "Kelvin"].contains text then some .kelvin
  else none

def symbol : TemperatureUnit → String
  | .celsius => "°C"
  | .fahrenheit => "°F"
  | .kelvin => "K"

end TemperatureUnit

inductive SensorClass
  | temperature | temperatureDelta | other
  deriving DecidableEq

structure Conversion where
  unit : TemperatureUnit
  /-- A difference between two temperatures, which has no zero to move. -/
  difference : Bool
  deriving DecidableEq

namespace Conversion

def nativeUnit : AttributeKey := ⟨"native_unit", by decide⟩

/-- The conversion as a scale and an offset, for what was stored before it applied. -/
def linear (conversion : Conversion) : ℚ × ℚ :=
  match conversion.unit, conversion.difference with
  | .fahrenheit, false => (5 / 9, -160 / 9)
  | .fahrenheit, true => (5 / 9, 0)
  | .kelvin, false => (1, -27315 / 100)
  | .kelvin, true | .celsius, _ => (1, 0)

/-- The conversion for an entity of a class that says a unit, if there is anything to convert. -/
def of (deviceClass : Option SensorClass) (unit : Option String) : Option Conversion :=
  match deviceClass, unit.bind TemperatureUnit.parse with
  | some .temperature, some unit => if unit = .celsius then none else some ⟨unit, false⟩
  | some .temperatureDelta, some unit =>
    if unit = .celsius || unit = .kelvin then none else some ⟨unit, true⟩
  | _, _ => none

end Conversion

def speaks (state : Core.EntityState σ) : Option String :=
  match state.attributes[Conversion.nativeUnit]? with
  | some (.string unit) => some unit
  | _ => none

/-- How a state's value was converted, when its protocol says it was. `deviceClass` is what the core
has for the entity by then. -/
def conversionOf (deviceClass : Option SensorClass) (state : Core.EntityState σ) :
    Option Conversion :=
  match speaks state with
  | some unit => Conversion.of deviceClass (some unit)
  | none => none

inductive Told (σ : Type)
  | stateChanged (state : Core.EntityState σ) (deviceClass : Option SensorClass)
      (kind : Option StateClass)
  | entityAdded (id : EntityId) (kind : Option StateClass)
  | entityRemoved (id : EntityId)
  | pressed (state : Core.EntityState σ)
  | lagged (live : List EntityId)

/-- The recorder, and the entities whose readings it was asked to convert since Irori started. -/
structure History (σ : Type) where
  converted : List EntityId
  diary : Diary σ

namespace History

variable (history : History σ)

def send (job : Job σ) : History σ :=
  { history with diary := { history.diary with mailbox := history.diary.mailbox.send job } }

/-- Asks for the conversion of what was kept before the first converted reading. -/
def askOnce (state : Core.EntityState σ) (deviceClass : Option SensorClass) : History σ :=
  if history.converted.contains state.entityId then history
  else
    match conversionOf deviceClass state with
    | none => history
    | some conversion =>
      { history.send (.convert state.entityId conversion.unit.symbol conversion.linear.1
          conversion.linear.2 state.lastUpdated) with
        converted := state.entityId :: history.converted }

def record : Told σ → History σ
  | .stateChanged state deviceClass kind =>
    (history.askOnce state deviceClass).send (.append ⟨state, kind⟩)
  | .entityAdded id kind =>
    match kind with
    | some kind => history.send (.notice id kind)
    | none => history
  | .entityRemoved id => history.send (.forget id)
  | .pressed state => history.send (.append ⟨state, none⟩)
  | .lagged live => history.send (.forgetMissing live)

end History

inductive HistoryAsk
  | query (id : EntityId) (since : Timestamp)
  | summaries (id : EntityId) (since : Timestamp)
  | configure (retention : Retention)
  | check

def HistoryAsk.job : HistoryAsk → Job σ
  | .query id since => .query id since
  | .summaries id since => .summaries id since
  | .configure retention => .configure retention
  | .check => .check

inductive HistoryEvent (σ : Type)
  | told (told : Told σ)
  | ask (ask : HistoryAsk)
  /-- Some of the jobs that wait are taken and applied. -/
  | burst (lucks : Nat → Luck)
  | write (luck : Luck)
  | compile (budget : Nat) (only : Option EntityId) (luck : Luck)
  | prune (luck : Luck)
  | close (lucks : Nat → Luck) (luck : Luck)
  | open_ (retention : Retention) (luck : Luck)

namespace History

variable (numbers : Numbers σ) (history : History σ)

def start (retention : Retention) : History σ := ⟨[], ⟨⟨[], 0⟩, ⟨.empty, [], true, retention⟩⟩⟩

def close (lucks : Nat → Luck) (luck : Luck) : Diary σ :=
  ⟨⟨[], 0⟩, (history.diary.writer.applyAll numbers
    (history.diary.mailbox.jobs.zipIdx.map fun (job, i) => (job, lucks i))).writeBatch luck⟩

def opened (retention : Retention) (luck : Luck) : History σ :=
  ⟨[], ⟨⟨[], 0⟩, Writer.notePrune ⟨history.diary.writer.store, [], true, retention⟩ luck⟩⟩

def after : HistoryEvent σ → History σ
  | .told told => history.record told
  | .ask ask => history.send ask.job
  | .burst lucks => { history with diary := history.diary.after numbers (.burst lucks) }
  | .write luck => { history with diary := history.diary.after numbers (.write luck) }
  | .compile budget only luck =>
    { history with diary := history.diary.after numbers (.compile budget only luck) }
  | .prune luck => { history with diary := history.diary.after numbers (.prune luck) }
  | .close lucks luck => { history with diary := history.close numbers lucks luck }
  | .open_ retention luck => history.opened retention luck

def afterAll (events : List (HistoryEvent σ)) : History σ :=
  events.foldl (fun history event => history.after numbers event) history

end History

end Irori.Recorder
