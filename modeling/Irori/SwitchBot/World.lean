import Irori.SwitchBot.Entities
import Irori.SwitchBot.Advert

/-!
# SwitchBot's devices, by two routes

The loop's state, and what each thing that happens does to it: an advert is heard, the account's
list comes, the cloud answers about a device, and every ten seconds what has been quiet for too
long is cleaned up. When the cloud is asked is left to what happens, and so are the day's calls, the
health and the map, which say nothing of any state.
-/

namespace Irori

namespace SwitchBot

structure Listed where
  /-- Its MAC address, upper case, no colons: the same id it has over Bluetooth. -/
  id : String
  name : String
  deviceType : String
  hub : Option String
  deriving DecidableEq

inductive CloudError
  | unauthorized
  | tooMany
  | deviceOffline
  | hubOffline
  | notFound
  | refused
  | unreachable

structure Known where
  listed : Listed
  fromCloud : Bool
  family : Family
  reading : Reading
  described : OrdSet String
  version : Option String
  available : Bool
  /-- When it was last heard over Bluetooth, to the hour. -/
  heardAt : Option Nat
  /-- What its last advert said about its bolt, door, contact and leak. -/
  advertSaid : Reading
  /-- The cloud contradicted its adverts on those: they're left out until the two agree again. -/
  distrusted : Bool

def Known.new (listed : Listed) (family : Family) (reading : Reading) : Known :=
  ⟨listed, true, family, reading, ∅, none, true, none, Reading.empty, false⟩

structure Saved where
  listed : Listed
  reading : Reading
  fromCloud : Bool
  heardAt : Option Nat

structure Ear where
  instant : Nat
  rssi : Option Int

inductive RadioState
  | off
  | listening
  | failed (why : String)
  deriving DecidableEq

structure EntityDescription where
  uniqueId : UniqueId
  name : Option Name
  deviceUniqueId : UniqueId
  category : Option Core.EntityCategory

structure Report where
  uniqueId : UniqueId
  state : State
  causedBy : Option ContextId
  replayed : Bool

inductive Told
  | device (description : Core.DeviceDescription)
  | entity (description : EntityDescription)
  | entityGone (uniqueId : UniqueId)
  | deviceGone (uniqueId : UniqueId)
  | state (report : Report)
  | availability (device : UniqueId) (available : Bool)

/-- What the loop runs in: decimals, how long a device counts as nearby after its last advert, and
whether the core takes a device after all it was told, that device last. -/
structure Env where
  decimals : Decimals
  heard : Nat
  takes : List Told → Bool

structure World where
  cloud : Bool
  devices : Map String Known
  ears : Map String Ear
  asked : List (String × Option ContextId)
  radio : RadioState
  readingsDirty : Bool
  mapDirty : Bool
  strangers : OrdSet String
  impostors : OrdSet String
  told : List Told

/-- A moment on both clocks: the steady one in milliseconds, and the seconds since 1970. -/
structure Moment where
  instant : Nat
  now : Nat

def uniqueId? (text : String) : Option UniqueId :=
  if h : checkUniqueId text = .ok () then some ⟨text, h⟩ else none

def name? (text : String) : Option Name :=
  if h : checkName text = .ok () then some ⟨text, h⟩ else none

def entityId (device key : String) : Option UniqueId := uniqueId? (device ++ ":" ++ key)

/-- Describes the entities that weren't yet. `false` where an id can't be made. -/
def describeEntities (device : UniqueId) (known : Known) :
    List Entity → List Told → Bool × List Told
  | [], told => (true, told)
  | entity :: rest, told =>
    if known.described.contains entity.key then describeEntities device known rest told
    else
      match entityId known.listed.id entity.key with
      | none => (false, told)
      | some id =>
        describeEntities device known rest
          (told ++ [.entity ⟨id, entity.name.bind name?, device, entity.category⟩])

def removeStale (known : Known) (keys : OrdSet String) : List Told :=
  (known.described.toList.filter fun key => !keys.contains key).filterMap fun key =>
    (entityId known.listed.id key).map .entityGone

/-- Describes a device and the entities it has now, and removes entities it no longer has. -/
def describe (env : Env) (told : List Told) (known : Known) : Bool × List Told × Known :=
  match uniqueId? known.listed.id,
    (name? known.listed.name).or (name? known.listed.deviceType) with
  | some deviceId, some name =>
    let device : Core.DeviceDescription :=
      { uniqueId := deviceId
        name := name
        manufacturer := some "SwitchBot"
        model := some (readable known.listed.deviceType)
        swVersion := known.reading.version
        hwVersion := none
        serialNumber := none
        suggestedArea := none
        viaDeviceUniqueId := known.listed.hub.bind uniqueId? }
    let told := told ++ [.device device]
    if env.takes told then
      let known := { known with version := known.reading.version }
      let entities := entities known.family known.reading
      let keys : OrdSet String := .ofList (entities.map (·.key)) compare
      match describeEntities deviceId known entities told with
      | (true, told) =>
        (true, told ++ removeStale known keys, { known with described := keys })
      | (false, told) => (false, told, known)
    else (false, told, known)
  | _, _ => (false, told, known)

def report (known : Known) (causedBy : Option ContextId) (replayed : Bool) : List Told :=
  known.described.toList.filterMap fun key =>
    match state known.family key known.reading, entityId known.listed.id key with
    | some state, some id => some (.state ⟨id, state, causedBy, replayed⟩)
    | _, _ => none

def reshaped (known : Known) : Bool :=
  let keys := entities known.family known.reading
  keys.length != known.described.size || keys.any fun e => !known.described.contains e.key

def Known.heed (known : Known) (now : Nat) (said : Reading) : Known :=
  let stale := known.heardAt.all fun heard => decide (3600 ≤ now - heard)
  { known with
    heardAt := if stale then some now else known.heardAt
    advertSaid := guarded said
    reading := known.reading.merge (if known.distrusted then unguard said else said) }

/-- What a device is once the cloud said `reading` of it: where that contradicts the adverts of one
heard lately, they aren't trusted. -/
def Known.toldByCloud (known : Known) (heard : Bool) (reading : Reading) : Known :=
  { known with
    distrusted := heard && contradicts reading known.advertSaid
    reading := known.reading.merge reading }

namespace World

variable (env : Env)

def tell (w : World) (said : List Told) : World := { w with told := w.told ++ said }

def keep (w : World) (id : String) (known : Known) : World :=
  { w with devices := w.devices.insert id known }

def heardLately (w : World) (moment : Moment) (id : String) : Bool :=
  (w.ears[id]?).any fun ear => decide (moment.instant - ear.instant < env.heard)

def setAvailable (w : World) (id : String) (available : Bool) : World :=
  match w.devices[id]? with
  | none => w
  | some known =>
    if known.available = available then w
    else
      let w := w.keep id { known with available := available }
      match uniqueId? id with
      | none => w
      | some device => w.tell [.availability device available]

/-- A device only Bluetooth knows, unheard for this long (seconds), is forgotten. -/
def forgetUnheardAfter : Nat := 86400

def forgotten (heardAt : Option Nat) (now : Nat) : Bool :=
  heardAt.any fun heard => decide (now - heard > forgetUnheardAfter)

/-- Describes a device again where it has to be, reports it and keeps it. -/
def publish (w : World) (id : String) (known : Known) (again : Bool)
    (causedBy : Option ContextId) : World :=
  let (told, known) :=
    if again then
      let (_, told, known) := describe env w.told known
      (told, known)
    else (w.told, known)
  ({ w with told := told }.tell (report known causedBy false)).keep id known

def isHub (listed : Listed) : Bool :=
  match Family.of listed.deviceType with
  | some (.hub _) => true
  | _ => false

/-- Hubs first, so a device can say it's reached through one already described. -/
def hubsFirst (list : List Listed) : List Listed :=
  list.filter isHub ++ list.filter (!isHub ·)

def introduce (w : World) (known : Known) : World :=
  match describe env w.told known with
  | (true, told, known) =>
    ({ w with told := told }.tell (report known none true)).keep known.listed.id known
  | (false, told, known) => { w with told := told }.keep known.listed.id known

/-- Describes a device the last run knew, and reports its last reading. -/
def revive (saved : List Saved) (w : World) (listed : Listed) : World :=
  match Family.of listed.deviceType with
  | none => w
  | some family =>
    -- The last of one id, as a map of the readings has it; one is used up.
    match (if w.devices.contains listed.id then none
      else (saved.filter (·.listed.id == listed.id)).getLast?) with
    | some last =>
      w.introduce env
        { Known.new listed family last.reading with
          fromCloud := last.fromCloud, heardAt := last.heardAt }
    | none =>
      w.introduce env
        { Known.new listed family Reading.empty with fromCloud := false, heardAt := none }

/-- Describes the devices the last run knew and reports their last readings. -/
def restore (w : World) (moment : Moment) (saved : List Saved) : World :=
  let kept := saved.filter fun s => s.fromCloud || !forgotten s.heardAt moment.now
  let w := { w with readingsDirty := w.readingsDirty || kept.length != saved.length }
  (hubsFirst (kept.map (·.listed))).foldl (revive env kept) w

def fresh (cloud listens : Bool) : World :=
  ⟨cloud, ∅, ∅, [], if listens then .listening else .off, false, false, ∅, ∅, []⟩

inductive LinkQuality
  | excellent
  | good
  | fair
  | poor
  deriving DecidableEq

def LinkQuality.fromRssi (dbm : Int) : LinkQuality :=
  if -60 ≤ dbm then .excellent else if -70 ≤ dbm then .good else if -80 ≤ dbm then .fair else .poor

def quality (ear : Ear) : Option LinkQuality := ear.rssi.map LinkQuality.fromRssi

def hark (w : World) (moment : Moment) (mac : String) (rssi : Option Int) : World :=
  let ear : Ear := ⟨moment.instant, rssi⟩
  let same := (w.ears[mac]?).any fun before => quality before == quality ear
  { w with ears := w.ears.insert mac ear, mapDirty := w.mapDirty || !same }

def takeIn (w : World) (moment : Moment) (mac : String) (heard : Heard) : World :=
  let w := w.hark moment mac heard.rssi
  match w.devices[mac]? with
  | none => w
  | some before =>
    let known := Known.heed before moment.now heard.reading
    let w := { w with readingsDirty := w.readingsDirty || known.heardAt != before.heardAt ||
      known.reading != before.reading }
    let w :=
      if known.reading = before.reading then w.keep mac known
      else w.publish env mac known (reshaped known) none
    w.setAvailable mac true

/-- A device that only Bluetooth knows, named after its type and the end of its address. -/
def found (mac : String) (heard : Heard) (family : Family) : Known :=
  let tail := String.ofList (mac.toList.drop (mac.toList.length - 4))
  { Known.new ⟨mac, readable heard.deviceType ++ " " ++ tail, heard.deviceType, none⟩ family
      Reading.empty with fromCloud := false }

/-- Takes in a Bluetooth advert: of a device that is known, or with no account, of any device
nearby. -/
def hear (w : World) (moment : Moment) (advert : Advert) : World :=
  match advert.mac with
  | none => w
  | some mac =>
    if advert.claimsAnotherAddress then { w with impostors := w.impostors.insert mac }
    else
      match parse advert ((w.devices[mac]?).map (·.listed.deviceType)) with
      | none => w
      | some heard =>
        let w := { w with radio := .listening }
        if w.devices.contains mac then w.takeIn env moment mac heard
        -- With an account, only its devices: a neighbour's is the neighbour's.
        else if w.cloud then { w with strangers := w.strangers.insert mac }
        else
          match Family.of heard.deviceType with
          | none => w
          | some family =>
            match describe env w.told (found mac heard family) with
            | (false, told, _) => { w with told := told }
            | (true, told, known) =>
              ({ w with told := told, readingsDirty := true }.keep mac known).takeIn env moment mac
                heard

/-- A device the account no longer lists. Deleted in the app but still nearby: Bluetooth keeps
it. -/
def unlist (moment : Moment) (w : World) (id : String) : World :=
  match w.devices[id]? with
  | none => w
  | some known =>
    if w.heardLately env moment id then
      w.keep id { known with fromCloud := false, listed := { known.listed with hub := none } }
    else
      let w := { w with devices := w.devices.erase id, readingsDirty := true }
      match uniqueId? id with
      | none => w
      | some device => w.tell [.deviceGone device]

/-- A device the account lists: described where it's new or changed. -/
def enlist (hubs : List String) (w : World) (listed : Listed) : World :=
  match Family.of listed.deviceType with
  | none => w
  | some family =>
    let listed := { listed with hub := listed.hub.filter hubs.contains }
    match w.devices[listed.id]? with
    | none => { w with readingsDirty := true }.introduce env (Known.new listed family Reading.empty)
    | some known =>
      let known := { known with fromCloud := true }
      if known.listed = listed then w.keep listed.id known
      else
        { w with readingsDirty := true }.introduce env
          { known with family := family, listed := listed }

/-- Takes in a fresh device list: describes what's new or changed, removes what's gone. -/
def adopt (w : World) (moment : Moment) (list : List Listed) : World :=
  let ids := list.map (·.id)
  let hubs := (list.filter isHub).map (·.id)
  let gone := (w.devices.toList.filter fun entry =>
    entry.2.fromCloud && !ids.contains entry.1).map Prod.fst
  (hubsFirst list).foldl (enlist env hubs) (gone.foldl (unlist env moment) w)

def ask (w : World) (id : String) (causedBy : Option ContextId) : World :=
  if w.cloud && w.devices.contains id then { w with asked := w.asked ++ [(id, causedBy)] } else w

def learn (w : World) (moment : Moment) (id : String) (status : Status)
    (causedBy : Option ContextId) (known : Known) : World :=
  let reading := Reading.fromStatus env.decimals known.family status
  let known := known.toldByCloud (w.heardLately env moment id) reading
  let again := reshaped known || decide (known.version ≠ known.reading.version)
  ({ w with readingsDirty := true }.publish env id known again causedBy).setAvailable id
    (reading.online.getD true)

/-- What an answer says of the hub: every one about the device but the hub's own says it's up. -/
def hubUp : Except CloudError Status → Option Bool
  | .ok _ | .error .deviceOffline | .error .refused => some true
  | .error .hubOffline => some false
  | .error _ => none

def tellHub (w : World) (id : String) (up : Option Bool) : World :=
  match (w.devices[id]?).bind (·.listed.hub), up with
  | some hub, some up => w.setAvailable hub up
  | _, _ => w

def status (w : World) (moment : Moment) (id : String) (result : Except CloudError Status)
    (causedBy : Option ContextId) : World :=
  match result with
  | .ok said =>
    match w.devices[id]? with
    | none => w
    | some known => (w.learn env moment id said causedBy known).tellHub id (hubUp result)
  | .error .deviceOffline | .error .hubOffline =>
    (w.setAvailable id false).tellHub id (hubUp result)
  | .error _ => w.tellHub id (hubUp result)

def hush (w : World) (id : String) : World :=
  let w := { w with ears := w.ears.erase id, mapDirty := true }
  if (w.devices[id]?).any (!·.fromCloud) then w.setAvailable id false else w

def forget (w : World) (id : String) : World :=
  { w with devices := w.devices.erase id, readingsDirty := true, mapDirty := true }

def redraw (w : World) (moment : Moment) : World :=
  let quiet := (w.ears.toList.filter fun entry =>
    decide (env.heard ≤ moment.instant - entry.2.instant)).map Prod.fst
  let w := quiet.foldl hush w
  let gone := (w.devices.toList.filter fun entry =>
    !entry.2.fromCloud && forgotten entry.2.heardAt moment.now).map Prod.fst
  { gone.foldl forget w with mapDirty := false }

inductive Event
  | heard (advert : Advert)
  | listening
  | deaf (why : String)
  | listed (list : List Listed)
  | asks (id : String) (causedBy : Option ContextId)
  | answered (id : String) (causedBy : Option ContextId) (result : Except CloudError Status)
  | redraws

/-- What one thing that happens does. Only an account has a list, and only what was asked is
answered. -/
def step (w : World) (moment : Moment) : Event → World
  | .heard advert => w.hear env moment advert
  | .listening => { w with radio := .listening }
  | .deaf why => { w with radio := .failed why }
  | .listed list => if w.cloud then w.adopt env moment list else w
  | .asks id causedBy => w.ask id causedBy
  | .answered id causedBy result =>
    if w.asked.contains (id, causedBy) then
      { w with asked := w.asked.erase (id, causedBy) }.status env moment id result causedBy
    else w
  | .redraws => w.redraw env moment

end World

end SwitchBot

end Irori
