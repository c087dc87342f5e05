import Irori.Home.Types

/-!
# Devices running ESPHome

The loop that starts a connection for each device that announces itself, takes in what the
connections say, and sends each service call to the connection that speaks for the device. What the
network map draws, the health and what has no kind of entity yet are left out, and so is the
conversation of one connection but for the order of what it says.
-/

namespace Irori

namespace Esphome

open Core

/-- Which connection something came from. Addresses are reused; the number is handed out once and
never repeats. -/
structure Connection (α : Type) where
  id : Nat
  address : α
  deriving DecidableEq

structure Task (α : Type) where
  connection : Connection α
  /-- The connection that reads the queue. -/
  commands : Connection α
  deriving DecidableEq

structure Node (α : Type) where
  connection : Connection α
  commands : Connection α
  entities : List UniqueId
  online : Bool
  deriving DecidableEq

def isMac (text : String) : Bool :=
  text.toList.length == 17 && text.toList.zipIdx.all fun c =>
    if c.2 % 3 = 2 then c.1 == ':' else "0123456789ABCDEF".toList.contains c.1

structure Mac where
  text : String
  wellFormed : isMac text = true
  deriving DecidableEq

lemma Mac.text_injective : Function.Injective Mac.text := by
  rintro ⟨a, _⟩ ⟨b, _⟩ h
  simpa using h

instance : LinearOrder Mac := LinearOrder.lift' Mac.text Mac.text_injective

instance Mac.transCmp : Std.TransCmp (compare : Mac → Mac → Ordering) := inferInstance

structure Announced (α : Type) where
  address : α
  mac : Option Mac
  name : String
  encrypted : Bool
  deriving DecidableEq

/-- Where a secret is to go, and what to call it. -/
structure SecretRequest where
  path : List String
  label : String
  hint : Option String
  deriving DecidableEq

structure Waiting where
  uniqueId : UniqueId
  name : Name
  reason : String
  secret : Option SecretRequest
  deriving DecidableEq

abbrev Settings (Key : Type) := Map Mac (Except String Key)

structure Devices (α : Type) [LinearOrder α] where
  tasks : Map α (Task α)
  nodes : Map UniqueId (Node α)
  unreachable : Map α String
  connections : Nat
  announced : Map α (Announced α)
  waiting : Map Mac Waiting

inductive Event (α κ σ : Type)
  | arrived (connection : Connection α) (device : DeviceDescription)
    (entities : List (EntityDescription κ))
  | reported (connection : Connection α) (device : UniqueId) (report : StateReport σ)
  | left (connection : Connection α) (device : UniqueId) (why : String)
  | unreachable (connection : Connection α) (why : String)
  | locked (connection : Connection α) (why : String)

structure Answers (κ : Type) where
  device : Bool
  entity : EntityDescription κ → Bool
  availability : UniqueId → Bool

inductive Told (α κ σ : Type)
  | device (description : DeviceDescription)
  | entity (description : EntityDescription κ)
  | entityGone (uniqueId : UniqueId)
  | unavailable (device : UniqueId)
  | report (report : StateReport σ)
  | call (entity : UniqueId) (receiver : Connection α)
  | refused (entity : UniqueId) (why : String)

def uniqueId? (text : String) : Option UniqueId :=
  if h : checkUniqueId text = .ok () then some ⟨text, h⟩ else none

def name? (text : String) : Option Name :=
  if h : checkName text = .ok () then some ⟨text, h⟩ else none

/-- What the Add device panel shows for a device that needs its key. -/
def needsKey (mac : Mac) (name why : String) : Option Waiting :=
  match uniqueId? mac.text, (name? (trim name)).or (name? mac.text) with
  | some uniqueId, some name =>
    some ⟨uniqueId, name, why, some ⟨["keys", mac.text], "Encryption key",
      some "`api: encryption: key:` in the device's ESPHome YAML"⟩⟩
  | _, _ => none

section

variable {α κ σ Key : Type} [LinearOrder α]

namespace Devices

def empty : Devices α := ⟨∅, ∅, ∅, 0, ∅, ∅⟩

def wait (devices : Devices α) (mac : Mac) (name why : String) : Devices α :=
  match needsKey mac name why with
  | none => devices
  | some waiting => { devices with waiting := devices.waiting.insert mac waiting }

def next (devices : Devices α) (address : α) : Connection α := ⟨devices.connections + 1, address⟩

def connect (devices : Devices α) (address : α) : Devices α :=
  let connection := devices.next address
  { devices with
    connections := devices.connections + 1
    tasks := devices.tasks.insert address ⟨connection, connection⟩ }

/-- Starts talking to a device that announced itself, unless it needs a key it doesn't have. -/
def arrive (settings : Settings Key) (devices : Devices α) (announced : Announced α) : Devices α :=
  if devices.tasks.contains announced.address then devices
  else if announced.mac.any fun mac => devices.waiting.contains mac then devices
  else
    let devices := { devices with
      announced := devices.announced.insert announced.address announced }
    if announced.encrypted then
      match announced.mac with
      | none => devices
      | some mac =>
        match settings[mac]? with
        | some (.ok _) => devices.connect announced.address
        | some (.error bad) =>
          devices.wait mac announced.name ("the key it was given can't be used: " ++ bad)
        | none => devices.wait mac announced.name "it wants an encryption key"
    else devices.connect announced.address

inductive TrySend
  | ok
  | full
  | closed

def route (devices : Devices α) (entity : UniqueId) (sent : TrySend) : Told α κ σ :=
  match devices.nodes.toList.find? fun entry => entry.2.entities.contains entity with
  | none =>
    .refused entity ("`" ++ entity.text ++ "` belongs to a device Irori isn't connected to right now")
  | some (device, node) =>
    if node.online then
      match sent with
      | .ok => .call entity node.commands
      | .full => .refused entity ("`" ++ device.text ++ "` has too many commands queued already")
      | .closed => .refused entity ("`" ++ device.text ++ "` just went away")
    else .refused entity ("`" ++ device.text ++ "` isn't connected right now")

def current (devices : Devices α) (connection : Connection α) : Bool :=
  (devices.tasks[connection.address]?).any fun task => decide (task.connection = connection)

def takenOver (devices : Devices α) (address : α) (device : UniqueId) : Bool :=
  devices.nodes.toList.any fun entry =>
    decide (entry.2.connection.address = address) && decide (entry.1 ≠ device)

/-- The old connection of a device that moved is stopped, where the address it left is still its
own. -/
def leave (devices : Devices α) (device : UniqueId) (connection : Connection α) : Devices α :=
  match devices.nodes[device]? with
  | none => devices
  | some previous =>
    if previous.connection = connection then devices
    else if devices.takenOver previous.connection.address device then devices
    else
      { devices with
        tasks := devices.tasks.erase previous.connection.address
        unreachable := devices.unreachable.erase previous.connection.address }

def displaced (address : α) (device id : UniqueId) (node : Node α) : Node α :=
  if node.connection.address = address ∧ id ≠ device then { node with online := false } else node

def introduce (answers : Answers κ) (devices : Devices α) (connection : Connection α)
    (device : DeviceDescription) (entities : List (EntityDescription κ)) :
    Except String (Devices α × List (Told α κ σ)) :=
  if answers.device then
    let id := device.uniqueId
    let described := (entities.filter fun entity => answers.entity entity).map (·.uniqueId)
    let gone := ((devices.nodes[id]?).elim [] (·.entities)).filter (!described.contains ·)
    let devices := devices.leave id connection
    let away := (devices.nodes.toList.filter fun entry =>
      decide (entry.2.connection.address = connection.address ∧ entry.1 ≠ id)).map Prod.fst
    if away.all answers.availability then
      match devices.tasks[connection.address]? with
      | none => .error ("`" ++ id.text ++ "` arrived with no task behind it")
      | some task =>
        let nodes := devices.nodes.map (displaced connection.address id)
        .ok ({ devices with
          unreachable := devices.unreachable.erase connection.address
          waiting := devices.waiting.filter fun mac _ => decide (mac.text ≠ id.text)
          nodes := nodes.insert id ⟨connection, task.commands, described, true⟩ },
          [.device device] ++ entities.map .entity ++ gone.map .entityGone ++ away.map .unavailable)
    else .error "the core wouldn't mark a device unavailable"
  else .error "the core wouldn't take a device"

def apply (answers : Answers κ) (devices : Devices α) :
    Event α κ σ → Except String (Devices α × List (Told α κ σ))
  | .arrived connection device entities =>
    if devices.current connection then devices.introduce answers connection device entities
    else .ok (devices, [])
  | .reported connection device report =>
    match devices.nodes[device]? with
    | some node =>
      -- A report queued by a replaced connection is about a conversation that has ended.
      if node.connection = connection then .ok (devices, [.report report]) else .ok (devices, [])
    | none => .ok (devices, [.report report])
  | .left connection device _ =>
    match devices.nodes[device]? with
    | none => .ok (devices, [])
    | some node =>
      if node.connection = connection ∧ node.online = true then
        if answers.availability device then
          .ok ({ devices with nodes := devices.nodes.insert device { node with online := false } },
            [.unavailable device])
        else .error "the core wouldn't mark a device unavailable"
      else .ok (devices, [])
  | .locked connection why =>
    if devices.current connection then
      let address := connection.address
      let devices := { devices with
        tasks := devices.tasks.erase address, unreachable := devices.unreachable.erase address }
      let named := (devices.announced[address]?).bind fun announced =>
        announced.mac.map fun mac => (mac, announced.name)
      match named with
      | some (mac, name) => .ok (devices.wait mac name why, [])
      | none => .ok (devices, [])
    else .ok (devices, [])
  | .unreachable connection why =>
    if devices.current connection then
      .ok ({ devices with unreachable := devices.unreachable.insert connection.address why }, [])
    else .ok (devices, [])

end Devices

namespace Event

def connection : Event α κ σ → Connection α
  | arrived connection _ _ | reported connection _ _ | left connection _ _
  | unreachable connection _ | locked connection _ => connection

end Event

structure Speaker where
  /-- Who it turned out to be, kept across reconnects. -/
  known : Option UniqueId
  /-- It introduced somebody and hasn't lost them since. -/
  inSession : Bool
  ended : Bool
  deriving DecidableEq

namespace Speaker

def fresh : Speaker := ⟨none, false, false⟩

/-- What a connection may say next, in its own order: it introduces a device, reports for it, and
loses it before it introduces one again; it couldn't connect at all only before the first; and it
has lost its device before it says it's locked. -/
def utters (speaker : Speaker) : Event α κ σ → Option Speaker
  | .arrived _ device _ =>
    if !speaker.ended && !speaker.inSession then
      some { speaker with known := some device.uniqueId, inSession := true }
    else none
  | .reported _ device _ =>
    if !speaker.ended && speaker.inSession && decide (speaker.known = some device) then some speaker
    else none
  | .left _ device _ =>
    if !speaker.ended && decide (speaker.known = some device) then
      some { speaker with inSession := false }
    else none
  | .unreachable _ _ => if !speaker.ended && speaker.known.isNone then some speaker else none
  | .locked _ _ =>
    if !speaker.ended && !speaker.inSession then some { speaker with ended := true } else none

end Speaker

/-- The loop, how far each connection has come, and the device each one last introduced. -/
structure Loop (α : Type) [LinearOrder α] where
  devices : Devices α
  speakers : Connection α → Option Speaker
  introduced : Connection α → Option UniqueId

inductive Happening (α κ σ : Type)
  | announced (announced : Announced α)
  | spoke (answers : Answers κ) (event : Event α κ σ)
  | called (entity : UniqueId) (sent : Devices.TrySend)

namespace Loop

def start : Loop α := ⟨.empty, fun _ => none, fun _ => none⟩

def hear (settings : Settings Key) (loop : Loop α) (announced : Announced α) : Loop α :=
  let devices := loop.devices.arrive settings announced
  { loop with
    devices := devices
    speakers :=
      if devices.connections = loop.devices.connections then loop.speakers
      else
        Function.update loop.speakers (loop.devices.next announced.address) (some Speaker.fresh) }

def note (loop : Loop α) : Event α κ σ → Connection α → Option UniqueId
  | .arrived connection device _ =>
    if loop.devices.current connection then
      Function.update loop.introduced connection (some device.uniqueId)
    else loop.introduced
  | _ => loop.introduced

/-- Something a connection says, in its own order. `none` where that isn't what it says next, or
where the loop fails. -/
def listen (loop : Loop α) (answers : Answers κ) (event : Event α κ σ) :
    Option (Loop α × List (Told α κ σ)) :=
  match (loop.speakers event.connection).bind (·.utters event) with
  | none => none
  | some speaker =>
    match loop.devices.apply answers event with
    | .error _ => none
    | .ok (devices, told) =>
      some (⟨devices, Function.update loop.speakers event.connection (some speaker),
        loop.note event⟩, told)

def step (settings : Settings Key) (loop : Loop α) :
    Happening α κ σ → Option (Loop α × List (Told α κ σ))
  | .announced announced => some (loop.hear settings announced, [])
  | .spoke answers event => loop.listen answers event
  | .called entity sent => some (loop, [loop.devices.route entity sent])

end Loop

end

end Esphome

end Irori
