import Irori.Config.Operations
import Irori.Home.Ids

/-!
# Zigbee2MQTT's `configuration.yaml`

How the file is made of the settings and of the `advanced` block Zigbee2MQTT left in it, from the
extension's `config`, and how a start reads and writes it, from its `lib`. A write may fail at its
temporary file or at the rename that puts that in place.
-/

namespace Irori.Zigbee

open Config (splitInclusive)

inductive Adapter
  | ember
  | zstack
  | deconz
  | zboss
  deriving DecidableEq

def Adapter.asStr : Adapter → String
  | .ember => "ember"
  | .zstack => "zstack"
  | .deconz => "deconz"
  | .zboss => "zboss"

structure Settings where
  serialPort : List Char
  adapter : Adapter
  channel : Option UInt8
  panId : Option UInt16
  networkKey : Option (List Char)
  brokerPort : UInt16

/-- The key of one line at an `advanced` body's own indentation. None for anything indented deeper,
or not a key at all. -/
def keyOf : List Char → Option (List Char)
  | ' ' :: ' ' :: rest =>
    let key := rest.takeWhile (· ≠ ':')
    if rest.contains ':' && !key.isEmpty && !key.head?.any isWhitespace then some key else none
  | _ => none

/-- The lines of a block that the decided keys don't replace. `replacing` says whether the key
before them is one they do. -/
def kept (decided : List (List Char)) : Bool → List (List Char) → List (List Char)
  | _, [] => []
  | replacing, line :: lines =>
    match keyOf line with
    | some key =>
      if decided.contains key then kept decided true lines else line :: kept decided false lines
    | none =>
      if !replacing && !line.all isWhitespace then line :: kept decided replacing lines
      else kept decided replacing lines

/-- Everything in a previous block that `decided` doesn't replace. -/
def carriedForward (existing : Option (List Char)) (decided : List (List Char)) : List Char :=
  match existing with
  | none => []
  | some existing => (kept decided false (splitInclusive existing)).flatten

/-- What comes after a marker, where it is first found. -/
def afterMarker (marker : List Char) : List Char → Option (List Char)
  | [] => if marker.isEmpty then some [] else none
  | c :: text =>
    if marker.isPrefixOf (c :: text) then some ((c :: text).drop marker.length)
    else afterMarker marker text

def inBlock (line : List Char) : Bool :=
  (line.rdropWhile (· = '\n')).isEmpty || "  ".toList.isPrefixOf line

def existingAdvancedBlock (yaml : List Char) : Option (List Char) :=
  match afterMarker "advanced:\n".toList yaml with
  | none => none
  | some rest =>
    let block := ((splitInclusive rest).takeWhile inBlock).flatten
    if block.all isWhitespace then none else some block

def hexValue (c : Char) : Option ℕ :=
  if '0' ≤ c ∧ c ≤ '9' then some (c.toNat - '0'.toNat)
  else if 'a' ≤ c ∧ c ≤ 'f' then some (c.toNat - 'a'.toNat + 10)
  else if 'A' ≤ c ∧ c ≤ 'F' then some (c.toNat - 'A'.toNat + 10)
  else none

def bytesOf : List ℕ → List ℕ
  | high :: low :: rest => (16 * high + low) :: bytesOf rest
  | _ => []

def notAKey : String :=
  "a network key is 16 bytes as hex (32 hex digits) — e.g. copied from another " ++
    "Zigbee2MQTT's own configuration.yaml"

/-- A network key: 16 bytes as hex, with or without what separates them. -/
def parseNetworkKey (text : List Char) : Except String (List ℕ) :=
  match (text.filter fun c => !isWhitespace c && c ≠ ':').mapM hexValue with
  | some digits =>
    if digits.length = 32 then .ok (bytesOf digits)
    else .error notAKey
  | none => .error notAKey

def digits (n : ℕ) : List Char := (toString n).toList

def escape (text : List Char) : List Char :=
  (text.flatMap fun c => if c = '\\' then ['\\', '\\'] else [c]).flatMap fun c =>
    if c = '"' then ['\\', '"'] else [c]

structure Decided where
  key : List Char
  value : List Char

def Decided.line (decided : Decided) : List Char :=
  "  ".toList ++ decided.key ++ ": ".toList ++ decided.value ++ ['\n']

def decidedChannel : Option UInt8 → Except String (List Decided)
  | none => .ok []
  | some channel =>
    if channel < 11 || 26 < channel then
      .error s!"channel {channel} isn't a Zigbee channel: they run 11 to 26"
    else .ok [⟨"channel".toList, digits channel.toNat⟩]

def decidedPanId : Option UInt16 → List Decided
  | none => []
  | some panId => [⟨"pan_id".toList, digits panId.toNat⟩]

def decidedNetworkKey : Option (List Char) → Except String (List Decided)
  | none => .ok []
  | some key =>
    match parseNetworkKey key with
    | .error e => .error e
    | .ok bytes =>
      let listed := ((bytes.map digits).intersperse ", ".toList).flatten
      .ok [⟨"network_key".toList, '[' :: listed ++ [']']⟩]

def decidedBy (settings : Settings) : Except String (List Decided) :=
  match decidedChannel settings.channel, decidedNetworkKey settings.networkKey with
  | .error e, _ => .error e
  | .ok _, .error e => .error e
  | .ok channel, .ok networkKey => .ok (channel ++ decidedPanId settings.panId ++ networkKey)

def generate (settings : Settings) (baseTopic : List Char) (existing : Option (List Char)) :
    Except String (List Char) := do
  let yaml := "homeassistant:\n  enabled: true\n  experimental_event_entities: true\n".toList ++
    "mqtt:\n  server: \"mqtt://127.0.0.1:".toList ++ digits settings.brokerPort.toNat ++
    "\"\n  base_topic: \"".toList ++ escape baseTopic ++ "\"\n".toList ++
    "serial:\n  port: \"".toList ++ escape settings.serialPort ++ "\"\n  adapter: ".toList ++
    settings.adapter.asStr.toList ++ "\n".toList ++
    "frontend:\n  enabled: false\n".toList ++ "permit_join: false\n".toList
  let decided ← decidedBy settings
  let advanced := (decided.map Decided.line).flatten ++
    carriedForward existing (decided.map Decided.key)
  return if advanced.isEmpty then yaml else yaml ++ "advanced:\n".toList ++ advanced

structure Folder where
  config : Option (List Char)
  temporary : Option (List Char)

inductive Ending
  | notCreated
  /-- The temporary file is left with this much. -/
  | notWritten (left : Option (List Char))
  | notRenamed
  | done
  deriving DecidableEq

def writeAtomically (contents : List Char) (ending : Ending) (folder : Folder) : Folder :=
  match ending with
  | .notCreated => folder
  | .notWritten left => { folder with temporary := left }
  | .notRenamed => { folder with temporary := some contents }
  | .done => { config := some contents, temporary := none }

def baseTopic : List Char := "zigbee2mqtt".toList

def start (settings : Settings) (readable : Bool) (ending : Ending) (folder : Folder) : Folder :=
  let text := if readable then folder.config else none
  match generate settings baseTopic (text.bind existingAdvancedBlock) with
  | .error _ => folder
  | .ok yaml => writeAtomically yaml ending folder

end Irori.Zigbee
