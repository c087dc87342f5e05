import Irori.Config.Store
import Irori.Home.Types

/-!
# Operations on the config

The config directory, wired to the running core. Every change goes the same way round: the files are
read again, the change is made or refused, the files are written, and the core is told. One lock
makes each a step of its own. Which of a person's rooms there are, and what a problem is reported
as, is left out.
-/

namespace Irori.Config

open Irori.Core (Floor Area DeviceSettings EntitySettings)

structure Placed (τ : Type) where
  device : Option DeviceId
  rest : τ
  deriving DecidableEq

structure Level (τ : Type) where
  devices : List (Placed τ)
  rest : τ
  deriving DecidableEq

abbrev Floorplan (τ : Type) := Map FloorId (Level τ)

structure RecorderSection where
  retainDays : Nat
  summaryDays : Option Nat
  deriving DecidableEq

def RecorderSection.check (part : RecorderSection) : Except String Unit :=
  if part.retainDays = 0 then .error "recorder.retain_days must be at least 1"
  else
    match part.summaryDays with
    | none => .ok ()
    | some days =>
      if days = 0 then
        .error ("recorder.summary_days must be at least 1, or be left out to keep hourly " ++
          "summaries")
      else if days < part.retainDays then
        .error ("recorder.summary_days must be at least retain_days. Leave it out to keep hourly " ++
          "summaries")
      else .ok ()

structure IroriSettings (ι : Type) where
  recorder : RecorderSection
  disabled : List ExtensionId
  rest : ι

/-- What each file holds, where that is not the same for every directory. -/
@[reducible]
def Kept (τ η ι : Type) : File → Type
  | .irori => IroriSettings ι
  | .areas => List Floor × List Area
  | .floorplan => Floorplan τ
  | .devices => Map DeviceId DeviceSettings
  | .entities => Map Key EntitySettings
  | .home => η
  | .secrets => Unit
  | .users => Unit

/-- How the files are read and written, those of extensions too. A table can hold what can't be
written. -/
structure Formats (τ η ι : Type) extends Format (Kept τ η ι) where
  readExtension : String → Except String Table
  writeExtension : ExtensionId → Table → Except String String

structure Settings (τ : Type) where
  floors : List Floor
  areas : List Area
  floorplan : Floorplan τ
  devices : Map DeviceId DeviceSettings
  entities : Map Key EntitySettings
  askBeforeAdding : Bool
  deriving DecidableEq

variable {τ η ι : Type}

/-- Takes the chosen devices and entities out of settings, and the devices off the floorplan. -/
def forget (settings : Settings τ) (device : DeviceId → Bool) (entity : Key → Bool) : Settings τ :=
  { settings with
    devices := settings.devices.filter fun id _ => !device id
    entities := settings.entities.filter fun key _ => !entity key
    floorplan := settings.floorplan.map fun _ level =>
      { level with devices := level.devices.filter fun placed => !placed.device.any device } }

def idPrefix (protocol : ProtocolId) : List Char :=
  let made := (deviceIdFor protocol ⟨"x", by decide⟩).text.toList
  if made.getLast? = some 'x' then made.dropLast else []

/-- Whether a device came in through a protocol. Where another installed protocol's prefix also fits,
and is longer, the device is that one's. -/
def broughtInBy (device : DeviceId) (protocol : ProtocolId) (others : List ProtocolId) : Bool :=
  let own := idPrefix protocol
  !own.isEmpty && own.isPrefixOf device.text.toList &&
    !(others.map idPrefix).any fun other =>
      own.length < other.length && other.isPrefixOf device.text.toList

def splitInclusive : List Char → List (List Char)
  | [] => []
  | c :: rest =>
    if c = '\n' then [c] :: splitInclusive rest
    else
      match splitInclusive rest with
      | [] => [[c]]
      | line :: lines => (c :: line) :: lines

/-- The table a line opens, when it is a section header. -/
def sectionName (line : List Char) : Option String :=
  match (Core.trim (String.ofList line)).toList with
  | '[' :: rest =>
    if rest.contains ']' then
      let name := Core.trim (String.ofList (rest.takeWhile (· ≠ ']')))
      if name = "" || name.toList.contains '[' then none else some name
    else none
  | _ => none

/-- Replaces the `[recorder]` section of a text, or appends one. Every other line is kept. -/
def upsertRecorder (text : String) (part : RecorderSection) : String :=
  let block := ("[recorder]\nretain_days = " ++ toString part.retainDays ++ "\n" ++
    match part.summaryDays with
    | some days => "summary_days = " ++ toString days ++ "\n"
    | none => "").toList
  let lines := splitInclusive text.toList
  let ended (out : List Char) : List Char :=
    if out ≠ [] && !List.isSuffixOf ['\n'] out then out ++ ['\n'] else out
  let spaced (out : List Char) : List Char :=
    if out ≠ [] && !List.isSuffixOf ['\n', '\n'] out then out ++ ['\n'] else out
  match lines.findIdx? fun line => sectionName line = some "recorder" with
  | none => String.ofList (spaced (ended text.toList) ++ block)
  | some begin_ =>
    let after := lines.drop (begin_ + 1)
    let stop := (after.findIdx? fun line => (sectionName line).isSome).getD after.length
    String.ofList (spaced (ended (lines.take begin_).flatten) ++ block ++
      (after.drop stop).flatten)

structure ConfigDir (τ η ι : Type) where
  files : Files
  /-- `extensions/<id>.toml`. -/
  extensionFiles : Map ExtensionId Written
  listable : Bool
  store : Store (Kept τ η ι)
  extensions : Map ExtensionId (Part Table)

structure Person where
  id : UserId
  name : String
  owner : Bool
  deriving DecidableEq

def peopleOf (users : List User) : List Person :=
  users.map fun user => ⟨user.id, user.name, user.role.runsTheHome⟩

structure Held (τ η : Type) where
  settings : Settings τ
  extensions : ExtensionSettings
  people : List Person
  home : η
  recorder : RecorderSection
  disabled : List ExtensionId

/-- How far writing a file got, where it failed: nothing was put in its place, or the file written
beside it couldn't be. -/
inductive IoStage
  | preparing | placing
  deriving DecidableEq

inductive Fate
  | works (modified : Option Nat)
  | cantPrepare
  | cantPlace
  deriving DecidableEq

def Fate.isWorking : Fate → Bool
  | .works _ => true
  | _ => false

/-- What an operation meets: with each file it writes, with a file it puts back, and with one it
takes away again. -/
structure Fates where
  file : File → Fate
  extension : Fate
  restore : Fate
  removes : Bool

namespace ConfigDir

variable (format : Formats τ η ι) (home : ConfigDir τ η ι)

def extensionText (written : Written) : Option Table :=
  written.text.bind fun text => (format.readExtension text).toOption

/-- Reads the files of extensions: new ones, changed ones, and ones that have gone. -/
def reloadExtensions : Map ExtensionId (Part Table) :=
  if home.listable then
    home.extensionFiles.filterMap fun id written =>
      if (home.extensions[id]?).any fun part => part.seen = some written.seen then
        home.extensions[id]?
      else
        match extensionText format written with
        | some value => some ⟨value, some written.seen⟩
        | none => home.extensions[id]?
  else home.extensions

def reload : ConfigDir τ η ι :=
  { home with
    store := home.store.reload format.toFormat home.files
    extensions := home.reloadExtensions format }

def settings : Settings τ where
  floors := (home.store .areas).value.1
  areas := (home.store .areas).value.2
  floorplan := (home.store .floorplan).value
  devices := (home.store .devices).value
  entities := (home.store .entities).value
  askBeforeAdding := true

/-- Each extension's settings: its file joined with its table of secrets. The secret of a key in
both is the one used. -/
def extensionSettings : ExtensionSettings :=
  home.extensions.toList.foldl (fun tables (id, part) =>
    tables.insert id (part.value.foldl (fun table (key, value) =>
      if (table.lookup key).isNone then Table.put key value table else table)
      ((tables[id]?).getD [])))
    (home.store .secrets).value

def held : Held τ η where
  settings := home.settings
  extensions := home.extensionSettings
  people := peopleOf (home.store .users).value
  home := (home.store .home).value
  recorder := (home.store .irori).value.recorder
  disabled := (home.store .irori).value.disabled

def hasText (file : File) (text : String) : Bool :=
  (home.files file).any fun written => written.text = some text

def replace (file : File) (text : String) : Fate → Except IoStage Files
  | fate =>
    if home.hasText file text then .ok home.files
    else
      match fate with
      | .works modified => .ok (Function.update home.files file (some (.of text modified)))
      | .cantPrepare => .error .preparing
      | .cantPlace => .error .placing

def save (file : File) (value : Contents (Kept τ η ι) file) (fate : Fate) :
    Except IoStage (ConfigDir τ η ι) :=
  match home.replace file (format.write file value) fate with
  | .ok files =>
    .ok { home with files, store := home.store.put file ⟨value, look files file⟩ }
  | .error stage => .error stage

def saveRecorder (part : RecorderSection) (fate : Fate) : Except IoStage (ConfigDir τ η ι) :=
  match textOf home.files .irori with
  | none => .error .preparing
  | some existing =>
    match home.replace .irori (upsertRecorder existing part) fate with
    | .ok files =>
      .ok { home with
        files
        store := home.store.put .irori
          ⟨{ (home.store .irori).value with recorder := part }, look files .irori⟩ }
    | .error stage => .error stage

def contents (settings : Settings τ) : (file : File) → Contents (Kept τ η ι) file
  | .areas => (settings.floors, settings.areas)
  | .floorplan => settings.floorplan
  | .devices => settings.devices
  | .entities => settings.entities
  | .irori => (home.store .irori).value
  | .secrets => (home.store .secrets).value
  | .home => (home.store .home).value
  | .users => (home.store .users).value

def changed (settings : Settings τ) : List File :=
  File.settings.filter fun file => !home.hasText file (format.write file (home.contents settings file))

/-- Files written beside the ones they are for are renamed into place, one after the other. -/
def place (text : File → String) (fates : File → Fate) : List File → Files → Files × Bool
  | [], files => (files, true)
  | file :: rest, files =>
    match fates file with
    | .works modified =>
      place text fates rest (Function.update files file (some (.of (text file) modified)))
    | _ => (files, false)

/-- Replaces what the directory says of the home, writing only the files that would change. Each is
written beside the one it is for first, and only then are they renamed into place. -/
def saveSettings (settings : Settings τ) (fates : File → Fate) :
    Except IoStage Unit × ConfigDir τ η ι :=
  if (home.changed format settings).any fun file => fates file = .cantPrepare then
    (.error .preparing, home)
  else
    let (files, placed) := place (fun file => format.write file (home.contents settings file)) fates
      (home.changed format settings) home.files
    if placed then
      (.ok (), { home with
        files
        store := fun file =>
          if file ∈ File.settings then ⟨home.contents settings file, look files file⟩
          else home.store file })
    else (.error .placing, { home with files })

def extensionFile (extension : ExtensionId) : Table :=
  ((home.extensions[extension]?).map Part.value).getD []

def saveExtension (extension : ExtensionId) (settings : Table) (fate : Fate) :
    Except IoStage (ConfigDir τ η ι) :=
  match format.writeExtension extension settings with
  | .error _ => .error .preparing
  | .ok text =>
    let hold (written : Written) : ConfigDir τ η ι :=
      { home with
        extensionFiles := home.extensionFiles.insert extension written
        extensions := home.extensions.insert extension ⟨settings, some written.seen⟩ }
    match home.extensionFiles[extension]? with
    | some written =>
      if written.text = some text then .ok (hold written)
      else
        match fate with
        | .works modified => .ok (hold (.of text modified))
        | .cantPrepare => .error .preparing
        | .cantPlace => .error .placing
    | none =>
      match fate with
      | .works modified => .ok (hold (.of text modified))
      | .cantPrepare => .error .preparing
      | .cantPlace => .error .placing

/-- Writes the people and their passwords as one change. If the secrets can't be written, the people
are put back as they were. -/
def saveUsersAndSecrets (users : List User) (secrets : ExtensionSettings) (fates : Fates) :
    Except IoStage Unit × ConfigDir τ η ι :=
  match home.save format .users users (fates.file .users) with
  | .error stage => (.error stage, home)
  | .ok saved =>
    match saved.save format .secrets secrets (fates.file .secrets) with
    | .ok saved => (.ok (), saved)
    | .error stage =>
      match saved.save format .users (home.store .users).value fates.restore with
      | .ok restored => (.error stage, restored)
      | .error _ => (.error stage, saved)

/-- Writes an extension's file and the secrets as one change. If the secrets can't be written, the
file is put back, or taken away where there was none. -/
def saveExtensionAndSecrets (extension : ExtensionId) (file : Table) (secrets : ExtensionSettings)
    (fates : Fates) : Except IoStage Unit × ConfigDir τ η ι :=
  match home.saveExtension format extension file fates.extension with
  | .error stage => (.error stage, home)
  | .ok saved =>
    match saved.save format .secrets secrets (fates.file .secrets) with
    | .ok saved => (.ok (), saved)
    | .error stage =>
      if home.extensions.contains extension then
        match saved.saveExtension format extension (home.extensionFile extension) fates.restore with
        | .ok restored => (.error stage, restored)
        | .error _ => (.error stage, saved)
      else
        (.error stage, { saved with
          extensionFiles :=
            if fates.removes then saved.extensionFiles.erase extension else saved.extensionFiles
          extensions := saved.extensions.erase extension })

end ConfigDir

/-- The core, with what else an operation looks at: the devices in the home or found, what their
entities are, which extensions there are, and whether the recorder still goes. -/
structure Running (τ η : Type) where
  held : Held τ η
  known : List DeviceId
  entityKeys : DeviceId → Option (List Key)
  installed : List ExtensionId
  recording : Bool

inductive Operation (τ η : Type)
  | edit (change : Settings τ → Except String (Settings τ))
  | forgetDevice (id : DeviceId)
  /-- A device its protocol has just unpaired, with the entities it had. -/
  | forgetUnpaired (id : DeviceId) (owned : List Key)
  | forgetProtocol (protocol : ProtocolId)
  | editExtension (extension : ExtensionId) (change : Table → Except String Table)
  | editSecrets (change : ExtensionSettings → Except String ExtensionSettings)
  | editExtensionWithSecrets (extension : ExtensionId) (change : Table → Except String Table)
      (secretsToSet : List (String × String))
  | editHome (change : η → Except String η)
  | editPeople (change : People → Except String (People × Unit))
  | editRecorder (part : RecorderSection)

inductive Answer
  | ok
  | refused
  | io (stage : IoStage)
  deriving DecidableEq

namespace ConfigDir

variable [DecidableEq τ] (format : Formats τ η ι) (home : ConfigDir τ η ι) (core : Running τ η)
  (fates : Fates)

abbrev Outcome (τ η ι : Type) := Answer × ConfigDir τ η ι × Running τ η

def tellSettings (settings : Settings τ) : Outcome τ η ι :=
  match home.saveSettings format settings fates.file with
  | (.ok (), saved) => (.ok, saved, { core with held := { core.held with settings } })
  | (.error stage, saved) => (.io stage, saved, core)

def tellExtensions (saved : ConfigDir τ η ι) : Running τ η :=
  { core with held := { core.held with extensions := saved.extensionSettings } }

/-- Settings without what Irori keeps of a device and its entities are written, and the core forgets
the device. `gone` is whether the core may already have lost it. -/
def forgetRows (id : DeviceId) (owned : List Key) (gone : Bool) : Outcome τ η ι :=
  let settings := forget home.settings (· = id) owned.contains
  match home.saveSettings format settings fates.file with
  | (.error stage, saved) => (.io stage, saved, core)
  | (.ok (), saved) =>
    if core.known.contains id || gone then
      (.ok, saved, { core with held := { core.held with settings } })
    else (.refused, saved, core)

def setSecrets (extension : ExtensionId) (toSet : List (String × String))
    (secrets : ExtensionSettings) : Except String ExtensionSettings :=
  toSet.foldlM (fun secrets (key, text) => secrets.set extension [key] text) secrets

def perform : Operation τ η → Outcome τ η ι
  | .edit change =>
    match change home.settings with
    | .error _ => (.refused, home, core)
    | .ok settings => home.tellSettings format core fates settings
  | .forgetDevice id =>
    home.forgetRows format core fates id ((core.entityKeys id).getD []) false
  | .forgetUnpaired id owned => home.forgetRows format core fates id owned true
  | .forgetProtocol protocol =>
    let others := (core.installed.filterMap fun id =>
      (Slug.parse "protocol id" id.text).toOption).filter (· ≠ protocol)
    let settings := forget home.settings (broughtInBy · protocol others) (·.protocol = protocol)
    if settings = home.settings then (.ok, home, core)
    else home.tellSettings format core fates settings
  | .editExtension extension change =>
    match change (home.extensionFile extension) with
    | .error _ => (.refused, home, core)
    | .ok file =>
      match home.saveExtension format extension file fates.extension with
      | .ok saved => (.ok, saved, tellExtensions core saved)
      | .error stage => (.io stage, home, core)
  | .editSecrets change =>
    match change (home.store .secrets).value with
    | .error _ => (.refused, home, core)
    | .ok secrets =>
      match home.save format .secrets secrets (fates.file .secrets) with
      | .ok saved => (.ok, saved, tellExtensions core saved)
      | .error stage => (.io stage, home, core)
  | .editExtensionWithSecrets extension change secretsToSet =>
    match change (home.extensionFile extension) with
    | .error _ => (.refused, home, core)
    | .ok file =>
      match setSecrets extension secretsToSet (home.store .secrets).value with
      | .error _ => (.refused, home, core)
      | .ok secrets =>
        match home.saveExtensionAndSecrets format extension file secrets fates with
        | (.ok (), saved) => (.ok, saved, tellExtensions core saved)
        | (.error stage, saved) => (.io stage, saved, core)
  | .editHome change =>
    match change (home.store .home).value with
    | .error _ => (.refused, home, core)
    | .ok value =>
      match home.save format .home value (fates.file .home) with
      | .ok saved => (.ok, saved, { core with held := { core.held with home := value } })
      | .error stage => (.io stage, home, core)
  | .editPeople change =>
    match home.store.people.edit change with
    | .error _ => (.refused, home, core)
    | .ok (people, _) =>
      match passwordsOf people (home.store .secrets).value with
      | .error _ => (.refused, home, core)
      | .ok secrets =>
        let told (saved : ConfigDir τ η ι) : Running τ η :=
          { core with held := { core.held with
              extensions := saved.extensionSettings, people := peopleOf people.users } }
        if secrets == (home.store .secrets).value then
          match home.save format .users people.users (fates.file .users) with
          | .ok saved => (.ok, saved, told saved)
          | .error stage => (.io stage, home, core)
        else
          match home.saveUsersAndSecrets format people.users secrets fates with
          | (.ok (), saved) => (.ok, saved, told saved)
          | (.error stage, saved) => (.io stage, saved, core)
  | .editRecorder part =>
    match home.saveRecorder part (fates.file .irori) with
    | .error stage => (.io stage, home, core)
    | .ok saved =>
      if core.recording then (.ok, saved, { core with held := { core.held with recorder := part } })
      else (.refused, saved, core)

/-- An operation. A value that can't stand is refused before the files are read. -/
def run (op : Operation τ η) : Outcome τ η ι :=
  match op with
  | .editRecorder part =>
    match part.check with
    | .error _ => (.refused, home, core)
    | .ok () => (home.reload format).perform format core fates op
  | op => (home.reload format).perform format core fates op

end ConfigDir

end Irori.Config
