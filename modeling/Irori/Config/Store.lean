import Irori.Config.People

/-!
# The config directory

What each file last said, and what it looked like then. A file that can't be read, or doesn't
parse, keeps what it last held. A part that was never read holds what an empty file says.
-/

namespace Irori.Config

inductive File
  | irori | areas | floorplan | devices | entities | secrets | home | users
  deriving DecidableEq

namespace File

def all : List File := [irori, areas, floorplan, devices, entities, secrets, home, users]

def settings : List File := [areas, floorplan, devices, entities]

end File

/-- What each file holds. What the files other than `users.toml` and `secrets.toml` hold is left
open. -/
def Contents (κ : File → Type) : File → Type
  | .users => List User
  | .secrets => ExtensionSettings
  | .irori => κ .irori
  | .areas => κ .areas
  | .floorplan => κ .floorplan
  | .devices => κ .devices
  | .entities => κ .entities
  | .home => κ .home

/-- How the files are read and written, and what the parts left open hold that were never read. -/
structure Format (κ : File → Type) where
  read : (file : File) → String → Except String (Contents κ file)
  write : (file : File) → Contents κ file → String
  default_ : (file : File) → κ file

def Format.blank {κ : File → Type} (format : Format κ) : (file : File) → Contents κ file
  | .users => []
  | .secrets => (∅ : ExtensionSettings)
  | .irori => format.default_ .irori
  | .areas => format.default_ .areas
  | .floorplan => format.default_ .floorplan
  | .devices => format.default_ .devices
  | .entities => format.default_ .entities
  | .home => format.default_ .home

structure Seen where
  modified : Option Nat
  len : Nat
  deriving DecidableEq

structure Written where
  modified : Option Nat
  len : Nat
  text : Option String
  deriving DecidableEq

def Written.seen (file : Written) : Seen := ⟨file.modified, file.len⟩

def Written.of (text : String) (modified : Option Nat) : Written :=
  ⟨modified, text.utf8ByteSize, some text⟩

abbrev Files := File → Option Written

/-- A file's size and modification time, or `none` if it isn't there. -/
def look (files : Files) (file : File) : Option Seen := (files file).map Written.seen

/-- A file's text. One that isn't there says nothing; one that can't be read has none. -/
def textOf (files : Files) (file : File) : Option String :=
  match files file with
  | none => some ""
  | some written => written.text

/-- One file's last good contents, and what the file looked like when they were read. -/
structure Part (α : Type) where
  value : α
  seen : Option Seen

abbrev Store (κ : File → Type) := (file : File) → Part (Contents κ file)

variable {κ : File → Type} (format : Format κ)

def contentsOf (files : Files) (file : File) : Option (Contents κ file) :=
  (textOf files file).bind fun text => (format.read file text).toOption

namespace Store

def new : Store κ := fun file => ⟨format.blank file, none⟩

variable (store : Store κ)

def put (file : File) (part : Part (Contents κ file)) : Store κ := Function.update store file part

def reloadOne (files : Files) (file : File) : Store κ :=
  if look files file = (store file).seen then store
  else
    match contentsOf format files file with
    | some value => store.put file ⟨value, look files file⟩
    | none => store

def reload (files : Files) : Store κ :=
  File.all.foldl (fun store file => store.reloadOne format files file) store

def people : People := .of (store .users).value (store .secrets).value

end Store

/-- The secrets with these people's passwords. The table is rewritten whole, so a person who is
gone takes their hash with them. -/
def passwordsOf (people : People) (secrets : ExtensionSettings) :
    Except String ExtensionSettings :=
  people.users.foldl (fun secrets user =>
    match secrets, people.hashes[user.id]? with
    | .ok secrets, some hash => secrets.set People.table [People.passwords, user.id.text] hash
    | secrets, _ => secrets)
    (.ok (secrets.remove People.table [People.passwords]))

structure Stamp where
  works : Bool
  modified : Option Nat
  deriving DecidableEq

structure Directory (κ : File → Type) where
  files : Files
  store : Store κ

namespace Directory

variable (home : Directory κ)

def save (file : File) (value : Contents κ file) (stamp : Stamp) : Option (Directory κ) :=
  let text := format.write file value
  if textOf home.files file = some text ∧ (home.files file).isSome then
    some ⟨home.files, home.store.put file ⟨value, look home.files file⟩⟩
  else if stamp.works then
    let files := Function.update home.files file (some (.of text stamp.modified))
    some ⟨files, home.store.put file ⟨value, look files file⟩⟩
  else none

/-- Writes the people and their passwords as one change. If the secrets can't be written, the
people are put back as they were. -/
def saveUsersAndSecrets (users : List User) (secrets : ExtensionSettings)
    (first second third : Stamp) : Directory κ :=
  match home.save format .users users first with
  | none => home
  | some saved =>
    match saved.save format .secrets secrets second with
    | some saved => saved
    | none => (saved.save format .users (home.store .users).value third).getD saved

def reload : Directory κ := { home with store := home.store.reload format home.files }

/-- Changes who is allowed in and what their passwords are, as one write. -/
def editPeople {α : Type} (change : People → Except String (People × α))
    (first second third : Stamp) : Directory κ :=
  let home := home.reload format
  match home.store.people.edit change with
  | .error _ => home
  | .ok (people, _) =>
    match passwordsOf people (home.store .secrets).value with
    | .error _ => home
    | .ok secrets =>
      if secrets == (home.store .secrets).value then
        (home.save format .users people.users first).getD home
      else home.saveUsersAndSecrets format people.users secrets first second third

def editSecrets (change : ExtensionSettings → Except String ExtensionSettings) (stamp : Stamp) :
    Directory κ :=
  let home := home.reload format
  match change (home.store .secrets).value with
  | .error _ => home
  | .ok secrets => (home.save format .secrets secrets stamp).getD home

def start : Directory κ := { home with store := (Store.new format).reload format home.files }

end Directory

end Irori.Config
