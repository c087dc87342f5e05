import Irori.Backup.Crypt

/-!
# Unpacking a backup

Every member of the archive is written by us, into a folder we made. A name that leaves the folder
is refused, and so is a link. What comes out is counted against the room there is. The archive has
been opened by then, and is the members its reader yields.
-/

namespace Irori.Backup

abbrev Place := List Bytes

inductive Node
  | folder
  | file (content : Bytes)
  /-- A link, say: what goes through it ends somewhere else. -/
  | other
  deriving DecidableEq

def Node.size : Node → Nat
  | .file content => content.length
  | _ => 0

/-- The disk, everything that was made on it, in order, and whether something was looked for
through what is neither a file nor a folder. -/
structure Disk where
  files : Place → Option Node
  log : List (Place × Node)
  strayed : Bool

namespace Disk

def make (disk : Disk) (place : Place) (node : Node) : Disk :=
  { disk with
    files := Function.update disk.files place (some node)
    log := disk.log ++ [(place, node)] }

/-- Makes the folders that are missing on the way from `base`, and tells whether all are there.
`can` is whether the system lets one be made. -/
def createDirAll (can : Place → Bool) (disk : Disk) (base : Place) : Place → Disk × Bool
  | [] => (disk, true)
  | name :: rest =>
    let next := base ++ [name]
    match disk.files next with
    | some .folder => disk.createDirAll can next rest
    | some (.file _) => (disk, false)
    | some .other => ({ disk with strayed := true }, false)
    | none =>
      if can next then (disk.make next .folder).createDirAll can next rest else (disk, false)

end Disk

def ascii (text : String) : Bytes := text.toList.map fun c => UInt8.ofNat c.toNat

inductive Component
  | rootDir
  | curDir
  | parentDir
  | normal (name : Bytes)
  deriving DecidableEq

def slash : UInt8 := 47

/-- The components of a path. A dot counts at its start only, and doubled slashes are one. -/
def components (path : Bytes) : List Component :=
  let parts := path.splitOn slash
  (if path.head? = some slash then [.rootDir]
    else if parts.head? = some (ascii ".") then [.curDir] else []) ++
  parts.filterMap fun part =>
    if part = [] ∨ part = ascii "." then none
    else if part = ascii ".." then some .parentDir
    else some (.normal part)

def roots : List Bytes := [ascii "manifest.json", ascii "config", ascii "data"]

inductive UnpackError
  | io (why : String)
  | tooMany
  | suspicious (path : Bytes)
  | neither (rel : Place)
  | noRoom
  | twice (rel : Place)
  | manifestUnreadable
  | noManifest
  deriving DecidableEq

/-- What is told. `display` shows a path. -/
def UnpackError.text (display : Bytes → String) : UnpackError → String
  | .io why => why
  | .tooMany => "the backup holds too many files"
  | .suspicious path => "the backup has a suspicious member `" ++ display path ++ "`"
  | .neither rel => "the backup holds something other than files and directories: " ++
      display ([slash].intercalate rel)
  | .noRoom => "the backup unpacks to more than there is room for"
  | .twice rel => display ([slash].intercalate rel) ++ " is in the backup twice"
  | .manifestUnreadable => "manifest.json isn't readable"
  | .noManifest => "there is no manifest.json; this isn't an Irori backup"

/-- The names a path goes through, unless it starts at the root or goes up. -/
def cleanPath : List Component → Option Place
  | [] => some []
  | .curDir :: rest => cleanPath rest
  | .normal name :: rest => (cleanPath rest).map (name :: ·)
  | _ :: _ => none

def memberPath (path : Bytes) : Except UnpackError Place :=
  match cleanPath (components path) with
  | some (first :: rest) =>
    if first ∈ roots then .ok (first :: rest) else .error (.suspicious path)
  | _ => .error (.suspicious path)

inductive EntryType
  | regular
  | directory
  | xGlobalHeader
  /-- Links, devices and everything else. -/
  | other
  deriving DecidableEq

structure Member where
  path : Bytes
  kind : EntryType
  size : Nat
  content : Bytes
  length_le : content.length ≤ size

structure Luck where
  why : String
  reads : Bool
  makes : Place → Bool
  permits : Bool
  opens : Bool
  /-- After how many bytes copying fails, if it does. -/
  breaks : Option Nat
  rereads : Bool

structure Unpacking where
  disk : Disk
  total : Nat
  count : Nat
  manifest : Option Manifest

def maxEntries : Nat := 500000

section

variable (parse : Bytes → Option Manifest) (dest : Place) (maxBytes : Nat)

/-- A regular file is written, one byte past the room at most, which is how a member that lied about
its size is caught. -/
def writeFile (u : Unpacking) (rel : Place) (content : Bytes) (luck : Luck) :
    Unpacking × Option UnpackError :=
  let room := maxBytes - u.total
  let (disk, parent) := u.disk.createDirAll luck.makes dest rel.dropLast
  if parent = false then ({ u with disk }, some (.io luck.why))
  else if (disk.files (dest ++ rel)).isSome || !luck.opens then ({ u with disk }, some (.twice rel))
  else
    let taken := content.take (room + 1)
    match luck.breaks with
    | some n => ({ u with disk := disk.make (dest ++ rel) (.file (taken.take n)) }, some (.io luck.why))
    | none =>
      let disk := disk.make (dest ++ rel) (.file taken)
      if room < taken.length then ({ u with disk }, some .noRoom)
      else
        let u := { u with disk, total := u.total + taken.length }
        if rel = [ascii "manifest.json"] then
          if luck.rereads then
            match parse taken with
            | some manifest => ({ u with manifest := some manifest }, none)
            | none => (u, some .manifestUnreadable)
          else (u, some (.io luck.why))
        else (u, none)

def unpackMember (u : Unpacking) (m : Member) (luck : Luck) : Unpacking × Option UnpackError :=
  if luck.reads = false then (u, some (.io luck.why))
  else
    let u := { u with count := u.count + 1 }
    if maxEntries < u.count then (u, some .tooMany)
    else if m.kind = .xGlobalHeader then (u, none)
    else
      match memberPath m.path with
      | .error why => (u, some why)
      | .ok rel =>
        match m.kind with
        | .directory =>
          let (disk, there) := u.disk.createDirAll luck.makes dest rel
          ({ u with disk }, if there && luck.permits then none else some (.io luck.why))
        | .regular =>
          if maxBytes - u.total < m.size then (u, some .noRoom)
          else writeFile parse dest maxBytes u rel m.content luck
        | _ => (u, some (.neither rel))

def unpackMembers (u : Unpacking) : List (Member × Luck) → Unpacking × Option UnpackError
  | [] => (u, none)
  | (m, luck) :: rest =>
    match unpackMember parse dest maxBytes u m luck with
    | (u, some why) => (u, some why)
    | (u, none) => unpackMembers u rest

def Unpacking.start (files : Place → Option Node) : Unpacking := ⟨⟨files, [], false⟩, 0, 0, none⟩

def unpack (files : Place → Option Node) (members : List (Member × Luck)) :
    Disk × Except UnpackError Manifest :=
  match unpackMembers parse dest maxBytes (.start files) members with
  | (u, some why) => (u.disk, .error why)
  | (u, none) =>
    match u.manifest with
    | some manifest => (u.disk, .ok manifest)
    | none => (u.disk, .error .noManifest)

end

end Irori.Backup
