import Irori.Types

/-!
# Which backups stay

Retention goes by the names backups have. Here it goes by when a file was modified, elsewhere by
the time in its name. Times are nanoseconds since 1970.
-/

namespace Irori.Backup

abbrev Folder := Map String Int

def plainPrefix : String := "irori-backup-"
def safetyPrefix : String := "pre-restore-"
def updatePrefix : String := "pre-update-"

def suffixPlain : String := ".tar.gz"
def suffixSealed : String := ".tar.gz.enc"

def startsWith (name start : String) : Bool := start.toList.isPrefixOf name.toList

def endsWith (name ending : String) : Bool := ending.toList.isSuffixOf name.toList

def goesUp : List Char → Bool
  | a :: b :: rest => (a == '.' && b == '.') || goesUp (b :: rest)
  | _ => false

/-- Whether a name is something Irori wrote, and so something a request may name. -/
def isBackupName (name : String) : Bool :=
  (startsWith name plainPrefix || startsWith name safetyPrefix || startsWith name updatePrefix) &&
    (endsWith name suffixPlain || endsWith name suffixSealed) &&
    decide (name.utf8ByteSize < 128) &&
    (name.toList.all fun c => c.isAlphanum || c == '-' || c == '_' || c == '.') &&
    !goesUp name.toList

/-- The name of a backup made at this second: two in the same second both get one. -/
def newName (folder : Folder) (start stamp suffix : String) : Option String :=
  ((List.range' 1 99).map fun n =>
    if n = 1 then start ++ stamp ++ suffix
    else start ++ stamp ++ "-" ++ n.repr ++ suffix).find? fun name => !folder.contains name

def asSecond (time : Int) : Int := time.tdiv 1000000000

def slice (text : List Char) (first last : Nat) : Option String :=
  if last ≤ text.length then some (String.ofList ((text.take last).drop first)) else none

/-- When a backup was made, from its name. `read` reads a time as it is written. -/
def timeFromName (read : String → Option Int) (name : String) : Option Int := do
  if startsWith name plainPrefix = false then none
  let stamp ← slice (name.toList.drop plainPrefix.length) 0 15
  let (date, time) ← splitOnce '-' stamp
  let year ← slice date.toList 0 4
  let month ← slice date.toList 4 6
  let day ← slice date.toList 6 8
  let hour ← slice time.toList 0 2
  let minute ← slice time.toList 2 4
  let second ← slice time.toList 4 6
  read (year ++ "-" ++ month ++ "-" ++ day ++ "T" ++ hour ++ ":" ++ minute ++ ":" ++ second ++ "Z")

abbrev Dated := String × Int

def Newer (a b : Dated) : Prop := b.2 < a.2 ∨ b.2 = a.2 ∧ b.1 < a.1

instance (a b : Dated) : Decidable (Newer a b) := inferInstanceAs (Decidable (_ ∨ _ ∧ _))

def newestFirst (files : List Dated) : List Dated :=
  files.insertionSort fun a b => Newer a b ∨ a = b

/-- Which of these, newest first, retention deletes: of those with the prefix, all past the first
`keep`, and any older than so many days, but never the newest. -/
def expired (namesAndTimes : List Dated) (start : String) (keep : Nat) (keepDays : Option Nat)
    (now : Int) : List String :=
  ((namesAndTimes.filter fun file => startsWith file.1 start).zipIdx.filter fun (file, index) =>
    decide (0 < index) && (decide (max keep 1 ≤ index) ||
      keepDays.any fun days : Nat =>
        decide ((days : Int) * 86400 < asSecond now - asSecond file.2))).map fun (file, _) => file.1

/-- What listing and deleting in a folder meet: which files are seen, which can be deleted, and the
time. -/
structure Sweep where
  sees : String → Bool
  deletes : String → Bool
  now : Int

def without (sweep : Sweep) (folder : Folder) (names : List String) : Folder :=
  folder.filter fun name _ => !(names.contains name && sweep.deletes name)

def list (sweep : Sweep) (folder : Folder) : List Dated :=
  newestFirst (folder.toList.filter fun file => isBackupName file.1 && sweep.sees file.1)

def pruneKind (sweep : Sweep) (start : String) (keep : Nat) (keepDays : Option Nat)
    (folder : Folder) : Folder :=
  without sweep folder (expired (list sweep folder) start keep keepDays sweep.now)

def prune (sweep : Sweep) (keep : Nat) (keepDays : Option Nat) (folder : Folder) : Folder :=
  pruneKind sweep plainPrefix keep keepDays folder

def remotes (sweep : Sweep) (folder : Folder) : List String :=
  (folder.keys.filter fun name => isBackupName name && sweep.sees name).reverse

def dated (read : String → Option Int) (remote : List String) : List Dated :=
  newestFirst (remote.filterMap fun name => (timeFromName read name).map fun time => (name, time))

def expiredAt (read : String → Option Int) (remote : List String) (keep : Nat)
    (keepDays : Option Nat) (now : Int) : List String :=
  expired (dated read remote) plainPrefix keep keepDays now

def pruneAt (read : String → Option Int) (sweep : Sweep) (keep : Nat) (keepDays : Option Nat)
    (folder : Folder) : Folder :=
  without sweep folder (expiredAt read (remotes sweep folder) keep keepDays sweep.now)

end Irori.Backup
