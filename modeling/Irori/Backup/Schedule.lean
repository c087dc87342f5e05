import Irori.Backup.Retention
import Irori.Helpers.Schedule

/-!
# Backups on a schedule

The runner wakes every minute and asks whether the latest scheduled time has passed without a backup
since. What is kept of how the last ones went answers it. Times are nanoseconds since 1970, days are
counted from then.
-/

namespace Irori.Backup
open Helpers (Weekday)

/-- What `backup.toml` says: what is in a backup and its secrets apart. -/
structure Settings where
  enabled : Bool
  encrypt : Bool
  at_ : String
  days : List String
  keep : Nat
  keepDays : Option Nat

structure DestinationState where
  lastOk : Option Int
  lastError : Option String

structure Status where
  lastAttempt : Option Int
  lastSuccess : Option Int
  lastError : Option String
  /-- By backup, the destinations that hold a copy. -/
  copies : Map String (List String)
  destinations : Map String DestinationState

def Status.empty : Status := ⟨none, none, none, ∅, ∅⟩

structure Destination where
  name : String
  folder : Folder

structure Depot where
  here : Folder
  there : List Destination
  status : Status

/-- What a copy meets: whether it succeeds, when the file there counts as modified, and the sweep
after it. -/
structure CopyLuck where
  puts : Except String Unit
  modified : Int
  sweep : Sweep

structure RunLuck where
  now : Int
  fails : Option String
  /-- The second in its name. -/
  stamp : String
  modified : Int
  sweep : Sweep
  /-- What is seen when the folder is listed afterwards. -/
  relists : String → Bool
  copies : Nat → CopyLuck
  saves : Bool

def create (settings : Settings) (luck : RunLuck) (here : Folder) :
    Except String (String × Folder) :=
  match luck.fails with
  | some why => .error why
  | none =>
    match newName here plainPrefix luck.stamp
        (if settings.encrypt then suffixSealed else suffixPlain) with
    | none => .error "already exists"
    | some name => .ok (name, here.insert name luck.modified)

def CopyLuck.copied (copy : CopyLuck) (name : String) : Bool :=
  endsWith name ".enc" && isBackupName name && copy.puts.isOk

section

variable (read : String → Option Int)

def keepWithin (settings : Settings) (copy : CopyLuck) (name : String) (destination : Destination) :
    Destination :=
  { destination with
    folder := pruneAt read copy.sweep settings.keep settings.keepDays
      (destination.folder.insert name copy.modified) }

def Status.said (status : Status) (place : String) (state : DestinationState) : Status :=
  { status with destinations := status.destinations.insert place state }

def copyTo (settings : Settings) (name : String) (now : Int) (copy : CopyLuck)
    (destination : Destination) (status : Status) : Destination × Status :=
  let place := destination.name
  let state := (status.destinations[place]?).getD ⟨none, none⟩
  if endsWith name ".enc" = false then
    (destination,
      status.said place
        { state with lastError := some "this backup isn't encrypted, so it wasn't copied" })
  else
    let put :=
      if isBackupName name then copy.puts
      else .error ("`" ++ name ++ "` isn't a backup's name")
    match put with
    | .error why => (destination, status.said place { state with lastError := some why })
    | .ok () =>
      let folder := destination.folder.insert name copy.modified
      let old := expiredAt read (remotes copy.sweep folder) settings.keep settings.keepDays
        copy.sweep.now
      let copies := status.copies.insert name (((status.copies[name]?).getD []) ++ [place])
      (keepWithin read settings copy name destination,
        { status.said place ⟨some now, none⟩ with
          copies := copies.map fun name held =>
            if old.contains name then held.filter (· ≠ place) else held })

def copyOut (settings : Settings) (name : String) (now : Int) (copies : Nat → CopyLuck) :
    List Destination → Status → List Destination × Status
  | [], status => ([], status)
  | destination :: rest, status =>
    let (destination, status) := copyTo read settings name now (copies 0) destination status
    let (rest, status) := copyOut settings name now (fun n => copies (n + 1)) rest status
    (destination :: rest, status)

/-- Makes a backup the way the settings say, copies it out, prunes, and records how it went. -/
def runOnce (settings : Settings) (luck : RunLuck) (depot : Depot) :
    Depot × Except String String :=
  let status := { depot.status with lastAttempt := some luck.now }
  match create settings luck depot.here with
  | .error why =>
    let status := { status with lastError := some why }
    ({ depot with status := if luck.saves then status else depot.status }, .error why)
  | .ok (name, here) =>
    let here := prune luck.sweep settings.keep settings.keepDays here
    let have_ := here.keys.filter fun name => isBackupName name && luck.relists name
    let held := status.copies.filter fun name _ => have_.contains name
    let status := { status with
      lastSuccess := some luck.now
      lastError := none
      copies := held.insert name ((held[name]?).getD []) }
    let (there, status) := copyOut read settings name luck.now luck.copies depot.there status
    (⟨here, there, if luck.saves then status else depot.status⟩, .ok name)

end

/-- When a time of a day is, in a time zone: a skipped one is later, of a repeated one it's the
first. `none` where that is past what can be told. -/
structure Zone where
  toZoned : (date hour minute : Int) → Option Int

structure Zoned where
  time : Int
  date : Int
  zone : Zone

def minDate : Int := -4371588

def weekdayOf (date : Int) : Weekday := (Weekday.all[((date + 3) % 7).toNat]?).getD .mon

/-- The latest scheduled moment by `now`, on the days this many back. -/
def latestOf (now : Zoned) (hour minute : Int) (days : List Weekday) : List Nat → Option Int
  | [] => none
  | back :: rest =>
    let date := now.date - back
    if date < minDate then none
    else if days ≠ [] ∧ weekdayOf date ∉ days then latestOf now hour minute days rest
    else
      match now.zone.toZoned date hour minute with
      | none => none
      | some slot => if slot ≤ now.time then some slot else latestOf now hour minute days rest

/-- The latest scheduled moment at or before `now`, looking back a week. -/
def latestSlot (now : Zoned) (hour minute : Int) (days : List Weekday) : Option Int :=
  latestOf now hour minute days (List.range 8)

def natOf (digits : List Char) : Option Int :=
  if digits ≠ [] ∧ digits.all Char.isDigit then
    some (digits.foldl (fun n c => n * 10 + ((c.toNat : Int) - 48)) 0)
  else none

def parseI8 (text : String) : Option Int :=
  let number := match text.toList with
    | '-' :: digits => (natOf digits).map fun n => -n
    | '+' :: digits => natOf digits
    | digits => natOf digits
  number.filter fun n => decide (-128 ≤ n ∧ n ≤ 127)

def parseTime (text : String) : Option (Int × Int) := do
  let (hour, minute) ← splitOnce ':' text
  let hour ← parseI8 hour
  let minute ← parseI8 minute
  if 0 ≤ hour ∧ hour < 24 ∧ 0 ≤ minute ∧ minute < 60 ∧ text.utf8ByteSize = 5 then
    some (hour, minute)
  else none

def weekday (name : String) : Option Weekday := Weekday.all.find? fun day => day.name == name

def retry : Int := 15 * 60

def Settings.slot (settings : Settings) (now : Zoned) : Option Int :=
  match parseTime settings.at_ with
  | none => none
  | some (hour, minute) => latestSlot now hour minute (settings.days.filterMap weekday)

def Status.triedLately (status : Status) (now : Int) : Bool :=
  status.lastAttempt.any fun tried =>
    status.lastError.isSome && asSecond now - asSecond tried < retry

/-- Whether a backup is due: the latest slot has passed with no success since, and the last failure
wasn't just now. -/
def due (settings : Settings) (status : Status) (now : Zoned) : Bool :=
  if settings.enabled = false then false
  else
    match settings.slot now with
    | none => false
    | some slot =>
      if status.lastSuccess.any fun done => slot ≤ done then false
      else !status.triedLately now.time

def wake (read : String → Option Int) (settings : Settings) (now : Zoned) (luck : RunLuck)
    (depot : Depot) : Depot × Option (Except String String) :=
  if due settings depot.status now then
    let (depot, result) := runOnce read settings luck depot
    (depot, some result)
  else (depot, none)

end Irori.Backup
