import Irori.Flows.Validate

/-!
# Where flows are kept

Flow files in the config directory, which people edit by hand too. A file that fails to parse is
reported and the last good version of it stays in use; a changed file is noticed by polling. Runs,
near-misses and test settings are left out, and so are files whose name is no flow's id, which
nothing is read from. What a hand edit does between two steps of an operation is part of how the
operation goes.
-/

namespace Irori.Automations

structure FlowFile where
  modified : Option Nat
  text : Option String

abbrev Edit := RuleId × Option FlowFile

structure Disk where
  flows : Map RuleId FlowFile
  versions : Map RuleId (Map String Flow)

structure Format where
  read : String → Except String Flow
  write : Flow → String

def Readable (format : Format) (flow : Flow) : Prop := ∃ text : String, format.read text = .ok flow

def ReadsBack (format : Format) : Prop :=
  ∀ flow : Flow, Readable format flow → ∀ (owner : Option UserId) (enabled : Bool),
    format.read (format.write { flow with owner, enabled }) = .ok { flow with owner, enabled }

namespace Disk

def put (disk : Disk) (id : RuleId) : Option FlowFile → Disk
  | some file => { disk with flows := disk.flows.insert id file }
  | none => { disk with flows := disk.flows.erase id }

def edit (disk : Disk) (edits : List Edit) : Disk :=
  edits.foldl (fun disk (id, file) => disk.put id file) disk

end Disk

/-- How the folder is listed: whether it opens, which of its entries come, and whose modification
time is told. -/
structure Glance where
  opens : Bool
  shows : RuleId → Bool
  tells : RuleId → Bool

structure Look where
  glance : Glance
  /-- Whether a folder with nothing listed opens when it is tried once more, or isn't there. -/
  opensAgain : Bool
  /-- What is edited by hand between the listing and the reading. -/
  during : List Edit
  reads : RuleId → Bool

structure VersionLuck where
  makesFolder : Bool
  writes : Bool

structure SaveLuck where
  before : List Edit
  makesFolder : Bool
  /-- The time the file is given, where writing it works. -/
  writes : Option (Option Nat)
  version : VersionLuck
  /-- What is edited by hand between the writing and the look that follows. -/
  after : List Edit
  look : Look

def listing (disk : Disk) (glance : Glance) : Map RuleId (Option Nat) :=
  if glance.opens then
    disk.flows.filterMap fun id file =>
      if glance.shows id then some (if glance.tells id then file.modified else none) else none
  else ∅

def readFlow (format : Format) (disk : Disk) (id : RuleId) (reads : Bool) : Except String Flow :=
  match (disk.flows[id]?).bind FlowFile.text, reads with
  | some text, true =>
    match format.read text with
    | .error message => .error message
    | .ok flow =>
      if flow.id = id then .ok flow
      else
        .error ("its id is \"" ++ flow.id.text ++ "\"; the file name has to match the id, like " ++
          "flows/" ++ flow.id.text ++ ".json")
  | _, _ => .error "can't read it"

structure FileProblem where
  file : String
  reason : String
  deriving DecidableEq

structure Store where
  flowsDir : String
  flows : Map RuleId Flow
  problems : List FileProblem
  /-- What each file's modification time was when it was last read, to notice edits. -/
  seen : Map RuleId (Option Nat)

namespace Store

section

variable (format : Format) (disk : Disk) (store : Store)

/-- Reads every flow file again. A file that fails keeps its last good version. -/
def reload (look : Look) : Disk × Store :=
  let listed := listing disk look.glance
  let disk := disk.edit look.during
  if listed.isEmpty && !look.opensAgain then
    (disk, { store with
      problems :=
        [⟨store.flowsDir, "can't read this folder; the flows already loaded keep running"⟩] })
  else
    (disk, { store with
      flows := listed.filterMap fun id _ =>
        match readFlow format disk id (look.reads id) with
        | .ok flow => some flow
        | .error _ => store.flows[id]?
      problems := listed.toList.filterMap fun (id, _) =>
        match readFlow format disk id (look.reads id) with
        | .ok _ => none
        | .error reason => some ⟨"flows/" ++ id.text ++ ".json", reason⟩
      seen := listed })

/-- Whether any flow file changed since the last look; reads them again if so. `others` is whether
a file that is no flow's did. -/
def poll (others : Bool) (glance : Glance) (between : List Edit) (look : Look) :
    Bool × Disk × Store :=
  if listing disk glance = store.seen && !others then (false, disk.edit between, store)
  else (true, store.reload format (disk.edit between) look)

end

def open_ (format : Format) (flowsDir : String) (disk : Disk) (look : Look) : Disk × Store :=
  Store.reload format disk ⟨flowsDir, ∅, [], ∅⟩ look

end Store

variable (env : Env)

/-- Keeps this definition's snapshot, unless it's already kept. -/
def Disk.keepVersion (disk : Disk) (flow : Flow) (luck : VersionLuck) : Option Disk :=
  if !luck.makesFolder then none
  else
    let kept := (disk.versions[flow.id]?).getD ∅
    if kept.contains (flow.version env) then some disk
    else if !luck.writes then none
    else some { disk with
      versions := disk.versions.insert flow.id (kept.insert (flow.version env) flow) }

namespace Store

variable (format : Format) (disk : Disk) (store : Store)

/-- Writes a flow to its file, atomically, and keeps a snapshot of its version. -/
def save (flow : Flow) (luck : SaveLuck) : Except String Unit × Disk × Store :=
  let disk := disk.edit luck.before
  if !luck.makesFolder then (.error ("couldn't create " ++ store.flowsDir), disk, store)
  else
    match luck.writes with
    | none =>
      (.error ("couldn't write " ++ store.flowsDir ++ "/" ++ flow.id.text ++ ".json"), disk, store)
    | some modified =>
      let disk := disk.put flow.id (some ⟨modified, some (format.write flow)⟩)
      match disk.keepVersion env flow luck.version with
      | none => (.error "couldn't keep its version", disk.edit luck.after, store)
      | some disk => (.ok (), store.reload format (disk.edit luck.after) luck.look)

def delete (id : RuleId) (removes : Bool) (after : List Edit) (look : Look) :
    Except String Unit × Disk × Store :=
  if !removes then
    (.error ("couldn't delete " ++ store.flowsDir ++ "/" ++ id.text ++ ".json"), disk, store)
  else (.ok (), store.reload format ((disk.put id none).edit after) look)

end Store

end Irori.Automations
