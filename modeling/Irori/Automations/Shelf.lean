import Irori.Automations.Service

/-!
# The flow files and what is loaded of them

What is done to the flow files, by hand and by the extension, one thing at a time, each with the
moves it comes to in the order they are made; and what each file has said so far.
-/

namespace Irori.Automations

def flowIn (format : Format) (id : RuleId) (file : FlowFile) : Option Flow :=
  (file.text.bind fun text => (format.read text).toOption).filter fun flow => flow.id = id

def garbles (format : Format) (edit : Edit) : Bool :=
  edit.2.isSome && (edit.2.bind (flowIn format edit.1)).isNone

/-- The files, what is loaded of them, and the flows that were last picked to be turned off, as they
were then. -/
structure Shelf where
  disk : Disk
  store : Store
  picked : Map RuleId Flow

def Shelf.closed (flowsDir : String) (disk : Disk) : Shelf := ⟨disk, ⟨flowsDir, ∅, [], ∅⟩, ∅⟩

inductive Deed (format : Format)
  | edited (edits : List Edit)
  | opened (look : Look)
  | polled (others : Bool) (glance : Glance) (between : List Edit) (look : Look)
  | defined (flow : Flow) (readable : Readable format flow) (luck : SaveLuck)
  | enabled (id : RuleId) (enabled : Bool) (luck : SaveLuck)
  | handedOver (id : RuleId) (luck : SaveLuck)
  /-- The flows to turn off are picked, before the first of them is. -/
  | picked (ids : RuleId → Bool)
  | turnedOff (id : RuleId) (luck : SaveLuck)
  | deleted (id : RuleId) (removes : Bool) (after : List Edit) (look : Look)
  | keptVersions (versions : RuleId → VersionLuck)

/-- A flow that the extension writes, and the one it switches on or off or hands over, where it does
no more than that. -/
structure OwnWrite where
  flow : Flow
  switches : Option Flow
  luck : SaveLuck

/-- One thing that happens to the files: one is edited by hand, or written or taken away by the
extension; versions are kept; or the files are read again. -/
inductive Move
  | hand (edit : Edit)
  | own (edit : Edit)
  | kept (versions : Map RuleId (Map String Flow))
  | look (look : Look)

def Move.byHand : Move → Option Edit
  | .hand edit => some edit
  | _ => none

def Move.isLook : Move → Bool
  | .look _ => true
  | _ => false

section

variable (env : Env) {format : Format}

def Shelf.write (shelf : Shelf) : Deed format → Option OwnWrite
  | .defined flow _ luck => some ⟨flow, none, luck⟩
  | .enabled id enabled luck =>
    (shelf.store.flows[id]?).map fun flow => ⟨{ flow with enabled }, some flow, luck⟩
  | .handedOver id luck =>
    (shelf.store.flows[id]?).map fun flow =>
      ⟨{ flow with owner := none, enabled := false }, some flow, luck⟩
  | .turnedOff id luck =>
    (shelf.picked[id]?).map fun flow => ⟨{ flow with enabled := false }, some flow, luck⟩
  | _ => none

def Disk.keepVersions (disk : Disk) (flows : List Flow) (versions : RuleId → VersionLuck) : Disk :=
  flows.foldl (fun disk flow => (disk.keepVersion env flow (versions flow.id)).getD disk) disk

/-- What the extension says of a deed, and the files and what is loaded after it. -/
def Shelf.perform (shelf : Shelf) (deed : Deed format) : Except String Unit × Shelf :=
  match shelf.write deed with
  | some write =>
    let (answer, disk, store) := shelf.store.save env format shelf.disk write.flow write.luck
    (answer, { shelf with disk, store })
  | none =>
    match deed with
    | .edited edits => (.ok (), { shelf with disk := shelf.disk.edit edits })
    | .opened look =>
      let (disk, store) := Store.open_ format shelf.store.flowsDir shelf.disk look
      (.ok (), ⟨disk, store, ∅⟩)
    | .polled others glance between look =>
      let (_, disk, store) := shelf.store.poll format shelf.disk others glance between look
      (.ok (), { shelf with disk, store })
    | .picked ids => (.ok (), { shelf with picked := shelf.store.flows.filter fun id _ => ids id })
    | .deleted id removes after look =>
      let (answer, disk, store) := shelf.store.delete format shelf.disk id removes after look
      (answer, { shelf with disk, store })
    | .keptVersions versions =>
      (.ok (), { shelf with
        disk := shelf.disk.keepVersions env (Map.vals shelf.store.flows) versions })
    | _ => (.ok (), shelf)

def Shelf.after (shelf : Shelf) (deed : Deed format) : Shelf := (shelf.perform env deed).2

def Shelf.afterAll (shelf : Shelf) (deeds : List (Deed format)) : Shelf :=
  deeds.foldl (Shelf.after env) shelf

def World.files (w : World) (picked : Map RuleId Flow) : Shelf := ⟨w.disk, w.service.store, picked⟩

def OwnWrite.moves (format : Format) (disk : Disk) (write : OwnWrite) : List Move :=
  write.luck.before.map .hand ++
    match write.luck.makesFolder, write.luck.writes with
    | true, some modified =>
      let file : FlowFile := ⟨modified, some (format.write write.flow)⟩
      .own (write.flow.id, some file) ::
        match ((disk.edit write.luck.before).put write.flow.id (some file)).keepVersion env
            write.flow write.luck.version with
        | some kept => .kept kept.versions :: write.luck.after.map .hand ++ [.look write.luck.look]
        | none => write.luck.after.map .hand
    | _, _ => []

def Shelf.moves (shelf : Shelf) (deed : Deed format) : List Move :=
  match shelf.write deed with
  | some write => write.moves env format shelf.disk
  | none =>
    match deed with
    | .edited edits => edits.map .hand
    | .opened look => [.look look]
    | .polled others glance between look =>
      between.map .hand ++
        if (shelf.store.poll format shelf.disk others glance between look).1 then [.look look]
        else []
    | .deleted id removes after look =>
      if removes then .own (id, none) :: after.map .hand ++ [.look look] else []
    | .keptVersions versions =>
      [.kept (shelf.disk.keepVersions env (Map.vals shelf.store.flows) versions).versions]
    | _ => []

/-- What a deed starts from: nothing is loaded when the files are opened, and the flows to turn off
are picked at once. -/
def Shelf.begun (shelf : Shelf) : Deed format → Shelf
  | .opened _ => .closed shelf.store.flowsDir shelf.disk
  | .picked ids => { shelf with picked := shelf.store.flows.filter fun id _ => ids id }
  | _ => shelf

end

section

variable (format : Format)

def Shelf.move (shelf : Shelf) : Move → Shelf
  | .hand edit => { shelf with disk := shelf.disk.put edit.1 edit.2 }
  | .own edit => { shelf with disk := shelf.disk.put edit.1 edit.2 }
  | .kept versions => { shelf with disk := { shelf.disk with versions } }
  | .look look =>
    let (disk, store) := shelf.store.reload format shelf.disk look
    { shelf with disk, store }

/-- What has been of each flow file: what its last text that reads said, since there is a file;
whether that hasn't been read since it was put there; and whether the file has changed, or what it
said was unread, since the flows to turn off were last picked. -/
structure Past where
  said : RuleId → Option Flow
  unread : RuleId → Bool
  changed : RuleId → Bool

namespace Past

def opened (disk : Disk) : Past where
  said id := (disk.flows[id]?).bind (flowIn format id)
  unread id := ((disk.flows[id]?).bind (flowIn format id)).isSome
  changed _ := false

def put (past : Past) (edit : Edit) : Past :=
  if garbles format edit then { past with changed := Function.update past.changed edit.1 true }
  else
    { said := Function.update past.said edit.1 (edit.2.bind (flowIn format edit.1))
      unread := Function.update past.unread edit.1 true
      changed := Function.update past.changed edit.1 true }

def edit (past : Past) (edits : List Edit) : Past := edits.foldl (put format) past

end Past

/-- Whether a flow's file is read, or is found not to be there. -/
def Look.finds (disk : Disk) (look : Look) (id : RuleId) : Bool :=
  look.glance.opens && look.opensAgain &&
    if (disk.flows[id]?).isSome then
      look.glance.shows id &&
        (readFlow format (disk.edit look.during) id (look.reads id)).toOption.isSome
    else ((disk.edit look.during).flows[id]?).isNone

namespace Past

def move (past : Past) (disk : Disk) : Move → Past
  | .hand edit => past.put format edit
  | .own edit => past.put format edit
  | .kept _ => past
  | .look look =>
    let past := past.edit format look.during
    { past with unread := fun id => past.unread id && !look.finds format disk id }

def begun (past : Past) (shelf : Shelf) : Deed format → Past
  | .opened _ => opened format shelf.disk
  | .picked _ => { past with changed := past.unread }
  | _ => past

end Past

def moveAll (past : Past) (shelf : Shelf) (moves : List Move) : Past × Shelf :=
  moves.foldl (fun (past, shelf) move => (past.move format shelf.disk move, shelf.move format move))
    (past, shelf)

end

def Past.after (env : Env) {format : Format} (past : Past) (shelf : Shelf) (deed : Deed format) :
    Past :=
  (moveAll format (past.begun format shelf deed) (shelf.begun deed) (shelf.moves env deed)).1

end Irori.Automations
