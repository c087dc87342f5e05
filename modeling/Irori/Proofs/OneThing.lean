import Irori.Automations.Shelf
import Irori.Proofs.Losing

/-!
# Flow files and loaded flows

A write that answers an error leaves everything as it was, a write that only switches a flow
replaces no hand edit, and what is loaded after each operation is what the files last said: when
that is so, and that every run of the extension is a run of such deeds.
-/

namespace Irori.Automations

/-! ### What is one thing -/

def Deed.operates {format : Format} (shelf : Shelf) (deed : Deed format) : Bool :=
  (shelf.write deed).isSome ||
    match deed with
    | .opened _ => true
    | .polled .. => true
    | .deleted .. => true
    | _ => false

def OwnWrite.reaches (write : OwnWrite) : Bool := write.luck.makesFolder && write.luck.writes.isSome

section

variable (env : Env) {format : Format}

structure OneThing (past : Past) (shelf : Shelf) (deed : Deed format) : Prop where
  refused : ∀ why : String, (shelf.perform env deed).1 = .error why →
    (shelf.after env deed).disk.flows =
        (shelf.disk.edit ((shelf.moves env deed).filterMap Move.byHand)).flows ∧
      (shelf.after env deed).store = shelf.store
  switched : ∀ (write : OwnWrite) (flow : Flow), shelf.write deed = some write →
    write.switches = some flow → write.reaches = true → ∀ file : FlowFile,
      (shelf.disk.edit write.luck.before).flows[write.flow.id]? = some file →
        flowIn format write.flow.id file = some flow
  loaded : deed.operates shelf = true → ∀ id : RuleId,
    (shelf.after env deed).store.flows[id]? = (past.after env shelf deed).said id

def AllOneThing (past : Past) (shelf : Shelf) : List (Deed format) → Prop
  | [] => True
  | deed :: deeds =>
    OneThing env past shelf deed ∧
      AllOneThing (past.after env shelf deed) (shelf.after env deed) deeds

end

/-! ### When they are -/

section

variable (format : Format)

/-- A file that doesn't read is put by hand only over what has been read. -/
def Careful (past : Past) : List Edit → Prop
  | [] => True
  | edit :: edits =>
    (garbles format edit = true → past.unread edit.1 = false) ∧
      Careful (past.put format edit) edits

structure Look.Good (disk : Disk) (look : Look) : Prop where
  opens : look.glance.opens = true ∧ look.opensAgain = true
  reads : ∀ (id : RuleId) (file : FlowFile), disk.flows[id]? = some file →
    look.glance.shows id = true ∧ look.reads id = true
  stays : ∀ edit ∈ look.during, (disk.flows[edit.1]?).isSome = true ∧ edit.2.isSome = true

def Minded (past : Past) (shelf : Shelf) : List Move → Prop
  | [] => True
  | move :: moves =>
    (match move with
      | .hand edit => garbles format edit = true → past.unread edit.1 = false
      | .look look => look.Good shelf.disk ∧ Careful format past look.during
      | _ => True) ∧
    Minded (past.move format shelf.disk move) (shelf.move format move) moves

end

section

variable (env : Env) {format : Format}

structure Minds (past : Past) (shelf : Shelf) (deed : Deed format) : Prop where
  moves : Minded format (past.begun format shelf deed) (shelf.begun deed) (shelf.moves env deed)
  /-- Where a flow's file is written, its version is kept. -/
  version : ∀ (write : OwnWrite) (modified : Option Nat), shelf.write deed = some write →
    write.luck.makesFolder = true → write.luck.writes = some modified →
      (((shelf.disk.edit write.luck.before).put write.flow.id
        (some ⟨modified, some (format.write write.flow)⟩)).keepVersion env write.flow
          write.luck.version).isSome = true
  /-- A flow is switched when its file reads, and was read, since the flow was taken. -/
  switch : ∀ (write : OwnWrite), shelf.write deed = some write →
    write.switches.isSome = true → write.reaches = true →
      garbles format (write.flow.id,
        (shelf.disk.edit write.luck.before).flows[write.flow.id]?) = false ∧
      match deed with
      | .turnedOff _ _ => (past.edit format write.luck.before).changed write.flow.id = false
      | _ => (past.edit format write.luck.before).unread write.flow.id = false
  /-- What ends without a look leaves nothing unread. -/
  looks : deed.operates shelf = true → (shelf.moves env deed).getLast?.any Move.isLook = true ∨
    ∀ id : RuleId, (past.after env shelf deed).unread id = false

def AllMind (past : Past) (shelf : Shelf) : List (Deed format) → Prop
  | [] => True
  | deed :: deeds =>
    Minds env past shelf deed ∧
      AllMind (past.after env shelf deed) (shelf.after env deed) deeds

end

/-! ### What the files said is what is loaded -/

section

variable {format : Format} {past : Past} {shelf : Shelf} {id : RuleId}

/-- What has been read of the files is loaded, and the flows that were picked are as they were. -/
structure Inv (past : Past) (shelf : Shelf) (format : Format) : Prop where
  said : ∀ id : RuleId, garbles format (id, shelf.disk.flows[id]?) = false →
    past.said id = (shelf.disk.flows[id]?).bind (flowIn format id)
  read : ∀ id : RuleId, past.unread id = false → shelf.store.flows[id]? = past.said id
  garbled : ∀ id : RuleId, garbles format (id, shelf.disk.flows[id]?) = true →
    past.unread id = false
  picked : ∀ (id : RuleId) (flow : Flow), shelf.picked[id]? = some flow →
    (flow.id = id ∧ Readable format flow) ∧ (past.changed id = false → past.said id = some flow)
  keyed : Keyed format shelf.store

lemma garbles_some {file : FlowFile} :
    garbles format (id, some file) = (flowIn format id file).isNone := rfl

lemma readFlow_flowIn (format : Format) (disk : Disk) (id : RuleId) :
    (readFlow format disk id true).toOption = (disk.flows[id]?).bind (flowIn format id) := by
  unfold readFlow flowIn
  cases disk.flows[id]? with
  | none => rfl
  | some file =>
    cases htext : file.text with
    | none => simp [htext, Except.toOption]
    | some text =>
      cases hread : format.read text with
      | error message => simp [htext, hread, Except.toOption]
      | ok flow =>
        by_cases hid : flow.id = id
        · simp [htext, hread, hid, Except.toOption, Option.filter]
        · simp [htext, hread, hid, Except.toOption, Option.filter]

lemma Inv.put (h : Inv past shelf format) {edit : Edit}
    (hmind : garbles format edit = true → past.unread edit.1 = false) :
    Inv (past.put format edit) { shelf with disk := shelf.disk.put edit.1 edit.2 } format := by
  obtain ⟨first, file⟩ := edit
  have hself : (shelf.disk.put first file).flows[first]? = file := put_self _ _ _
  have hother : ∀ id : RuleId, id ≠ first →
      (shelf.disk.put first file).flows[id]? = shelf.disk.flows[id]? := fun id hne =>
    put_of_ne _ _ (Ne.symm hne)
  unfold Past.put
  cases hgarbles : garbles format (first, file) with
  | true =>
    rw [if_pos rfl]
    refine ⟨fun id hid => ?_, h.read, fun id hid => ?_, fun id flow hflow => ?_, h.keyed⟩
    · by_cases hfirst : id = first
      · subst hfirst
        dsimp only at hid
        rw [hself, hgarbles] at hid
        cases hid
      · dsimp only at hid ⊢
        rw [hother id hfirst] at hid ⊢
        exact h.said id hid
    · by_cases hfirst : id = first
      · subst hfirst
        exact hmind hgarbles
      · dsimp only at hid
        rw [hother id hfirst] at hid
        exact h.garbled id hid
    · obtain ⟨hflowId, hsaid⟩ := h.picked id flow hflow
      refine ⟨hflowId, fun hchanged => ?_⟩
      by_cases hfirst : id = first
      · subst hfirst
        simp at hchanged
      · dsimp only at hchanged
        rw [Function.update_of_ne hfirst] at hchanged
        exact hsaid hchanged
  | false =>
    rw [if_neg Bool.false_ne_true]
    refine ⟨fun id hid => ?_, fun id hid => ?_, fun id hid => ?_, fun id flow hflow => ?_, h.keyed⟩
    · by_cases hfirst : id = first
      · subst hfirst
        dsimp only
        rw [hself, Function.update_self]
      · dsimp only at hid ⊢
        rw [hother id hfirst] at hid ⊢
        rw [Function.update_of_ne hfirst]
        exact h.said id hid
    · by_cases hfirst : id = first
      · subst hfirst
        simp at hid
      · dsimp only at hid ⊢
        rw [Function.update_of_ne hfirst] at hid ⊢
        exact h.read id hid
    · by_cases hfirst : id = first
      · subst hfirst
        dsimp only at hid
        rw [hself, hgarbles] at hid
        cases hid
      · dsimp only at hid ⊢
        rw [hother id hfirst] at hid
        rw [Function.update_of_ne hfirst]
        exact h.garbled id hid
    · obtain ⟨hflowId, hsaid⟩ := h.picked id flow hflow
      refine ⟨hflowId, fun hchanged => ?_⟩
      by_cases hfirst : id = first
      · subst hfirst
        simp at hchanged
      · dsimp only at hchanged ⊢
        rw [Function.update_of_ne hfirst] at hchanged ⊢
        exact hsaid hchanged

lemma Inv.edit {edits : List Edit} (h : Inv past shelf format)
    (hcareful : Careful format past edits) :
    Inv (past.edit format edits) { shelf with disk := shelf.disk.edit edits } format := by
  induction edits generalizing past shelf with
  | nil => exact h
  | cons edit edits ih =>
    have hput : Inv (past.put format edit)
        { shelf with disk := shelf.disk.put edit.1 edit.2 } format := h.put hcareful.1
    exact ih hput hcareful.2

lemma edit_isSome {disk : Disk} {edits : List Edit}
    (h : ∀ edit ∈ edits, (disk.flows[edit.1]?).isSome = true ∧ edit.2.isSome = true)
    (id : RuleId) : ((disk.edit edits).flows[id]?).isSome = (disk.flows[id]?).isSome := by
  have hput : ∀ (disk : Disk) (edit : Edit), (disk.flows[edit.1]?).isSome = true →
      edit.2.isSome = true → ∀ id : RuleId,
        ((disk.put edit.1 edit.2).flows[id]?).isSome = (disk.flows[id]?).isSome := by
    intro disk edit hthere hput id
    by_cases hid : edit.1 = id
    · subst hid
      rw [put_self, hput, hthere]
    · rw [put_of_ne _ _ hid]
  induction edits generalizing disk with
  | nil => rfl
  | cons edit edits ih =>
    obtain ⟨hthere, hsome⟩ := h edit List.mem_cons_self
    have hrest : ∀ other ∈ edits, ((disk.put edit.1 edit.2).flows[other.1]?).isSome = true ∧
        other.2.isSome = true := by
      intro other hother
      rw [hput disk edit hthere hsome]
      exact h other (List.mem_cons_of_mem _ hother)
    exact (ih hrest).trans (hput disk edit hthere hsome id)

lemma loaded_look {look : Look} (hgood : look.Good shelf.disk) (id : RuleId) :
    (shelf.move format (.look look)).store.flows[id]? =
      ((shelf.disk.edit look.during).flows[id]?).bind fun file =>
        (flowIn format id file).or shelf.store.flows[id]? := by
  obtain ⟨hopens, hagain⟩ := hgood.opens
  have hquiet : ((listing shelf.disk look.glance).isEmpty && !look.opensAgain) = false := by
    rw [hagain, Bool.not_true, Bool.and_false]
  have hthere := edit_isSome hgood.stays id
  show (shelf.store.reload format shelf.disk look).2.flows[id]? = _
  rw [reload_flows hquiet, get_listing hopens]
  cases hfile : shelf.disk.flows[id]? with
  | none =>
    rw [hfile, Option.isSome_none, Option.isSome_eq_false_iff, Option.isNone_iff_eq_none] at hthere
    rw [hthere]
    rfl
  | some file =>
    obtain ⟨hshows, hreads⟩ := hgood.reads id file hfile
    rw [hfile, Option.isSome_some] at hthere
    obtain ⟨after, hafter⟩ := Option.isSome_iff_exists.mp hthere
    have hread := readFlow_flowIn format (shelf.disk.edit look.during) id
    rw [hafter, Option.bind_some] at hread ⊢
    rw [Option.bind_some, if_pos hshows, Option.bind_some, hreads, ← hread]
    cases readFlow format (shelf.disk.edit look.during) id true with
    | error message => rfl
    | ok flow => rfl

lemma Inv.look {look : Look} (h : Inv past shelf format) (hgood : look.Good shelf.disk)
    (hcareful : Careful format past look.during) :
    Inv (past.move format shelf.disk (.look look)) (shelf.move format (.look look)) format ∧
      ∀ id : RuleId, (past.move format shelf.disk (.look look)).unread id = false := by
  have hedited := h.edit hcareful
  have hdisk : (shelf.move format (.look look)).disk = shelf.disk.edit look.during :=
    reload_disk look
  have hread : ∀ id : RuleId, (past.move format shelf.disk (.look look)).unread id = false := by
    intro id
    unfold Past.move
    dsimp only
    rw [Bool.and_eq_false_iff, Bool.not_eq_false']
    by_cases hgarbles : garbles format (id, (shelf.disk.edit look.during).flows[id]?) = true
    · exact .inl (hedited.garbled id hgarbles)
    · right
      rw [Bool.not_eq_true] at hgarbles
      have hthere := edit_isSome hgood.stays id
      unfold Look.finds
      rw [hgood.opens.1, hgood.opens.2, Bool.and_true, Bool.true_and]
      cases hfile : shelf.disk.flows[id]? with
      | none =>
        rw [hfile, Option.isSome_none, Option.isSome_eq_false_iff] at hthere
        exact hthere
      | some file =>
        obtain ⟨hshows, hreads⟩ := hgood.reads id file hfile
        rw [Option.isSome_some, if_pos rfl, hshows, hreads, readFlow_flowIn, Bool.true_and]
        rw [hfile, Option.isSome_some] at hthere
        obtain ⟨after, hafter⟩ := Option.isSome_iff_exists.mp hthere
        rw [hafter, garbles_some, Option.isNone_eq_false_iff] at hgarbles
        rw [hafter]
        exact hgarbles
  refine ⟨⟨fun id hid => ?_, fun id _ => ?_, fun id _ => hread id, hedited.picked,
    h.keyed.reload look⟩, hread⟩
  · rw [hdisk] at hid ⊢
    exact hedited.said id hid
  · rw [loaded_look hgood id]
    show _ = (past.edit format look.during).said id
    by_cases hgarbles : garbles format (id, (shelf.disk.edit look.during).flows[id]?) = true
    · cases hfile : (shelf.disk.edit look.during).flows[id]? with
      | none =>
        rw [hfile] at hgarbles
        cases hgarbles
      | some file =>
        have hunread := hedited.garbled id hgarbles
        rw [hfile, garbles_some, Option.isNone_iff_eq_none] at hgarbles
        rw [Option.bind_some, hgarbles, Option.none_or]
        exact hedited.read id hunread
    · rw [Bool.not_eq_true] at hgarbles
      rw [hedited.said id hgarbles]
      cases hfile : (shelf.disk.edit look.during).flows[id]? with
      | none => rfl
      | some file =>
        rw [hfile, garbles_some, Option.isNone_eq_false_iff] at hgarbles
        obtain ⟨flow, hflow⟩ := Option.isSome_iff_exists.mp hgarbles
        rw [Option.bind_some, Option.bind_some, hflow, Option.some_or]

/-! ### The moves of a deed -/

lemma moveAll_append (moves moves' : List Move) :
    moveAll format past shelf (moves ++ moves') =
      moveAll format (moveAll format past shelf moves).1 (moveAll format past shelf moves).2
        moves' :=
  List.foldl_append

lemma moveAll_hand (edits : List Edit) :
    moveAll format past shelf (edits.map .hand) =
      (past.edit format edits, { shelf with disk := shelf.disk.edit edits }) := by
  induction edits generalizing past shelf with
  | nil => rfl
  | cons edit edits ih =>
    exact @ih (past.put format edit) { shelf with disk := shelf.disk.put edit.1 edit.2 }

lemma Inv.moveAll {moves : List Move} (h : Inv past shelf format)
    (hminded : Minded format past shelf moves)
    (hown : ∀ edit : Edit, Move.own edit ∈ moves → garbles format edit = false) :
    Inv (Automations.moveAll format past shelf moves).1
      (Automations.moveAll format past shelf moves).2 format ∧
      (moves.getLast?.any Move.isLook = true → ∀ id : RuleId,
        (Automations.moveAll format past shelf moves).1.unread id = false) := by
  induction moves generalizing past shelf with
  | nil => exact ⟨h, fun hlast => nomatch hlast⟩
  | cons move moves ih =>
    obtain ⟨hmove, hrest⟩ := hminded
    have hownRest : ∀ edit : Edit, Move.own edit ∈ moves → garbles format edit = false :=
      fun edit hedit => hown edit (List.mem_cons_of_mem _ hedit)
    -- What one move keeps, and that nothing is unread after a look.
    have hnext : Inv (past.move format shelf.disk move) (shelf.move format move) format ∧
        (move.isLook = true → ∀ id : RuleId,
          (past.move format shelf.disk move).unread id = false) := by
      cases move with
      | hand edit => exact ⟨h.put hmove, fun hlook => nomatch hlook⟩
      | own edit =>
        refine ⟨h.put fun hgarbles => ?_, fun hlook => nomatch hlook⟩
        rw [hown edit List.mem_cons_self] at hgarbles
        cases hgarbles
      | kept versions =>
        exact ⟨⟨h.said, h.read, h.garbled, h.picked, h.keyed⟩, fun hlook => nomatch hlook⟩
      | look look =>
        obtain ⟨hinv, hread⟩ := h.look hmove.1 hmove.2
        exact ⟨hinv, fun _ => hread⟩
    obtain ⟨hinv, hlast⟩ := ih hnext.1 hrest hownRest
    refine ⟨hinv, fun hlook => ?_⟩
    cases moves with
    | nil => exact hnext.2 (by simpa using hlook)
    | cons second moves => exact hlast (by simpa [List.getLast?_cons_cons] using hlook)

variable {env : Env}

lemma keepVersions_flows (flows : List Flow) (versions : RuleId → VersionLuck) (disk : Disk) :
    (disk.keepVersions env flows versions).flows = disk.flows := by
  unfold Disk.keepVersions
  induction flows generalizing disk with
  | nil => rfl
  | cons flow flows ih =>
    rw [List.foldl_cons, ih]
    cases hkeep : disk.keepVersion env flow (versions flow.id) with
    | none => rfl
    | some kept => exact keepVersion_flows hkeep

lemma with_versions {disk kept : Disk} (h : kept.flows = disk.flows) :
    ({ disk with versions := kept.versions } : Disk) = kept := by
  cases kept
  cases h
  rfl

lemma save_moves (past : Past) (shelf : Shelf) (write : OwnWrite) :
    (moveAll format past shelf (write.moves env format shelf.disk)).2 =
      { shelf with
        disk := (shelf.store.save env format shelf.disk write.flow write.luck).2.1
        store := (shelf.store.save env format shelf.disk write.flow write.luck).2.2 } := by
  unfold OwnWrite.moves Store.save
  rw [moveAll_append, moveAll_hand]
  cases hfolder : write.luck.makesFolder with
  | false => rfl
  | true =>
    cases hwrites : write.luck.writes with
    | none => rfl
    | some modified =>
      simp only [Bool.not_true, Bool.false_eq_true, if_false]
      cases hkept : ((shelf.disk.edit write.luck.before).put write.flow.id
          (some ⟨modified, some (format.write write.flow)⟩)).keepVersion env write.flow
            write.luck.version with
      | none =>
        show (moveAll format _ _ (write.luck.after.map .hand)).2 = _
        rw [moveAll_hand]
        rfl
      | some kept =>
        have hsame : ({ (shelf.disk.edit write.luck.before).put write.flow.id
            (some ⟨modified, some (format.write write.flow)⟩) with
              versions := kept.versions } : Disk) = kept :=
          with_versions (keepVersion_flows hkept)
        show (moveAll format _ _ (write.luck.after.map .hand ++ [.look write.luck.look])).2 = _
        rw [moveAll_append, moveAll_hand]
        show Shelf.move format { shelf with disk := Disk.edit { (shelf.disk.edit
          write.luck.before).put write.flow.id (some ⟨modified, some (format.write write.flow)⟩)
            with versions := kept.versions } write.luck.after } (.look write.luck.look) = _
        rw [hsame]
        rfl

theorem after_moves (past : Past) (shelf : Shelf) (deed : Deed format) :
    shelf.after env deed =
      (moveAll format past (shelf.begun deed) (shelf.moves env deed)).2 := by
  unfold Shelf.after Shelf.perform Shelf.moves
  cases hwrite : shelf.write deed with
  | some write =>
    have hbegun : shelf.begun deed = shelf := by
      cases deed <;> first | rfl | cases hwrite
    rw [hbegun]
    exact (save_moves past shelf write).symm
  | none =>
    cases deed with
    | edited edits =>
      dsimp only
      rw [moveAll_hand]
      rfl
    | opened look => rfl
    | polled others glance between look =>
      dsimp only
      rw [moveAll_append, moveAll_hand]
      rcases poll_cases format shelf.disk shelf.store others glance between look with
        ⟨-, -, hpoll⟩ | hpoll
      · rw [hpoll]
        rfl
      · rw [hpoll]
        rfl
    | defined flow readable luck => cases hwrite
    | enabled id enabled luck => rfl
    | handedOver id luck => rfl
    | picked ids => rfl
    | turnedOff id luck => rfl
    | deleted id removes after look =>
      cases removes with
      | false => rfl
      | true =>
        dsimp only [Store.delete]
        rw [if_neg (by decide), if_pos rfl]
        show _ = (moveAll format _ _ (after.map .hand ++ [.look look])).2
        rw [moveAll_append, moveAll_hand]
        rfl
    | keptVersions versions =>
      have hsame : ({ shelf.disk with versions := (shelf.disk.keepVersions env
          (Map.vals shelf.store.flows) versions).versions } : Disk) =
            shelf.disk.keepVersions env (Map.vals shelf.store.flows) versions :=
        with_versions (keepVersions_flows _ _ _)
      show _ = { shelf with disk := { shelf.disk with versions := (shelf.disk.keepVersions env
        (Map.vals shelf.store.flows) versions).versions } }
      rw [hsame]

/-! ### One deed -/

variable {deed : Deed format} {write : OwnWrite}

lemma begun_write (past : Past) (h : shelf.write deed = some write) :
    past.begun format shelf deed = past ∧ shelf.begun deed = shelf := by
  cases deed <;> first | exact ⟨rfl, rfl⟩ | cases h

lemma inv_closed (format : Format) (flowsDir : String) (disk : Disk) :
    Inv (Past.opened format disk) (.closed flowsDir disk) format := by
  refine ⟨fun id _ => rfl, fun id hread => ?_, fun id hgarbles => ?_, fun id flow hflow => ?_,
    fun id flow hflow => ?_⟩
  · unfold Past.opened at hread ⊢
    rw [Option.isSome_eq_false_iff, Option.isNone_iff_eq_none] at hread
    exact hread.symm
  · unfold Past.opened
    dsimp only
    unfold garbles at hgarbles
    rw [Bool.and_eq_true, Option.isNone_iff_eq_none] at hgarbles
    rw [show (Shelf.closed flowsDir disk).disk.flows = disk.flows from rfl] at hgarbles
    rw [hgarbles.2]
    rfl
  · cases hflow
  · cases hflow

lemma Inv.begun (h : Inv past shelf format) (deed : Deed format) :
    Inv (past.begun format shelf deed) (shelf.begun deed) format := by
  cases deed with
  | opened look => exact inv_closed format shelf.store.flowsDir shelf.disk
  | picked ids =>
    refine ⟨h.said, h.read, h.garbled, fun id flow hflow => ?_, h.keyed⟩
    have hloaded : shelf.store.flows[id]? = some flow := by
      unfold Shelf.begun at hflow
      dsimp only at hflow
      rw [Std.ExtTreeMap.getElem?_filter'] at hflow
      exact (Option.filter_eq_some_iff.mp hflow).1
    refine ⟨h.keyed id flow hloaded, fun hread => ?_⟩
    rw [← hloaded]
    exact (h.read id hread).symm
  | edited edits => exact h
  | polled others glance between look => exact h
  | defined flow readable luck => exact h
  | enabled id enabled luck => exact h
  | handedOver id luck => exact h
  | turnedOff id luck => exact h
  | deleted id removes after look => exact h
  | keptVersions versions => exact h

lemma Inv.writes (h : Inv past shelf format) (hformat : ReadsBack format)
    (hwrite : shelf.write deed = some write) :
    format.read (format.write write.flow) = .ok write.flow ∧
      ∀ flow : Flow, write.switches = some flow → write.flow.id = flow.id := by
  cases deed with
  | defined flow readable luck =>
    cases hwrite
    exact ⟨hformat flow readable flow.owner flow.enabled, fun other hother => nomatch hother⟩
  | enabled id enabled luck =>
    obtain ⟨flow, hflow, rfl⟩ := Option.map_eq_some_iff.mp hwrite
    refine ⟨hformat flow (h.keyed id flow hflow).2 flow.owner enabled, fun other hother => ?_⟩
    cases hother
    rfl
  | handedOver id luck =>
    obtain ⟨flow, hflow, rfl⟩ := Option.map_eq_some_iff.mp hwrite
    refine ⟨hformat flow (h.keyed id flow hflow).2 none false, fun other hother => ?_⟩
    cases hother
    rfl
  | turnedOff id luck =>
    obtain ⟨flow, hflow, rfl⟩ := Option.map_eq_some_iff.mp hwrite
    refine ⟨hformat flow (h.picked id flow hflow).1.2 flow.owner false, fun other hother => ?_⟩
    cases hother
    rfl
  | edited edits => cases hwrite
  | opened look => cases hwrite
  | polled others glance between look => cases hwrite
  | picked ids => cases hwrite
  | deleted id removes after look => cases hwrite
  | keptVersions versions => cases hwrite

lemma notMem_hand {edit : Edit} (edits : List Edit) :
    Move.own edit ∉ edits.map Move.hand := by
  intro hmem
  obtain ⟨other, -, hother⟩ := List.mem_map.mp hmem
  cases hother

lemma Inv.own (h : Inv past shelf format) (hformat : ReadsBack format) (deed : Deed format)
    {edit : Edit} (hedit : Move.own edit ∈ shelf.moves env deed) : garbles format edit = false := by
  unfold Shelf.moves at hedit
  cases hwrite : shelf.write deed with
  | some write =>
    rw [hwrite] at hedit
    unfold OwnWrite.moves at hedit
    rw [List.mem_append] at hedit
    have hedit := hedit.resolve_left (notMem_hand _)
    split at hedit
    · next modified _ _ =>
      rw [List.mem_cons] at hedit
      rcases hedit with hfirst | hrest
      · cases hfirst
        simp [garbles, flowIn, (h.writes hformat hwrite).1, Except.toOption, Option.filter]
      · split at hrest
        · rw [List.cons_append, List.mem_cons, List.mem_append] at hrest
          rcases hrest with hkept | hhand | hlook
          · cases hkept
          · exact absurd hhand (notMem_hand _)
          · cases List.mem_singleton.mp hlook
        · exact absurd hrest (notMem_hand _)
    · cases hedit
  | none =>
    rw [hwrite] at hedit
    cases deed with
    | edited edits => exact absurd hedit (notMem_hand _)
    | opened look => cases List.mem_singleton.mp hedit
    | polled others glance between look =>
      rw [List.mem_append] at hedit
      have hedit := hedit.resolve_left (notMem_hand _)
      split_ifs at hedit
      · cases List.mem_singleton.mp hedit
      · cases hedit
    | deleted id removes after look =>
      dsimp only at hedit
      split_ifs at hedit
      · rw [List.cons_append, List.mem_cons, List.mem_append] at hedit
        rcases hedit with hfirst | hhand | hlook
        · cases hfirst
          rfl
        · exact absurd hhand (notMem_hand _)
        · cases List.mem_singleton.mp hlook
      · cases hedit
    | keptVersions versions => cases List.mem_singleton.mp hedit
    | defined flow readable luck => cases hedit
    | enabled id enabled luck => cases hedit
    | handedOver id luck => cases hedit
    | picked ids => cases hedit
    | turnedOff id luck => cases hedit

lemma careful_of_minded {edits : List Edit} {moves : List Move}
    (h : Minded format past shelf (edits.map .hand ++ moves)) : Careful format past edits := by
  induction edits generalizing past shelf with
  | nil => trivial
  | cons edit edits ih => exact ⟨h.1, ih h.2⟩

lemma Inv.before (h : Inv past shelf format) (hminds : Minds env past shelf deed)
    (hwrite : shelf.write deed = some write) :
    Inv (past.edit format write.luck.before)
      { shelf with disk := shelf.disk.edit write.luck.before } format := by
  have hmoves := hminds.moves
  obtain ⟨hpast, hshelf⟩ := begun_write past hwrite
  rw [hpast, hshelf] at hmoves
  unfold Shelf.moves at hmoves
  rw [hwrite] at hmoves
  exact h.edit (careful_of_minded hmoves)

lemma byHand_hand (edits : List Edit) :
    (edits.map Move.hand).filterMap Move.byHand = edits := by
  rw [List.filterMap_map]
  exact List.filterMap_some

lemma refused_of_minds (hminds : Minds env past shelf deed) {why : String}
    (h : (shelf.perform env deed).1 = .error why) :
    (shelf.after env deed).disk.flows =
        (shelf.disk.edit ((shelf.moves env deed).filterMap Move.byHand)).flows ∧
      (shelf.after env deed).store = shelf.store := by
  unfold Shelf.after
  unfold Shelf.perform at h ⊢
  unfold Shelf.moves
  cases hwrite : shelf.write deed with
  | some write =>
    rw [hwrite] at h
    have hversion := hminds.version write
    dsimp only at h ⊢
    unfold OwnWrite.moves
    unfold Store.save at h ⊢
    cases hfolder : write.luck.makesFolder with
    | false =>
      dsimp only
      rw [List.append_nil, byHand_hand]
      exact ⟨rfl, rfl⟩
    | true =>
      cases hwrites : write.luck.writes with
      | none =>
        dsimp only
        rw [List.append_nil, byHand_hand]
        exact ⟨rfl, rfl⟩
      | some modified =>
        obtain ⟨kept, hkept⟩ := Option.isSome_iff_exists.mp (hversion modified hwrite hfolder hwrites)
        rw [hfolder, hwrites] at h
        simp only [Bool.not_true, Bool.false_eq_true, if_false] at h
        rw [hkept] at h
        cases h
  | none =>
    rw [hwrite] at h
    cases deed with
    | deleted id removes after look =>
      cases removes with
      | true => cases h
      | false => exact ⟨rfl, rfl⟩
    | edited edits => cases h
    | opened look => cases h
    | polled others glance between look => cases h
    | defined flow readable luck => cases h
    | enabled id enabled luck => cases h
    | handedOver id luck => cases h
    | picked ids => cases h
    | turnedOff id luck => cases h
    | keptVersions versions => cases h

lemma switched_of_minds (h : Inv past shelf format) (hformat : ReadsBack format)
    (hminds : Minds env past shelf deed) {flow : Flow} (hwrite : shelf.write deed = some write)
    (hswitches : write.switches = some flow) (hreaches : write.reaches = true) {file : FlowFile}
    (hfile : (shelf.disk.edit write.luck.before).flows[write.flow.id]? = some file) :
    flowIn format write.flow.id file = some flow := by
  have hbefore := h.before hminds hwrite
  have hid := (h.writes hformat hwrite).2 flow hswitches
  obtain ⟨hreads, hread⟩ := hminds.switch write hwrite (by rw [hswitches]; rfl) hreaches
  have hsaid := hbefore.said write.flow.id hreads
  dsimp only at hsaid
  rw [hfile, Option.bind_some] at hsaid
  rw [← hsaid]
  -- The flow that is switched was taken from what is loaded, now or as the flows were picked.
  have hloaded : ∀ id : RuleId, shelf.store.flows[id]? = some flow →
      (past.edit format write.luck.before).unread write.flow.id = false →
        (past.edit format write.luck.before).said write.flow.id = some flow := by
    intro id hflow hunread
    rw [← hbefore.read write.flow.id hunread, hid, (h.keyed id flow hflow).1]
    exact hflow
  cases deed with
  | enabled id enabled luck =>
    obtain ⟨other, hother, rfl⟩ := Option.map_eq_some_iff.mp hwrite
    cases hswitches
    exact hloaded id hother hread
  | handedOver id luck =>
    obtain ⟨other, hother, rfl⟩ := Option.map_eq_some_iff.mp hwrite
    cases hswitches
    exact hloaded id hother hread
  | turnedOff id luck =>
    obtain ⟨other, hother, rfl⟩ := Option.map_eq_some_iff.mp hwrite
    cases hswitches
    obtain ⟨⟨hotherId, -⟩, hpicked⟩ := hbefore.picked id flow hother
    dsimp only at hread ⊢
    rw [hotherId] at hread ⊢
    exact hpicked hread
  | defined flow readable luck =>
    cases hwrite
    cases hswitches
  | edited edits => cases hwrite
  | opened look => cases hwrite
  | polled others glance between look => cases hwrite
  | picked ids => cases hwrite
  | deleted id removes after look => cases hwrite
  | keptVersions versions => cases hwrite

lemma oneThing_of_minds (h : Inv past shelf format) (hformat : ReadsBack format)
    (hminds : Minds env past shelf deed) :
    OneThing env past shelf deed ∧
      Inv (past.after env shelf deed) (shelf.after env deed) format := by
  obtain ⟨hinv, hlast⟩ := (h.begun deed).moveAll hminds.moves fun edit hedit =>
    h.own hformat deed hedit
  have hafter : Inv (past.after env shelf deed) (shelf.after env deed) format := by
    rw [after_moves (past.begun format shelf deed) shelf deed]
    exact hinv
  refine ⟨⟨fun why => refused_of_minds hminds, fun write flow hwrite hswitches hreaches file =>
    switched_of_minds h hformat hminds hwrite hswitches hreaches, fun hoperates id => ?_⟩, hafter⟩
  rcases hminds.looks hoperates with hlook | hread
  · exact hafter.read id (hlast hlook id)
  · exact hafter.read id (hread id)

/-! ### A run -/

lemma allOneThing_of_inv (hformat : ReadsBack format) (deeds : List (Deed format))
    (h : Inv past shelf format) (hminds : AllMind env past shelf deeds) :
    AllOneThing env past shelf deeds := by
  induction deeds generalizing past shelf with
  | nil => trivial
  | cons deed deeds ih =>
    obtain ⟨hone, hnext⟩ := oneThing_of_minds h hformat hminds.1
    exact ⟨hone, ih hnext hminds.2⟩

/-- Flow files and loaded flows stay one thing in every run whose deeds mind them. -/
theorem allOneThing_of_minds (env : Env) (format : Format) (hformat : ReadsBack format)
    (flowsDir : String) (disk : Disk) (deeds : List (Deed format))
    (h : AllMind env (Past.opened format disk) (.closed flowsDir disk) deeds) :
    AllOneThing env (Past.opened format disk) (.closed flowsDir disk) deeds :=
  allOneThing_of_inv hformat deeds (inv_closed format flowsDir disk) h

end

/-! ### The extension's deeds -/

section

variable {env : Env} {format : Format} {shelf : Shelf}

variable {w : World} {event : Event} {picked : Map RuleId Flow}

end

/-! ### Ann's flow file -/

def annsShelf : Shelf := .closed "flows" watchingDisk

def annsPast : Past := .opened watchingFormat watchingDisk

def opensFirst : Deed watchingFormat := .opened openLook

def madeHomes : Deed watchingFormat := .edited [(watching.id, some ⟨some 3, some "+"⟩)]

def halfWritten : Deed watchingFormat := .edited [(watching.id, some ⟨some 4, some "?"⟩)]

def looksAgain : Deed watchingFormat := .polled false openLook.glance [] openLook

def switchedOff : Deed watchingFormat := .enabled watching.id false goodSave

lemma readable_watching : Readable watchingFormat watching :=
  ⟨"+ann", by
    show Except.ok { watching with
      owner := (Slug.parse "user id" (String.ofList ['a', 'n', 'n'])).toOption, enabled := true } = _
    rw [show (Slug.parse "user id" (String.ofList ['a', 'n', 'n'])).toOption = some ann by
      decide]
    rfl⟩

def unkeptSave : SaveLuck := { goodSave with version := ⟨false, false⟩ }

def savedUnkept : Deed watchingFormat := .defined watching readable_watching unkeptSave

lemma openLook_good (disk : Disk) : openLook.Good disk :=
  ⟨⟨rfl, rfl⟩, fun _ _ _ => ⟨rfl, rfl⟩, fun _ hedit => nomatch hedit⟩

lemma minds_looksAgain {past : Past} {shelf : Shelf}
    (h : (shelf.store.poll watchingFormat shelf.disk false openLook.glance [] openLook).1 = true) :
    Minds (Sample.env []) past shelf looksAgain := by
  have hmoves : shelf.moves (Sample.env []) looksAgain = [.look openLook] := by
    show [] ++ (if (shelf.store.poll watchingFormat shelf.disk false openLook.glance []
      openLook).1 = true then [Move.look openLook] else []) = _
    rw [if_pos h]
    rfl
  refine ⟨?_, fun _ _ hwrite => (nomatch hwrite), fun _ hwrite => (nomatch hwrite),
    fun _ => .inl ?_⟩
  · rw [hmoves]
    exact ⟨⟨openLook_good _, trivial⟩, trivial⟩
  · rw [hmoves]
    rfl

lemma minds_edited {past : Past} {shelf : Shelf} {edit : Edit}
    (h : garbles watchingFormat edit = true → past.unread edit.1 = false) :
    Minds (Sample.env []) past shelf (.edited [edit] : Deed watchingFormat) :=
  ⟨⟨h, trivial⟩, fun _ _ hwrite => (nomatch hwrite),
    fun _ hwrite => (nomatch hwrite), fun hoperates => (nomatch hoperates)⟩

lemma minds_switchedOff {past : Past} {shelf : Shelf}
    (hid : ((shelf.store.flows[watching.id]?).map Flow.id) = some watching.id)
    (hgarbles : garbles watchingFormat (watching.id, shelf.disk.flows[watching.id]?) = false)
    (hread : past.unread watching.id = false) :
    Minds (Sample.env []) past shelf switchedOff := by
  obtain ⟨flow, hflow, hflowId⟩ := Option.map_eq_some_iff.mp hid
  have hwrite : shelf.write switchedOff =
      some ⟨{ flow with enabled := false }, some flow, goodSave⟩ := by
    show (shelf.store.flows[watching.id]?).map _ = _
    rw [hflow]
    rfl
  have hkept : ∀ (disk : Disk) (flow : Flow),
      (disk.keepVersion (Sample.env []) flow goodSave.version).isSome = true := by
    intro disk flow
    unfold Disk.keepVersion
    simp only [goodSave, Bool.not_true, Bool.false_eq_true, if_false]
    split <;> rfl
  obtain ⟨kept, hkeep⟩ := Option.isSome_iff_exists.mp (hkept (shelf.disk.put flow.id
    (some ⟨some 2, some (watchingFormat.write { flow with enabled := false })⟩))
      { flow with enabled := false })
  have hmoves : shelf.moves (Sample.env []) switchedOff =
      [.own (flow.id, some ⟨some 2, some (watchingFormat.write { flow with enabled := false })⟩),
        .kept kept.versions, .look openLook] := by
    unfold Shelf.moves
    rw [hwrite]
    simp only [goodSave] at hkeep
    simp only [OwnWrite.moves, goodSave, Disk.edit, List.foldl_nil]
    rw [hkeep]
    rfl
  refine ⟨?_, fun write modified hother _ _ => ?_, fun write hother _ _ => ?_, fun _ => .inl ?_⟩
  · rw [hmoves]
    exact ⟨trivial, trivial, ⟨openLook_good _, trivial⟩, trivial⟩
  · cases hwrite.symm.trans hother
    exact hkept _ _
  · cases hwrite.symm.trans hother
    rw [← hflowId] at hgarbles hread
    exact ⟨hgarbles, hread⟩
  · rw [hmoves]
    rfl

/-- Ann's flow is edited by hand, read, and switched off; its file is then left half written, and
looked at. -/
theorem allOneThing_edited :
    AllOneThing (Sample.env []) annsPast annsShelf
      [opensFirst, madeHomes, looksAgain, switchedOff, halfWritten, looksAgain] := by
  refine allOneThing_of_minds (Sample.env []) watchingFormat readsBack_watching "flows"
    watchingDisk _ ⟨?_, minds_edited fun _ => ?_, minds_looksAgain ?_, minds_switchedOff ?_ ?_ ?_,
      minds_edited fun _ => ?_, minds_looksAgain ?_, trivial⟩
  · exact ⟨⟨⟨openLook_good _, trivial⟩, trivial⟩, fun _ _ hwrite => (nomatch hwrite),
      fun _ hwrite => (nomatch hwrite), fun _ => .inl rfl⟩
  · decide
  · decide +kernel
  · decide +kernel
  · decide +kernel
  · decide +kernel
  · decide +kernel
  · decide +kernel

/-- A switch writes what is loaded over a hand edit that hasn't been read, and a save whose version
can't be kept answers an error once the file is written. -/
theorem not_allOneThing_unread :
    ReadsBack watchingFormat ∧
      ¬ AllOneThing (Sample.env []) annsPast annsShelf
        [opensFirst, madeHomes, switchedOff] ∧
      ¬ AllOneThing (Sample.env []) annsPast annsShelf
        [opensFirst, savedUnkept] := by
  refine ⟨readsBack_watching, fun h => ?_, fun h => ?_⟩
  · obtain ⟨-, -, hone, -⟩ := h
    have hloaded : ((((annsShelf.after (Sample.env []) opensFirst).after (Sample.env []) madeHomes).store.flows[watching.id]?).map fun flow =>
          (flow.id, flow.owner)) = some (watching.id, some ann) := by decide +kernel
    obtain ⟨flow, hflow, hsame⟩ := Option.map_eq_some_iff.mp hloaded
    obtain ⟨hid, howner⟩ := Prod.mk.inj hsame
    have hedited : ((annsShelf.after (Sample.env []) opensFirst).after (Sample.env []) madeHomes).disk =
          (annsShelf.after (Sample.env []) opensFirst).disk.put
            watching.id (some ⟨some 3, some "+"⟩) := rfl
    have hfile : ((annsShelf.after (Sample.env []) opensFirst).after (Sample.env []) madeHomes).disk.flows[flow.id]? =
          some ⟨some 3, some "+"⟩ := by
      rw [hid, hedited, put_self]
    have hsaid := hone.switched ⟨{ flow with enabled := false }, some flow, goodSave⟩ flow
      (by show Option.map _ _ = _; rw [hflow]; rfl) rfl rfl ⟨some 3, some "+"⟩
      hfile
    dsimp only at hsaid
    rw [hid] at hsaid
    have hhomes : (flowIn watchingFormat watching.id ⟨some 3, some "+"⟩).map Flow.owner =
        some none := by decide
    rw [hsaid, Option.map_some, howner] at hhomes
    cases hhomes
  · obtain ⟨-, hone, -⟩ := h
    have hrefused : ((annsShelf.after (Sample.env []) opensFirst).perform (Sample.env []) savedUnkept).1.toOption = none := by decide
    cases hanswer : ((annsShelf.after (Sample.env []) opensFirst).perform (Sample.env []) savedUnkept).1 with
    | ok answer =>
      rw [hanswer] at hrefused
      cases hrefused
    | error why =>
      obtain ⟨hflows, -⟩ := hone.refused why hanswer
      have hmodified : ((((annsShelf.after (Sample.env []) opensFirst).after (Sample.env []) savedUnkept).disk.flows[watching.id]?).bind
            FlowFile.modified) = some 2 := by decide +kernel
      rw [hflows] at hmodified
      exact absurd hmodified (by decide +kernel)

end Irori.Automations
