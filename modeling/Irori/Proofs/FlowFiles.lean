import Irori.Automations.Service
import Irori.Lib.Index

/-!
# Flow files

What each operation of the store does to a flow's file and to what is loaded of it.
-/

namespace Irori.Automations

variable {env : Env} {format : Format} {disk disk' : Disk} {store : Store} {id : RuleId}

lemma put_self (disk : Disk) (id : RuleId) (file : Option FlowFile) :
    (disk.put id file).flows[id]? = file := by
  cases file with
  | none => simp [Disk.put]
  | some file => simp [Disk.put]

lemma put_of_ne (disk : Disk) {other : RuleId} (file : Option FlowFile) (h : other ≠ id) :
    (disk.put other file).flows[id]? = disk.flows[id]? := by
  cases file with
  | none => simp [Disk.put, Map.get_erase, h]
  | some file => simp [Disk.put, Map.get_insert, h]

lemma edit_of_notMem (edits : List Edit) (h : id ∉ edits.map Prod.fst) :
    (disk.edit edits).flows[id]? = disk.flows[id]? := by
  induction edits generalizing disk with
  | nil => rfl
  | cons edit edits ih =>
    rw [List.map_cons, List.mem_cons, not_or] at h
    exact (ih h.2).trans (put_of_ne disk edit.2 (Ne.symm h.1))

lemma readFlow_congr (h : disk'.flows[id]? = disk.flows[id]?) (reads : Bool) :
    readFlow format disk' id reads = readFlow format disk id reads := by
  unfold readFlow
  rw [h]

lemma readFlow_id {reads : Bool} {flow : Flow} (h : readFlow format disk id reads = .ok flow) :
    reads = true ∧ flow.id = id ∧ Readable format flow := by
  unfold readFlow at h
  split at h
  · next text htext =>
    split at h
    · cases h
    · next flow' hread =>
      split_ifs at h with hid
      cases h
      exact ⟨rfl, hid, text, hread⟩
  · cases h

lemma readFlow_put {flow : Flow} {modified : Option Nat}
    (hformat : format.read (format.write flow) = .ok flow)
    (h : disk.flows[flow.id]? = some ⟨modified, some (format.write flow)⟩) :
    readFlow format disk flow.id true = .ok flow := by
  simp [readFlow, h, hformat]

lemma get_listing {glance : Glance} (hopens : glance.opens = true) :
    (listing disk glance)[id]? = (disk.flows[id]?).bind fun file =>
      if glance.shows id then some (if glance.tells id then file.modified else none) else none := by
  rw [listing, if_pos hopens, Std.ExtTreeMap.getElem?_filterMap']

lemma reload_flows {look : Look} (h : ((listing disk look.glance).isEmpty && !look.opensAgain) = false) :
    (store.reload format disk look).2.flows[id]? =
      ((listing disk look.glance)[id]?).bind fun _ =>
        match readFlow format (disk.edit look.during) id (look.reads id) with
        | .ok flow => some flow
        | .error _ => store.flows[id]? := by
  unfold Store.reload
  dsimp only
  rw [h]
  exact Std.ExtTreeMap.getElem?_filterMap'

@[simp] lemma reload_disk (look : Look) :
    (store.reload format disk look).1 = disk.edit look.during := by
  unfold Store.reload
  dsimp only
  split <;> rfl

lemma reload_cases (format : Format) (disk : Disk) (store : Store) (look : Look) (id : RuleId) :
    (store.reload format disk look).2.flows[id]? = none ∨
      (store.reload format disk look).2.flows[id]? = store.flows[id]? ∨
      ∃ flow, readFlow format (disk.edit look.during) id true = .ok flow ∧
        (store.reload format disk look).2.flows[id]? = some flow := by
  cases hquiet : (listing disk look.glance).isEmpty && !look.opensAgain with
  | true =>
    right
    left
    unfold Store.reload
    dsimp only
    rw [hquiet]
    rfl
  | false =>
    rw [reload_flows hquiet]
    cases (listing disk look.glance)[id]? with
    | none => exact .inl rfl
    | some modified =>
      right
      rw [Option.bind_some]
      cases hread : readFlow format (disk.edit look.during) id (look.reads id) with
      | error message => exact .inl rfl
      | ok flow =>
        right
        rw [(readFlow_id hread).1] at hread
        exact ⟨flow, hread, rfl⟩

lemma listed_of_shown {look : Look} (hopens : look.glance.opens = true)
    (hshows : look.glance.shows id = true) (hfile : (disk.flows[id]?).isSome = true) :
    ∃ modified, (listing disk look.glance)[id]? = some modified ∧
      ((listing disk look.glance).isEmpty && !look.opensAgain) = false := by
  obtain ⟨file, hfile⟩ := Option.isSome_iff_exists.mp hfile
  have hlisted : (listing disk look.glance)[id]? =
      some (if look.glance.tells id then file.modified else none) := by
    rw [get_listing hopens, hfile, Option.bind_some, if_pos hshows]
  refine ⟨_, hlisted, ?_⟩
  rw [Std.ExtTreeMap.isEmpty_eq_false_iff.mpr, Bool.false_and]
  intro hempty
  rw [hempty] at hlisted
  cases hlisted

lemma reload_good {look : Look} {flow : Flow} (hopens : look.glance.opens = true)
    (hshows : look.glance.shows id = true) (hreads : look.reads id = true)
    (hfile : (disk.flows[id]?).isSome = true)
    (hread : readFlow format (disk.edit look.during) id true = .ok flow) :
    (store.reload format disk look).2.flows[id]? = some flow := by
  obtain ⟨modified, hlisted, hquiet⟩ := listed_of_shown hopens hshows hfile
  rw [reload_flows hquiet, hlisted, Option.bind_some, hreads, hread]

lemma reload_keeps {look : Look} (hopens : look.glance.opens = true)
    (hshows : look.glance.shows id = true) (hfile : (disk.flows[id]?).isSome = true)
    (hloaded : (store.flows[id]?).isSome = true) :
    ((store.reload format disk look).2.flows[id]?).isSome = true := by
  obtain ⟨modified, hlisted, hquiet⟩ := listed_of_shown hopens hshows hfile
  rw [reload_flows hquiet, hlisted, Option.bind_some]
  cases readFlow format (disk.edit look.during) id (look.reads id) with
  | error message => exact hloaded
  | ok flow => rfl

lemma poll_cases (format : Format) (disk : Disk) (store : Store) (others : Bool) (glance : Glance)
    (between : List Edit) (look : Look) :
    (listing disk glance = store.seen ∧ others = false ∧
      store.poll format disk others glance between look = (false, disk.edit between, store)) ∨
    store.poll format disk others glance between look =
      (true, store.reload format (disk.edit between) look) := by
  unfold Store.poll
  split_ifs with hquiet
  · rw [Bool.and_eq_true, Bool.not_eq_true'] at hquiet
    exact .inl ⟨of_decide_eq_true hquiet.1, hquiet.2, rfl⟩
  · exact .inr rfl

/-- Every flow that is loaded was read, and is kept under its own id. -/
def Keyed (format : Format) (store : Store) : Prop :=
  ∀ (id : RuleId) (flow : Flow), store.flows[id]? = some flow → flow.id = id ∧ Readable format flow

lemma Keyed.reload (h : Keyed format store) (look : Look) :
    Keyed format (store.reload format disk look).2 := by
  intro id flow hflow
  rcases reload_cases format disk store look id with hnone | hsame | ⟨read, hread, hloaded⟩
  · rw [hnone] at hflow
    cases hflow
  · exact h id flow (hsame.symm.trans hflow)
  · cases hloaded.symm.trans hflow
    exact (readFlow_id hread).2

@[simp] lemma keepVersion_flows {flow : Flow} {luck : VersionLuck}
    (h : disk.keepVersion env flow luck = some disk') : disk'.flows = disk.flows := by
  unfold Disk.keepVersion at h
  dsimp only at h
  split_ifs at h <;> cases h <;> rfl

/-- What a save comes to: nothing is written; the file is, and the version isn't; or the files are
read again. -/
inductive Saves (env : Env) (format : Format) (disk : Disk) (store : Store) (flow : Flow)
    (luck : SaveLuck) : Except String Unit × Disk × Store → Prop
  | unwritten (message : String)
      (hluck : luck.makesFolder = false ∨ luck.writes = none) :
      Saves env format disk store flow luck (.error message, disk.edit luck.before, store)
  | unkept (message : String) (modified : Option Nat) (hfolder : luck.makesFolder = true)
      (hwrites : luck.writes = some modified)
      (hversion : luck.version.makesFolder = false ∨ luck.version.writes = false) :
      Saves env format disk store flow luck (.error message,
        ((disk.edit luck.before).put flow.id (some ⟨modified, some (format.write flow)⟩)).edit
          luck.after, store)
  | saved (modified : Option Nat) (hfolder : luck.makesFolder = true)
      (hwrites : luck.writes = some modified) (kept : Disk)
      (hkept : kept.flows = ((disk.edit luck.before).put flow.id
        (some ⟨modified, some (format.write flow)⟩)).flows) :
      Saves env format disk store flow luck
        (.ok (), store.reload format (kept.edit luck.after) luck.look)

lemma saves (env : Env) (format : Format) (disk : Disk) (store : Store) (flow : Flow)
    (luck : SaveLuck) : Saves env format disk store flow luck
      (store.save env format disk flow luck) := by
  unfold Store.save
  cases hfolder : luck.makesFolder with
  | false => exact .unwritten _ (.inl hfolder)
  | true =>
    cases hwrites : luck.writes with
    | none => exact .unwritten _ (.inr hwrites)
    | some modified =>
      simp only [Bool.not_true, Bool.false_eq_true, if_false]
      cases hkept : ((disk.edit luck.before).put flow.id
          (some ⟨modified, some (format.write flow)⟩)).keepVersion env flow luck.version with
      | none =>
        refine .unkept _ modified hfolder hwrites ?_
        unfold Disk.keepVersion at hkept
        dsimp only at hkept
        split_ifs at hkept with hmakes _ hnot
        · exact .inl (by simpa using hmakes)
        · exact .inr (by simpa using hnot)
      | some kept => exact .saved modified hfolder hwrites kept (keepVersion_flows hkept)

end Irori.Automations
