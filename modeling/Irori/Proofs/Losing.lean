import Irori.Proofs.FlowFiles
import Irori.Proofs.Replacing

/-!
# Lost access

When a person's flow that was running, and that their rooms or their role no longer allow, is off in
its file, and stays off until somebody saves it, turns it on or edits its file.
-/

namespace Irori.Automations

/-! ### What somebody does -/

def SaveLuck.edits (luck : SaveLuck) : List Edit := luck.before ++ luck.after ++ luck.look.during

def Lucks.edits (lucks : Lucks) : List Edit := (Map.vals lucks).flatMap SaveLuck.edits

def Event.edits : Event → List Edit
  | .edited edits => edits
  | .registryChanged _ refresh luck => refresh.handsOver.edits ++ luck.turnsOff.edits
  | .polled _ _ between look refresh luck =>
    between ++ look.during ++ refresh.handsOver.edits ++ luck.turnsOff.edits
  | .asked _ => []
  | .requested _ _ save luck => save.edits ++ luck.turnsOff.edits
  | .deleted _ _ _ after look luck => after ++ look.during ++ luck.turnsOff.edits
  | .restarted look _ refresh luck => look.during ++ refresh.handsOver.edits ++ luck.turnsOff.edits

namespace World

variable (env : Env) (format : Format) (w : World)

def written : Event → List RuleId
  | .requested asker request save _ =>
    if save.makesFolder && save.writes.isSome then
      ((w.asksFor asker request).map Flow.id).toList
    else []
  | .deleted asker id removes _ _ _ =>
    if (w.whoAsks asker).1.isSome && removes then [id] else []
  | _ => []

def touched (event : Event) : List RuleId := event.edits.map Prod.fst ++ w.written event

/-! ### What is lost -/

def isLeft (event : Event) (id : RuleId) : Bool :=
  ((w.told env format event).service.store.flows[id]?).any fun flow =>
    flow.enabled && (w.told env format event).service.isGone flow

def isLost (event : Event) (id : RuleId) : Bool :=
  ((w.checked env format event).service.store.flows[id]?).any
    ((w.checked env format event).service.hasLost env)

end World

/-- What has been of each flow since somebody last saved it, turned it on or off, or edited its
file: whether it was running, as somebody's, and whether what it needs was then lost. -/
structure Story where
  ran : RuleId → Bool
  lost : RuleId → Bool

def Story.start : Story := ⟨fun _ => false, fun _ => false⟩

section

variable (env : Env) (format : Format)

def Story.next (story : Story) (w : World) (event : Event) : Story where
  ran id :=
    (!(w.touched event).contains id && story.ran id) ||
      ((w.after env format event).service.armed[id]? = some .armed &&
        ((w.after env format event).service.store.flows[id]?).any fun flow => flow.owner.isSome)
  lost id :=
    !(w.touched event).contains id &&
      (story.lost id ||
        (story.ran id && (w.isLeft env format event id || w.isLost env format event id)))

/-- A flow is off in its file, and not running. -/
def Off (w : World) (id : RuleId) : Prop :=
  (∃ flow : Flow, readFlow format w.disk id true = .ok flow ∧ flow.enabled = false) ∧
    w.service.armed[id]? ≠ some .armed

/-- What an event leaves: what was lost is off, and no other flow's file is written but that of
somebody who is gone. -/
structure Leaves (story : Story) (w : World) (event : Event) : Prop where
  off : ∀ id : RuleId, (story.next env format w event).lost id = true →
    Off format (w.after env format event) id
  spared : ∀ id : RuleId, id ∉ w.touched event →
    (w.after env format event).disk.flows[id]? ≠ w.disk.flows[id]? →
      w.isLost env format event id = true ∨ id ∈ (w.told env format event).service.gone

def OffForGood (story : Story) (w : World) : List Event → Prop
  | [] => True
  | event :: events =>
    Leaves env format story w event ∧
      OffForGood (story.next env format w event) (w.after env format event) events

/-! ### When it is -/

def SaveLuck.good (luck : SaveLuck) (id : RuleId) : Bool :=
  luck.makesFolder && luck.writes.isSome && luck.version.makesFolder && luck.version.writes &&
    luck.look.glance.opens && luck.look.glance.shows id && luck.look.reads id

/-- When an event turns off what is lost by it: a flow that was running since somebody last touched
it is still armed when it is found to lack what its owner has, or everything just starts, and then it
is turned off; or its owner is found to be gone as the flows are handed over, and it is. -/
structure Heeds (story : Story) (w : World) (event : Event) : Prop where
  lost : ∀ id : RuleId, id ∉ w.touched event → story.ran id = true →
    w.isLost env format event id = true → ∃ luck : ArmLuck, w.arms env format event = some luck ∧
      ((w.checked env format event).service.started = false ∨
        (w.checked env format event).service.armed[id]? = some .armed) ∧
      (luck.turnsOff.of id).good id = true
  left : ∀ id : RuleId, id ∉ w.touched event → story.ran id = true →
    w.isLeft env format event id = true → ∃ lucks : Lucks,
      w.refreshes format event = some lucks ∧ (lucks.of id).good id = true ∧
      ((w.told env format event).disk.flows[id]?).isSome = true ∧
      ∀ luck ∈ Map.vals lucks,
        luck.look.glance.opens = true ∧ luck.look.glance.shows id = true

def AllHeed (story : Story) (w : World) : List Event → Prop
  | [] => True
  | event :: events =>
    Heeds env format story w event ∧
      AllHeed (story.next env format w event) (w.after env format event) events

end

/-! ### One save -/

variable {env : Env} {format : Format} {w : World} {id : RuleId} {flow : Flow} {luck : SaveLuck}

structure OffHere (format : Format) (w : World) (id : RuleId) : Prop where
  file : ∃ flow : Flow, readFlow format w.disk id true = .ok flow ∧ flow.enabled = false
  loaded : ∀ flow : Flow, w.service.store.flows[id]? = some flow → flow.enabled = false

lemma OffHere.reload (h : OffHere format w id) (look : Look)
    (hedits : id ∉ look.during.map Prod.fst) :
    OffHere format { w with
      disk := (w.service.store.reload format w.disk look).1
      service := { w.service with store := (w.service.store.reload format w.disk look).2 } } id := by
  have hfile : readFlow format (w.disk.edit look.during) id true =
      readFlow format w.disk id true := readFlow_congr (edit_of_notMem _ hedits) true
  constructor
  · rw [reload_disk, hfile]
    exact h.file
  · intro flow hflow
    rcases reload_cases format w.disk w.service.store look id with
      hnone | hsame | ⟨read, hread, hloaded⟩
    · rw [hnone] at hflow
      cases hflow
    · exact h.loaded flow (hsame.symm.trans hflow)
    · cases hloaded.symm.trans hflow
      obtain ⟨other, hother, hoff⟩ := h.file
      rw [hfile, hother] at hread
      cases hread
      exact hoff

lemma notMem_edits (h : id ∉ luck.edits.map Prod.fst) :
    id ∉ luck.before.map Prod.fst ∧ id ∉ luck.after.map Prod.fst ∧
      id ∉ luck.look.during.map Prod.fst := by
  unfold SaveLuck.edits at h
  rw [List.map_append, List.map_append, List.mem_append, List.mem_append, not_or, not_or] at h
  exact ⟨h.1.1, h.1.2, h.2⟩

lemma save_of_ne (hne : flow.id ≠ id) (hedits : id ∉ luck.edits.map Prod.fst) :
    (w.save env format flow luck).2.disk.flows[id]? = w.disk.flows[id]? := by
  obtain ⟨hbefore, hafter, hduring⟩ := notMem_edits hedits
  unfold World.save
  have hsaves := saves env format w.disk w.service.store flow luck
  generalize w.service.store.save env format w.disk flow luck = outcome at hsaves
  cases hsaves with
  | unwritten message hluck => exact edit_of_notMem _ hbefore
  | unkept message modified hmakes hwrites hversion =>
    dsimp only
    rw [edit_of_notMem _ hafter, put_of_ne _ _ hne, edit_of_notMem _ hbefore]
  | saved modified hmakes hwrites kept hkept =>
    dsimp only
    rw [reload_disk, edit_of_notMem _ hduring, edit_of_notMem _ hafter, hkept, put_of_ne _ _ hne,
      edit_of_notMem _ hbefore]

lemma OffHere.save (h : OffHere format w id)
    (hoff : flow.id = id → flow.enabled = false ∧ format.read (format.write flow) = .ok flow)
    (hedits : id ∉ luck.edits.map Prod.fst) :
    OffHere format (w.save env format flow luck).2 id := by
  obtain ⟨hbefore, hafter, hduring⟩ := notMem_edits hedits
  have hedited : OffHere format { w with disk := w.disk.edit luck.before } id := by
    refine ⟨?_, h.loaded⟩
    rw [readFlow_congr (edit_of_notMem _ hbefore)]
    exact h.file
  -- Whether or not this flow's file is the one that is written, it is off in it.
  have hput : ∀ (modified : Option Nat) (disk : Disk), disk.flows =
      ((w.disk.edit luck.before).put flow.id
        (some ⟨modified, some (format.write flow)⟩)).flows →
      ∃ other : Flow, readFlow format (disk.edit luck.after) id true = .ok other ∧
        other.enabled = false := by
    intro modified disk hdisk
    have hsame : (disk.edit luck.after).flows[id]? =
        ((w.disk.edit luck.before).put flow.id
          (some ⟨modified, some (format.write flow)⟩)).flows[id]? := by
      rw [edit_of_notMem _ hafter, hdisk]
    by_cases hid : flow.id = id
    · refine ⟨flow, ?_, (hoff hid).1⟩
      rw [readFlow_congr hsame, ← hid]
      exact readFlow_put (hoff hid).2 (put_self ..)
    · rw [put_of_ne _ _ hid] at hsame
      rw [readFlow_congr hsame]
      exact hedited.file
  unfold World.save
  have hsaves := saves env format w.disk w.service.store flow luck
  generalize w.service.store.save env format w.disk flow luck = outcome at hsaves
  cases hsaves with
  | unwritten message hluck => exact hedited
  | unkept message modified hmakes hwrites hversion => exact ⟨hput modified _ rfl, h.loaded⟩
  | saved modified hmakes hwrites kept hkept =>
    have hwritten : OffHere format { w with disk := kept.edit luck.after } id :=
      ⟨hput modified kept hkept, h.loaded⟩
    exact hwritten.reload luck.look hduring

lemma offHere_save (hback : format.read (format.write flow) = .ok flow)
    (hgood : luck.good flow.id = true) (hoff : flow.enabled = false)
    (hedits : flow.id ∉ luck.edits.map Prod.fst) :
    OffHere format (w.save env format flow luck).2 flow.id := by
  obtain ⟨-, hafter, hduring⟩ := notMem_edits hedits
  simp only [SaveLuck.good, Bool.and_eq_true] at hgood
  obtain ⟨⟨⟨⟨⟨⟨hfolder, hwrites⟩, hmakes⟩, hkeeps⟩, hopens⟩, hshows⟩, hreads⟩ := hgood
  unfold World.save
  have hsaves := saves env format w.disk w.service.store flow luck
  generalize w.service.store.save env format w.disk flow luck = outcome at hsaves
  cases hsaves with
  | unwritten message hluck =>
    rcases hluck with hluck | hluck
    · rw [hfolder] at hluck
      cases hluck
    · rw [hluck] at hwrites
      cases hwrites
  | unkept message modified _ _ hversion =>
    rcases hversion with hversion | hversion
    · rw [hmakes] at hversion
      cases hversion
    · rw [hkeeps] at hversion
      cases hversion
  | saved modified _ _ kept hkept =>
    have hfile : (kept.edit luck.after).flows[flow.id]? =
        some ⟨modified, some (format.write flow)⟩ := by
      rw [edit_of_notMem _ hafter, hkept, put_self]
    have hlater : ((kept.edit luck.after).edit luck.look.during).flows[flow.id]? =
        some ⟨modified, some (format.write flow)⟩ := by
      rw [edit_of_notMem _ hduring, hfile]
    have hread := readFlow_put hback hlater
    constructor
    · dsimp only
      rw [reload_disk]
      exact ⟨flow, hread, hoff⟩
    · intro other hother
      have hloaded : (w.service.store.reload format (kept.edit luck.after) luck.look).2.flows[
          flow.id]? = some flow :=
        reload_good hopens hshows hreads (by rw [hfile]; rfl) hread
      cases hloaded.symm.trans hother
      exact hoff

lemma Keyed.save (h : Keyed format w.service.store) (flow : Flow) (luck : SaveLuck) :
    Keyed format (w.save env format flow luck).2.service.store := by
  unfold World.save
  have hsaves := saves env format w.disk w.service.store flow luck
  generalize w.service.store.save env format w.disk flow luck = outcome at hsaves
  cases hsaves with
  | unwritten message hluck => exact h
  | unkept message modified hmakes hwrites hversion => exact h
  | saved modified hmakes hwrites kept hkept => exact h.reload luck.look

lemma save_unwritten (h : (luck.makesFolder && luck.writes.isSome) = false) :
    (w.save env format flow luck).2 = { w with disk := w.disk.edit luck.before } := by
  unfold World.save
  have hsaves := saves env format w.disk w.service.store flow luck
  generalize w.service.store.save env format w.disk flow luck = outcome at hsaves
  cases hsaves with
  | unwritten message hluck => rfl
  | unkept message modified hmakes hwrites hversion =>
    rw [hmakes, hwrites] at h
    cases h
  | saved modified hmakes hwrites kept hkept =>
    rw [hmakes, hwrites] at h
    cases h

/-! ### Handing over, and turning off -/

lemma of_edits {lucks : Lucks} (h : id ∉ lucks.edits.map Prod.fst) (other : RuleId) :
    id ∉ (lucks.of other).edits.map Prod.fst := by
  unfold Lucks.of
  cases hluck : lucks[other]? with
  | none => exact List.not_mem_nil
  | some luck =>
    intro hid
    obtain ⟨edit, hedit, rfl⟩ := List.mem_map.mp hid
    exact h (List.mem_map_of_mem (List.mem_flatMap.mpr ⟨luck, Map.mem_vals.mpr ⟨other, hluck⟩, hedit⟩))

lemma save_service (w : World) (flow : Flow) (luck : SaveLuck) :
    ∃ store : Store, (w.save env format flow luck).2.service = { w.service with store } :=
  ⟨_, rfl⟩

section

variable {lucks : Lucks}

lemma handOverOne_service (w : World) (other : RuleId) (luck : SaveLuck) :
    ∃ store : Store, (w.handOverOne env format other luck).service = { w.service with store } := by
  unfold World.handOverOne
  split
  · exact ⟨w.service.store, rfl⟩
  · exact save_service w _ luck

lemma OffHere.handOverOne (hformat : ReadsBack format)
    (hkeyed : Keyed format w.service.store) (h : OffHere format w id) (other : RuleId)
    (hedits : id ∉ luck.edits.map Prod.fst) :
    OffHere format (w.handOverOne env format other luck) id := by
  unfold World.handOverOne
  split
  · exact h
  · next flow hflow =>
    exact h.save (fun _ => ⟨rfl, hformat flow (hkeyed other flow hflow).2 none false⟩) hedits

lemma Keyed.handOverOne (h : Keyed format w.service.store) (other : RuleId) (luck : SaveLuck) :
    Keyed format (w.handOverOne env format other luck).service.store := by
  unfold World.handOverOne
  split
  · exact h
  · exact h.save _ luck

lemma handOverOne_of_ne (hkeyed : Keyed format w.service.store) {other : RuleId} (hne : other ≠ id)
    (hedits : id ∉ luck.edits.map Prod.fst) :
    (w.handOverOne env format other luck).disk.flows[id]? = w.disk.flows[id]? := by
  unfold World.handOverOne
  split
  · rfl
  · next flow hflow =>
    refine save_of_ne ?_ hedits
    rw [← (hkeyed other flow hflow).1] at hne
    exact hne

lemma handOverOne_loaded {other : RuleId} (hkeyed : Keyed format w.service.store) (hne : other ≠ id)
    (hlooks : luck.look.glance.opens = true ∧ luck.look.glance.shows id = true ∨
      luck.makesFolder = false)
    (hedits : id ∉ luck.edits.map Prod.fst) (hfile : (w.disk.flows[id]?).isSome = true)
    (hloaded : (w.service.store.flows[id]?).isSome = true) :
    ((w.handOverOne env format other luck).service.store.flows[id]?).isSome = true := by
  unfold World.handOverOne
  split
  · exact hloaded
  · next flow hflow =>
    obtain ⟨hbefore, hafter, -⟩ := notMem_edits hedits
    have hid := (hkeyed other flow hflow).1
    unfold World.save
    have hsaves := saves env format w.disk w.service.store
      { flow with owner := none, enabled := false } luck
    generalize w.service.store.save env format w.disk { flow with owner := none, enabled := false }
      luck = outcome at hsaves
    cases hsaves with
    | unwritten message hluck => exact hloaded
    | unkept message modified hmakes hwrites hversion => exact hloaded
    | saved modified hmakes hwrites kept hkept =>
      rcases hlooks with ⟨hopens, hshows⟩ | hfails
      · refine reload_keeps hopens hshows ?_ hloaded
        rw [edit_of_notMem _ hafter, hkept, put_of_ne _ _ (by rw [hid]; exact hne),
          edit_of_notMem _ hbefore]
        exact hfile
      · rw [hfails] at hmakes
        cases hmakes

def World.handOverAll (env : Env) (format : Format) (lucks : Lucks) (ids : List RuleId)
    (w : World) : World :=
  ids.foldl (fun w id => w.handOverOne env format id (lucks.of id)) w

lemma handOverAll_service (ids : List RuleId) (w : World) :
    ∃ store : Store, (w.handOverAll env format lucks ids).service = { w.service with store } := by
  induction ids generalizing w with
  | nil => exact ⟨w.service.store, rfl⟩
  | cons first ids ih =>
    obtain ⟨store, hfirst⟩ : ∃ store : Store,
        (w.handOverOne env format first (lucks.of first)).service = { w.service with store } :=
      handOverOne_service w first (lucks.of first)
    obtain ⟨store', hrest⟩ := ih (w.handOverOne env format first (lucks.of first))
    exact ⟨store', by rw [World.handOverAll, List.foldl_cons]; exact hrest.trans (by rw [hfirst])⟩

lemma OffHere.handOverAll (hformat : ReadsBack format)
    (hkeyed : Keyed format w.service.store) (h : OffHere format w id) (ids : List RuleId)
    (hedits : id ∉ lucks.edits.map Prod.fst) :
    OffHere format (w.handOverAll env format lucks ids) id := by
  induction ids generalizing w with
  | nil => exact h
  | cons first ids ih =>
    exact ih (hkeyed.handOverOne first (lucks.of first))
      (h.handOverOne hformat hkeyed first (of_edits hedits first))

lemma Keyed.handOverAll (h : Keyed format w.service.store) (ids : List RuleId) :
    Keyed format (w.handOverAll env format lucks ids).service.store := by
  induction ids generalizing w with
  | nil => exact h
  | cons first ids ih => exact ih (h.handOverOne first (lucks.of first))

lemma handOverAll_of_notMem (hkeyed : Keyed format w.service.store) {ids : List RuleId} (hid : id ∉ ids)
    (hedits : id ∉ lucks.edits.map Prod.fst) :
    (w.handOverAll env format lucks ids).disk.flows[id]? = w.disk.flows[id]? := by
  induction ids generalizing w with
  | nil => rfl
  | cons first ids ih =>
    rw [List.mem_cons, not_or] at hid
    exact (ih (hkeyed.handOverOne first (lucks.of first)) hid.2).trans
      (handOverOne_of_ne hkeyed (Ne.symm hid.1) (of_edits hedits first))

lemma handOverAll_mem (hformat : ReadsBack format)
    (hkeyed : Keyed format w.service.store) {ids : List RuleId} (hid : id ∈ ids)
    (hgood : (lucks.of id).good id = true)
    (hlooks : ∀ luck ∈ Map.vals lucks,
      luck.look.glance.opens = true ∧ luck.look.glance.shows id = true)
    (hedits : id ∉ lucks.edits.map Prod.fst) (hfile : (w.disk.flows[id]?).isSome = true)
    (hloaded : (w.service.store.flows[id]?).isSome = true) :
    OffHere format (w.handOverAll env format lucks ids) id := by
  induction ids generalizing w with
  | nil => cases hid
  | cons first ids ih =>
    by_cases hfirst : first = id
    · subst hfirst
      refine OffHere.handOverAll hformat (hkeyed.handOverOne first (lucks.of first)) ?_ ids hedits
      obtain ⟨flow, hflow⟩ := Option.isSome_iff_exists.mp hloaded
      have hone : w.handOverOne env format first (lucks.of first) =
          (w.save env format { flow with owner := none, enabled := false } (lucks.of first)).2 := by
        unfold World.handOverOne
        rw [hflow]
      obtain ⟨hflowId, hreadable⟩ := hkeyed first flow hflow
      subst hflowId
      show OffHere format (w.handOverOne env format flow.id (lucks.of flow.id)) flow.id
      rw [hone]
      exact offHere_save (hformat flow hreadable none false) hgood rfl (of_edits hedits _)
    · have hluck : (lucks.of first).look.glance.opens = true ∧
          (lucks.of first).look.glance.shows id = true ∨ (lucks.of first).makesFolder = false := by
        unfold Lucks.of
        cases hget : lucks[first]? with
        | none => exact .inr rfl
        | some luck => exact .inl (hlooks luck (Map.mem_vals.mpr ⟨first, hget⟩))
      refine ih (hkeyed.handOverOne first (lucks.of first))
        ((List.mem_cons.mp hid).resolve_left (Ne.symm hfirst)) ?_ ?_
      · rw [handOverOne_of_ne hkeyed hfirst (of_edits hedits first)]
        exact hfile
      · exact handOverOne_loaded hkeyed hfirst hluck (of_edits hedits first) hfile hloaded

def World.turnOffAll (env : Env) (format : Format) (lucks : Lucks) (flows : List Flow)
    (w : World) : World :=
  flows.foldl (fun w flow => w.turnOffOne env format flow (lucks.of flow.id)) w

lemma OffHere.turnOffAll (hformat : ReadsBack format)
    (h : OffHere format w id) {flows : List Flow} (hflows : ∀ flow ∈ flows, Readable format flow)
    (hedits : id ∉ lucks.edits.map Prod.fst) :
    OffHere format (w.turnOffAll env format lucks flows) id := by
  induction flows generalizing w with
  | nil => exact h
  | cons first flows ih =>
    have hback := hformat first (hflows first List.mem_cons_self) first.owner false
    exact ih (h.save (fun _ => ⟨rfl, hback⟩) (of_edits hedits first.id)) fun flow hflow =>
      hflows flow (List.mem_cons_of_mem _ hflow)

lemma Keyed.turnOffAll (h : Keyed format w.service.store) (flows : List Flow) :
    Keyed format (w.turnOffAll env format lucks flows).service.store := by
  induction flows generalizing w with
  | nil => exact h
  | cons first flows ih => exact ih (h.save _ _)

lemma turnOffAll_of_ne {flows : List Flow} (hid : ∀ flow ∈ flows, flow.id ≠ id)
    (hedits : id ∉ lucks.edits.map Prod.fst) :
    (w.turnOffAll env format lucks flows).disk.flows[id]? = w.disk.flows[id]? := by
  induction flows generalizing w with
  | nil => rfl
  | cons first flows ih =>
    exact (ih fun flow hflow => hid flow (List.mem_cons_of_mem _ hflow)).trans
      (save_of_ne (hid first List.mem_cons_self) (of_edits hedits first.id))

lemma turnOffAll_mem (hformat : ReadsBack format)
    {flows : List Flow} (hflow : flow ∈ flows) (hflows : ∀ flow ∈ flows, Readable format flow)
    (hgood : (lucks.of flow.id).good flow.id = true)
    (hedits : flow.id ∉ lucks.edits.map Prod.fst) :
    OffHere format (w.turnOffAll env format lucks flows) flow.id := by
  induction flows generalizing w with
  | nil => cases hflow
  | cons first flows ih =>
    by_cases hfirst : first.id = flow.id
    · have hback := hformat first (hflows first List.mem_cons_self) first.owner false
      rw [← hfirst] at hgood hedits ⊢
      have hoff : OffHere format
          (w.turnOffOne env format first (lucks.of first.id)) first.id :=
        offHere_save hback hgood rfl (of_edits hedits _)
      exact hoff.turnOffAll hformat (fun other hother =>
        hflows other (List.mem_cons_of_mem _ hother)) hedits
    · exact ih ((List.mem_cons.mp hflow).resolve_left fun h => hfirst (congrArg Flow.id h.symm))
        fun flow hflow => hflows flow (List.mem_cons_of_mem _ hflow)

end

/-! ### Taking in -/

lemma learn_people (service : Service) (user : UserId) (answer : Option PersonReach) :
    ∃ people : Map UserId Standing, service.learn user answer = { service with people } := by
  cases answer with
  | none => exact ⟨_, rfl⟩
  | some reach =>
    unfold Service.learn
    dsimp only
    split_ifs
    · exact ⟨service.people, rfl⟩
    · exact ⟨_, rfl⟩

lemma learnAll_people (service : Service) (answers : UserId → Option PersonReach) :
    ∃ people : Map UserId Standing, service.learnAll answers = { service with people } := by
  unfold Service.learnAll
  generalize service.asksAbout = users
  induction users generalizing service with
  | nil => exact ⟨service.people, rfl⟩
  | cons user users ih =>
    obtain ⟨people, hfirst⟩ := learn_people service user (answers user)
    obtain ⟨people', hrest⟩ := ih (service.learn user (answers user))
    exact ⟨people', by rw [List.foldl_cons, hrest, hfirst]⟩

lemma whoAsks_people (w : World) (asker : Asker) :
    ∃ people : Map UserId Standing,
      (w.whoAsks asker).2 = { w with service := { w.service with people } } := by
  cases asker with
  | owner => exact ⟨w.service.people, rfl⟩
  | user user answer =>
    obtain ⟨people, hpeople⟩ := learn_people w.service user answer
    refine ⟨people, ?_⟩
    unfold World.whoAsks
    dsimp only
    rw [hpeople]

/-- What is left of a flow by what doesn't touch it. -/
structure Untouched (format : Format) (w w' : World) (id : RuleId) : Prop where
  file : w'.disk.flows[id]? = w.disk.flows[id]?
  off : OffHere format w id → OffHere format w' id

lemma Untouched.trans {w' w'' : World} (h : Untouched format w w' id)
    (h' : Untouched format w' w'' id) : Untouched format w w'' id :=
  ⟨h'.file.trans h.file, fun hoff => h'.off (h.off hoff)⟩

lemma untouched_of_same {w' : World} (hdisk : w'.disk = w.disk)
    (hstore : w'.service.store = w.service.store) : Untouched format w w' id := by
  refine ⟨by rw [hdisk], fun hoff => ⟨?_, ?_⟩⟩
  · rw [hdisk]
    exact hoff.file
  · rw [hstore]
    exact hoff.loaded

lemma untouched_edit (w : World) {edits : List Edit} (hedits : id ∉ edits.map Prod.fst) :
    Untouched format w { w with disk := w.disk.edit edits } id := by
  have hfile : (w.disk.edit edits).flows[id]? = w.disk.flows[id]? := edit_of_notMem edits hedits
  refine ⟨hfile, fun hoff => ⟨?_, hoff.loaded⟩⟩
  rw [readFlow_congr hfile]
  exact hoff.file

lemma untouched_reload (w : World) {look : Look} (hedits : id ∉ look.during.map Prod.fst) :
    Untouched format w { w with
      disk := (w.service.store.reload format w.disk look).1
      service := { w.service with store := (w.service.store.reload format w.disk look).2 } } id := by
  refine ⟨?_, fun hoff => hoff.reload look hedits⟩
  rw [reload_disk]
  exact edit_of_notMem _ hedits

lemma untouched_unloaded (w : World) (store : Store) (hstore : store.flows = ∅) :
    Untouched format w { w with service := { w.service with store } } id := by
  refine ⟨rfl, fun hoff => ⟨hoff.file, fun flow hflow => ?_⟩⟩
  dsimp only at hflow
  rw [hstore] at hflow
  cases hflow

lemma untouched_save (hwritten : (luck.makesFolder && luck.writes.isSome) = true → flow.id ≠ id)
    (hedits : id ∉ luck.edits.map Prod.fst) :
    Untouched format w (w.save env format flow luck).2 id := by
  cases hreaches : luck.makesFolder && luck.writes.isSome with
  | false =>
    rw [save_unwritten hreaches]
    exact untouched_edit w (notMem_edits hedits).1
  | true =>
    have hne := hwritten hreaches
    exact ⟨save_of_ne hne hedits, fun hoff => hoff.save (fun h => absurd h hne) hedits⟩

lemma untouched_whoAsks (w : World) (asker : Asker) :
    Untouched format w (w.whoAsks asker).2 id := by
  obtain ⟨people, hpeople⟩ := whoAsks_people w asker
  rw [hpeople]
  exact untouched_of_same rfl rfl

lemma untouched_learnAll (w : World) (refresh : Refresh) :
    Untouched format w (w.learnAll refresh) id := by
  obtain ⟨people, hpeople⟩ := learnAll_people w.service refresh.answers
  refine untouched_of_same rfl ?_
  unfold World.learnAll
  rw [hpeople]

lemma told_untouched (env : Env) (format : Format) {event : Event} (hid : id ∉ w.touched event) :
    Untouched format w (w.told env format event) id := by
  unfold World.touched at hid
  rw [List.mem_append, not_or] at hid
  obtain ⟨hedits, hwritten⟩ := hid
  unfold World.told
  cases event with
  | edited edits => exact untouched_edit w hedits
  | registryChanged registry refresh luck =>
    cases registry with
    | none => exact untouched_of_same rfl rfl
    | some registry =>
      have hsame : Untouched format w { w with service := { w.service with
          registry, homeWas := w.service.homeWas + 1 } } id := untouched_of_same rfl rfl
      exact hsame.trans (untouched_learnAll _ refresh)
  | polled others glance between look refresh luck =>
    simp only [Event.edits, List.map_append, List.mem_append, not_or] at hedits
    have hbetween : Untouched format w { w with disk := w.disk.edit between } id :=
      untouched_edit w hedits.1.1.1
    dsimp only
    rcases poll_cases format w.disk w.service.store others glance between look with
      ⟨-, -, hpoll⟩ | hpoll
    · rw [hpoll]
      exact hbetween
    · rw [hpoll, if_pos rfl]
      exact (hbetween.trans (untouched_reload { w with disk := w.disk.edit between }
        hedits.1.1.2)).trans (untouched_learnAll _ refresh)
  | asked asker => exact untouched_whoAsks w asker
  | requested asker request save luck =>
    simp only [Event.edits, List.map_append, List.mem_append, not_or] at hedits
    have hwho : Untouched format w (w.whoAsks asker).2 id := untouched_whoAsks w asker
    dsimp only
    cases hasked : w.asksFor asker request with
    | none => exact hwho
    | some flow =>
      refine hwho.trans (untouched_save (fun hreaches hsame => hwritten ?_) hedits.1)
      dsimp only [World.written]
      rw [if_pos hreaches, hasked, ← hsame]
      exact List.mem_singleton_self flow.id
  | deleted asker other removes after look luck =>
    simp only [Event.edits, List.map_append, List.mem_append, not_or] at hedits
    have hwho : Untouched format w (w.whoAsks asker).2 id := untouched_whoAsks w asker
    dsimp only [Store.delete]
    cases hmay : (w.whoAsks asker).1.isSome with
    | false => exact hwho
    | true =>
      cases removes with
      | false => exact hwho
      | true =>
        have hother : other ≠ id := by
          intro hother
          refine hwritten ?_
          dsimp only [World.written]
          rw [hmay, ← hother]
          exact List.mem_singleton_self other
        have hput : Untouched format (w.whoAsks asker).2 { (w.whoAsks asker).2 with
            disk := (w.whoAsks asker).2.disk.put other none } id := by
          have hfile := put_of_ne (w.whoAsks asker).2.disk none hother
          refine ⟨hfile, fun hoff => ⟨?_, hoff.loaded⟩⟩
          rw [readFlow_congr hfile]
          exact hoff.file
        exact ((hwho.trans hput).trans (untouched_edit _ hedits.1.1)).trans
          (untouched_reload _ hedits.1.2)
  | restarted look registry refresh luck =>
    simp only [Event.edits, List.map_append, List.mem_append, not_or] at hedits
    have hempty : Untouched format w { w with service := { w.service with
        store := ⟨w.service.store.flowsDir, ∅, [], ∅⟩ } } id :=
      untouched_unloaded w _ rfl
    have hopened : Untouched format w
        { disk := (Store.open_ format w.service.store.flowsDir w.disk look).1
          service := ⟨(Store.open_ format w.service.store.flowsDir w.disk look).2, registry, 0, ∅,
            false, ∅⟩ } id :=
      (hempty.trans (untouched_reload _ hedits.1.1)).trans (untouched_of_same rfl rfl)
    exact hopened.trans (untouched_learnAll _ refresh)

lemma told_keyed (env : Env) (format : Format) (event : Event) (hkeyed : Keyed format w.service.store) :
    Keyed format (w.told env format event).service.store := by
  have hlearn : ∀ (w : World) (refresh : Refresh),
      (w.learnAll refresh).service.store = w.service.store := by
    intro w refresh
    obtain ⟨people, hpeople⟩ := learnAll_people w.service refresh.answers
    unfold World.learnAll
    rw [hpeople]
  have hwho : ∀ asker : Asker, Keyed format (w.whoAsks asker).2.service.store := by
    intro asker
    obtain ⟨people, hpeople⟩ := whoAsks_people w asker
    rw [hpeople]
    exact hkeyed
  unfold World.told
  cases event with
  | edited edits => exact hkeyed
  | registryChanged registry refresh luck =>
    cases registry with
    | none => exact hkeyed
    | some registry =>
      dsimp only
      rw [hlearn]
      exact hkeyed
  | polled others glance between look refresh luck =>
    dsimp only
    rcases poll_cases format w.disk w.service.store others glance between look with
      ⟨-, -, hpoll⟩ | hpoll
    · rw [hpoll]
      exact hkeyed
    · rw [hpoll, if_pos rfl, hlearn]
      exact hkeyed.reload look
  | asked asker => exact hwho asker
  | requested asker request save luck =>
    dsimp only
    split
    · exact (hwho asker).save _ save
    · exact hwho asker
  | deleted asker other removes after look luck =>
    dsimp only [Store.delete]
    split_ifs
    · exact hwho asker
    · exact (hwho asker).reload look
    · exact hwho asker
  | restarted look registry refresh luck =>
    dsimp only
    rw [hlearn]
    exact Keyed.reload (fun id flow hflow => by cases hflow) look

/-- What the engine has been told of a flow doesn't change before the flows are armed, but that it
knows of none as everything starts again. -/
lemma told_armed (w : World) (event : Event)
    (h : w.service.armed[id]? ≠ some Armed.armed) :
    (w.told env format event).service.armed[id]? ≠ some Armed.armed := by
  have hwho : ∀ asker : Asker, (w.whoAsks asker).2.service.armed = w.service.armed := by
    intro asker
    obtain ⟨people, hpeople⟩ := whoAsks_people w asker
    rw [hpeople]
  have hlearn : ∀ (w : World) (refresh : Refresh),
      (w.learnAll refresh).service.armed = w.service.armed := by
    intro w refresh
    obtain ⟨people, hpeople⟩ := learnAll_people w.service refresh.answers
    unfold World.learnAll
    rw [hpeople]
  unfold World.told
  cases event with
  | edited edits => exact h
  | registryChanged registry refresh luck =>
    cases registry with
    | none => exact h
    | some registry =>
      dsimp only
      rw [hlearn]
      exact h
  | polled others glance between look refresh luck =>
    dsimp only
    split_ifs
    · rw [hlearn]
      exact h
    · exact h
  | asked asker =>
    dsimp only
    rw [hwho]
    exact h
  | requested asker request save luck =>
    dsimp only
    split
    · show (w.whoAsks asker).2.service.armed[id]? ≠ _
      rw [hwho]
      exact h
    · rw [hwho]
      exact h
  | deleted asker other removes after look luck =>
    dsimp only
    split_ifs
    · dsimp only
      rw [hwho]
      exact h
    · rw [hwho]
      exact h
  | restarted look registry refresh luck =>
    dsimp only
    rw [hlearn]
    exact fun hnone => nomatch hnone

/-! ### One event -/

lemma arms_of_refreshes {event : Event} {lucks : Lucks}
    (h : w.refreshes format event = some lucks) :
    ∃ luck, w.arms env format event = some luck := by
  cases event with
  | registryChanged registry refresh luck =>
    cases registry with
    | none => cases h
    | some registry => exact ⟨luck, rfl⟩
  | polled others glance between look refresh luck =>
    dsimp only [World.refreshes] at h
    split_ifs at h with hpolled
    exact ⟨luck, if_pos hpolled⟩
  | restarted look registry refresh luck => exact ⟨luck, rfl⟩
  | edited edits => cases h
  | asked asker => cases h
  | requested asker request save luck => cases h
  | deleted asker other removes after look luck => cases h

lemma refreshes_edits {event : Event} {lucks : Lucks} (h : w.refreshes format event = some lucks)
    (hid : id ∉ event.edits.map Prod.fst) : id ∉ lucks.edits.map Prod.fst := by
  cases event with
  | registryChanged registry refresh luck =>
    cases registry with
    | none => cases h
    | some registry =>
      cases h
      simp only [Event.edits, List.map_append, List.mem_append, not_or] at hid
      exact hid.1
  | polled others glance between look refresh luck =>
    dsimp only [World.refreshes] at h
    split_ifs at h
    cases h
    simp only [Event.edits, List.map_append, List.mem_append, not_or] at hid
    exact hid.1.2
  | restarted look registry refresh luck =>
    cases h
    simp only [Event.edits, List.map_append, List.mem_append, not_or] at hid
    exact hid.1.2
  | edited edits => cases h
  | asked asker => cases h
  | requested asker request save luck => cases h
  | deleted asker other removes after look luck => cases h

lemma arms_edits {event : Event} {luck : ArmLuck} (h : w.arms env format event = some luck)
    (hid : id ∉ event.edits.map Prod.fst) : id ∉ luck.turnsOff.edits.map Prod.fst := by
  cases event with
  | registryChanged registry refresh luck' =>
    cases registry with
    | none => cases h
    | some registry =>
      cases h
      simp only [Event.edits, List.map_append, List.mem_append, not_or] at hid
      exact hid.2
  | polled others glance between look refresh luck' =>
    dsimp only [World.arms] at h
    split_ifs at h
    cases h
    simp only [Event.edits, List.map_append, List.mem_append, not_or] at hid
    exact hid.2
  | restarted look registry refresh luck' =>
    cases h
    simp only [Event.edits, List.map_append, List.mem_append, not_or] at hid
    exact hid.2
  | requested asker request save luck' =>
    dsimp only [World.arms] at h
    split_ifs at h
    cases h
    simp only [Event.edits, List.map_append, List.mem_append, not_or] at hid
    exact hid.2
  | deleted asker other removes after look luck' =>
    dsimp only [World.arms] at h
    split_ifs at h
    cases h
    simp only [Event.edits, List.map_append, List.mem_append, not_or] at hid
    exact hid.2
  | edited edits => cases h
  | asked asker => cases h

lemma armed_flows (env : Env) (format : Format) (w : World) (luck : ArmLuck) : ∃ disk : Disk, disk.flows = w.disk.flows ∧
    w.arm env format luck = (({ w with disk } : World).turnOffAll env format luck.turnsOff
      (w.service.toTurnOff env)).handOn env := by
  have hkept : ∀ (flows : List Flow) (disk : Disk), (flows.foldl (fun disk flow =>
      (disk.keepVersion env flow (luck.versions flow.id)).getD disk) disk).flows = disk.flows := by
    intro flows
    induction flows with
    | nil => exact fun _ => rfl
    | cons flow flows ih =>
      intro disk
      rw [List.foldl_cons, ih]
      cases hkeep : disk.keepVersion env flow (luck.versions flow.id) with
      | none => rfl
      | some kept => exact keepVersion_flows hkeep
  exact ⟨_, hkept (Map.vals w.service.store.flows) w.disk, rfl⟩

lemma notArmed_of_off (h : OffHere format w id) :
    (w.handOn env).service.armed[id]? ≠ some Armed.armed := by
  unfold World.handOn
  dsimp only
  rw [Std.ExtTreeMap.getElem?_map]
  intro harmed
  obtain ⟨flow, hflow, hhanded⟩ := Option.map_eq_some_iff.mp harmed
  unfold Engine.armedOf at hhanded
  rw [h.loaded flow hflow] at hhanded
  cases hhanded

/-- What has been lost of the flows so far, and is off. -/
structure Settled (format : Format) (story : Story) (w : World) : Prop where
  keyed : Keyed format w.service.store
  off : ∀ id : RuleId, story.lost id = true →
    OffHere format w id ∧ w.service.armed[id]? ≠ some Armed.armed

variable {story : Story} {event : Event}

lemma checked_cases (env : Env) (format : Format) (w : World) (event : Event) :
    (w.refreshes format event = none ∧ w.checked env format event = w.told env format event) ∨
    ∃ lucks, w.refreshes format event = some lucks ∧
      w.checked env format event = (w.told env format event).handOverAll env format lucks
        (w.told env format event).service.gone := by
  unfold World.checked
  cases hrefreshes : w.refreshes format event with
  | none => exact .inl ⟨rfl, rfl⟩
  | some lucks => exact .inr ⟨lucks, rfl, rfl⟩

lemma checked_off (hformat : ReadsBack format) (hkeyed : Keyed format w.service.store)
    (hid : id ∉ w.touched event) (h : OffHere format w id) :
    OffHere format (w.checked env format event) id := by
  have htold := (told_untouched env format hid).off h
  have hedits : id ∉ event.edits.map Prod.fst := fun hmem =>
    hid (List.mem_append_left _ hmem)
  rcases checked_cases env format w event with
    ⟨-, hchecked⟩ | ⟨lucks, hrefreshes, hchecked⟩
  · rw [hchecked]
    exact htold
  · rw [hchecked]
    exact htold.handOverAll hformat (told_keyed env format event hkeyed) _
      (refreshes_edits hrefreshes hedits)

lemma checked_armed (w : World) (event : Event) (h : w.service.armed[id]? ≠ some Armed.armed) :
    (w.checked env format event).service.armed[id]? ≠ some Armed.armed := by
  have htold : (w.told env format event).service.armed[id]? ≠ some Armed.armed :=
    told_armed w event h
  rcases checked_cases env format w event with ⟨-, hchecked⟩ | ⟨lucks, -, hchecked⟩
  · rw [hchecked]
    exact htold
  · rw [hchecked]
    obtain ⟨store, hstore⟩ : ∃ store : Store, ((w.told env format event).handOverAll env format
        lucks (w.told env format event).service.gone).service =
          { (w.told env format event).service with store } := handOverAll_service _ _
    rw [hstore]
    exact htold

lemma checked_keyed (hkeyed : Keyed format (w.told env format event).service.store) :
    Keyed format (w.checked env format event).service.store := by
  rcases checked_cases env format w event with ⟨-, hchecked⟩ | ⟨lucks, -, hchecked⟩
  · rw [hchecked]
    exact hkeyed
  · rw [hchecked]
    exact hkeyed.handOverAll _

lemma readable_toTurnOff {service : Service} (hkeyed : Keyed format service.store) :
    ∀ flow ∈ service.toTurnOff env, Readable format flow := by
  intro flow hflow
  unfold Service.toTurnOff at hflow
  rw [List.mem_filter] at hflow
  obtain ⟨other, hother⟩ := Map.mem_vals.mp hflow.1
  exact (hkeyed other flow hother).2

/-- A flow that is off once everything is handed over is off after, and isn't running if the flows
are armed. -/
lemma after_off (hformat : ReadsBack format) (hkeyed : Keyed format w.service.store)
    (hid : id ∉ w.touched event) (h : OffHere format (w.checked env format event) id)
    (harmed : w.arms env format event = none →
      (w.checked env format event).service.armed[id]? ≠ some Armed.armed) :
    OffHere format (w.after env format event) id ∧
      (w.after env format event).service.armed[id]? ≠ some Armed.armed := by
  have hedits : id ∉ event.edits.map Prod.fst := fun hmem =>
    hid (List.mem_append_left _ hmem)
  unfold World.after
  cases harms : w.arms env format event with
  | none => exact ⟨h, harmed harms⟩
  | some luck =>
    obtain ⟨disk, hdisk, harm⟩ := armed_flows env format (w.checked env format event) luck
    dsimp only
    rw [harm]
    have hstart : OffHere format { w.checked env format event with disk } id := by
      have hfile : disk.flows[id]? = (w.checked env format event).disk.flows[id]? := by rw [hdisk]
      refine ⟨?_, h.loaded⟩
      rw [readFlow_congr hfile]
      exact h.file
    have hoff : OffHere format (({ w.checked env format event with disk } : World).turnOffAll env
        format luck.turnsOff ((w.checked env format event).service.toTurnOff env)) id :=
      hstart.turnOffAll hformat
        (readable_toTurnOff (checked_keyed (told_keyed env format event hkeyed)))
        (arms_edits harms hedits)
    exact ⟨⟨hoff.file, hoff.loaded⟩, notArmed_of_off hoff⟩

lemma after_turnedOff (hformat : ReadsBack format) (hkeyed : Keyed format w.service.store)
    (hid : flow.id ∉ w.touched event) {luck : ArmLuck}
    (harms : w.arms env format event = some luck)
    (hflow : flow ∈ (w.checked env format event).service.toTurnOff env)
    (hgood : (luck.turnsOff.of flow.id).good flow.id = true) :
    OffHere format (w.after env format event) flow.id ∧
      (w.after env format event).service.armed[flow.id]? ≠ some Armed.armed := by
  have hedits : flow.id ∉ event.edits.map Prod.fst := fun hmem =>
    hid (List.mem_append_left _ hmem)
  obtain ⟨disk, hdisk, harm⟩ := armed_flows env format (w.checked env format event) luck
  unfold World.after
  rw [harms]
  dsimp only
  rw [harm]
  have hoff : OffHere format (({ w.checked env format event with disk } : World).turnOffAll env
      format luck.turnsOff ((w.checked env format event).service.toTurnOff env)) flow.id :=
    turnOffAll_mem hformat hflow
      (readable_toTurnOff (checked_keyed (told_keyed env format event hkeyed))) hgood
      (arms_edits harms hedits)
  exact ⟨⟨hoff.file, hoff.loaded⟩, notArmed_of_off hoff⟩

lemma mem_gone {service : Service} (hflow : service.store.flows[id]? = some flow) :
    id ∈ service.gone ↔ service.isGone flow = true := by
  unfold Service.gone
  rw [List.mem_filterMap]
  constructor
  · rintro ⟨⟨other, flow'⟩, hmem, hgone⟩
    dsimp only at hgone
    split_ifs at hgone with hisGone
    cases hgone
    rw [Std.ExtTreeMap.mem_toList_iff_getElem?_eq_some] at hmem
    cases hflow.symm.trans hmem
    exact hisGone
  · intro hgone
    exact ⟨(id, flow), Std.ExtTreeMap.mem_toList_iff_getElem?_eq_some.mpr hflow, if_pos hgone⟩

lemma lost_off (hformat : ReadsBack format)
    (hsettled : Settled format story w) (hheeds : Heeds env format story w event)
    (hlost : (story.next env format w event).lost id = true) :
    OffHere format (w.after env format event) id ∧
      (w.after env format event).service.armed[id]? ≠ some Armed.armed := by
  simp only [Story.next, Bool.and_eq_true, Bool.not_eq_true', Bool.or_eq_true] at hlost
  obtain ⟨huntouched, hlost⟩ := hlost
  have hid : id ∉ w.touched event := by
    intro hmem
    rw [List.contains_iff_mem.mpr hmem] at huntouched
    cases huntouched
  have htold := told_untouched env format hid
  rcases hlost with hlost | ⟨hran, hleft | hlost⟩
  · obtain ⟨hoff, hnot⟩ := hsettled.off id hlost
    exact after_off hformat hsettled.keyed hid (checked_off hformat hsettled.keyed hid hoff)
      fun _ => checked_armed w event hnot
  · obtain ⟨lucks, hrefreshes, hgood, hfile, hlooks⟩ := hheeds.left id hid hran hleft
    obtain ⟨flow, hflow, hgone⟩ := (Option.any_eq_true _ _).mp hleft
    rw [Bool.and_eq_true] at hgone
    have hchecked : OffHere format (w.checked env format event) id := by
      unfold World.checked
      rw [hrefreshes]
      exact handOverAll_mem hformat (told_keyed env format event hsettled.keyed) ((mem_gone hflow).mpr hgone.2) hgood
        hlooks (refreshes_edits hrefreshes fun hmem => hid (List.mem_append_left _ hmem)) hfile
        (by rw [hflow]; rfl)
    obtain ⟨luck, harms⟩ : ∃ luck, w.arms env format event = some luck := arms_of_refreshes hrefreshes
    refine after_off hformat hsettled.keyed hid hchecked fun hnone => ?_
    rw [harms] at hnone
    cases hnone
  · obtain ⟨luck, harms, harmed, hgood⟩ := hheeds.lost id hid hran hlost
    obtain ⟨flow, hflow, hhasLost⟩ := (Option.any_eq_true _ _).mp hlost
    obtain ⟨hflowId, -⟩ := checked_keyed (told_keyed env format event hsettled.keyed) id flow hflow
    subst hflowId
    refine after_turnedOff hformat hsettled.keyed hid harms ?_ hgood
    unfold Service.toTurnOff
    rw [List.mem_filter, hhasLost, Bool.true_and, Bool.or_eq_true, Bool.not_eq_true',
      decide_eq_true_eq]
    exact ⟨Map.mem_vals.mpr ⟨flow.id, hflow⟩, harmed⟩

lemma after_keyed (env : Env) (format : Format) (event : Event) (hkeyed : Keyed format w.service.store) :
    Keyed format (w.after env format event).service.store := by
  have hchecked : Keyed format (w.checked env format event).service.store :=
    checked_keyed (told_keyed env format event hkeyed)
  unfold World.after
  cases w.arms env format event with
  | none => exact hchecked
  | some luck =>
    obtain ⟨disk, -, harm⟩ := armed_flows env format (w.checked env format event) luck
    dsimp only
    rw [harm]
    have hstart : Keyed format ({ w.checked env format event with disk } : World).service.store := hchecked
    exact hstart.turnOffAll _

lemma spared (hsettled : Settled format story w) (hid : id ∉ w.touched event)
    (hchanged : (w.after env format event).disk.flows[id]? ≠ w.disk.flows[id]?) :
    w.isLost env format event id = true ∨ id ∈ (w.told env format event).service.gone := by
  have htold := told_untouched env format hid
  have hedits : id ∉ event.edits.map Prod.fst := fun hmem =>
    hid (List.mem_append_left _ hmem)
  have hkeyed := told_keyed env format event hsettled.keyed
  by_contra hnot
  rw [not_or] at hnot
  refine hchanged ?_
  have hchecked : (w.checked env format event).disk.flows[id]? = w.disk.flows[id]? := by
    rcases checked_cases env format w event with ⟨-, hchecked⟩ | ⟨lucks, hrefreshes, hchecked⟩
    · rw [hchecked]
      exact htold.file
    · rw [hchecked, handOverAll_of_notMem hkeyed hnot.2 (refreshes_edits hrefreshes hedits)]
      exact htold.file
  unfold World.after
  cases harms : w.arms env format event with
  | none => exact hchecked
  | some luck =>
    obtain ⟨disk, hdisk, harm⟩ := armed_flows env format (w.checked env format event) luck
    dsimp only
    rw [harm]
    show (({ w.checked env format event with disk } : World).turnOffAll env format luck.turnsOff
      ((w.checked env format event).service.toTurnOff env)).disk.flows[id]? = _
    rw [turnOffAll_of_ne (fun flow hflow hsame => hnot.1 ?_) (arms_edits harms hedits)]
    · dsimp only
      rw [hdisk]
      exact hchecked
    · unfold Service.toTurnOff at hflow
      rw [List.mem_filter, Bool.and_eq_true] at hflow
      obtain ⟨other, hother⟩ := Map.mem_vals.mp hflow.1
      obtain ⟨hotherId, -⟩ := checked_keyed hkeyed other flow hother
      unfold World.isLost
      rw [← hsame, hotherId, hother, Option.any_some]
      exact hflow.2.1

lemma leaves_of_heeds (hformat : ReadsBack format)
    (hsettled : Settled format story w) (hheeds : Heeds env format story w event) :
    Leaves env format story w event ∧
      Settled format (story.next env format w event) (w.after env format event) := by
  refine ⟨⟨fun id hlost => ?_, fun id hid hchanged => spared hsettled hid hchanged⟩,
    after_keyed env format event hsettled.keyed, fun id hlost => lost_off hformat hsettled hheeds hlost⟩
  obtain ⟨hoff, hnot⟩ := lost_off hformat hsettled hheeds hlost
  exact ⟨hoff.file, hnot⟩

/-! ### A run -/

lemma offForGood_of_settled (hformat : ReadsBack format)
    (events : List Event) (hsettled : Settled format story w)
    (hheeds : AllHeed env format story w events) : OffForGood env format story w events := by
  induction events generalizing story w with
  | nil => trivial
  | cons event events ih =>
    obtain ⟨hleaves, hnext⟩ := leaves_of_heeds hformat hsettled hheeds.1
    exact ⟨hleaves, ih hnext hheeds.2⟩

def World.stopped (flowsDir : String) (disk : Disk) (registry : RegistryView) : World :=
  ⟨disk, ⟨⟨flowsDir, ∅, [], ∅⟩, registry, 0, ∅, false, ∅⟩⟩

/-- Lost access is off for good in every run whose events each turn off what is lost by them. -/
theorem offForGood_of_heeded (env : Env) (format : Format)
    (hformat : ReadsBack format) (flowsDir : String)
    (disk : Disk) (registry : RegistryView) (events : List Event)
    (h : AllHeed env format .start (.stopped flowsDir disk registry) events) :
    OffForGood env format .start (.stopped flowsDir disk registry) events := by
  refine offForGood_of_settled hformat events ⟨fun id flow hflow => ?_, fun id hlost => ?_⟩ h
  · cases hflow
  · cases hlost

/-! ### Ann's flow -/

def ann : UserId := ⟨"ann", by decide⟩

def watching : Flow :=
  { Sample.flow (.named .single)
      [(Sample.started, .trigger (.state Sample.lux none none (some (.one (.number 5))) none none none))]
      [] with
    owner := some ann }

def watchingFormat : Format where
  read text :=
    match text.toList with
    | '+' :: owner =>
      .ok { watching with
        owner := (Slug.parse "user id" (String.ofList owner)).toOption, enabled := true }
    | '-' :: owner =>
      .ok { watching with
        owner := (Slug.parse "user id" (String.ofList owner)).toOption, enabled := false }
    | _ => .error "not a flow"
  write flow := (if flow.enabled then "+" else "-") ++ ((flow.owner.map Slug.text).getD "")

def watchingDisk : Disk := ⟨Std.ExtTreeMap.ofList [(watching.id, ⟨some 1, some "+ann"⟩)] compare, ∅⟩

def meterHome : RegistryView := Sample.registry [Sample.meter]

def reachOf (reaches : Bool) : PersonReach :=
  ⟨true, "Ann", false, some (if reaches then [Sample.lux] else [])⟩

def openLook : Look := ⟨⟨true, fun _ => true, fun _ => true⟩, true, [], fun _ => true⟩

def goodSave : SaveLuck := ⟨[], true, some (some 2), ⟨true, true⟩, [], openLook⟩

def goodArm : ArmLuck :=
  ⟨fun _ => ⟨true, true⟩, Std.ExtTreeMap.ofList [(watching.id, goodSave)] compare⟩

def starts : Event := .restarted openLook meterHome ⟨fun _ => some (reachOf true), ∅⟩ goodArm

def changes (answer : Option PersonReach) : Event :=
  .registryChanged (some meterHome) ⟨fun _ => answer, ∅⟩ goodArm

/-- Ann loses the light meter and gets it back; the core is asked about her each time, or can't say
once in between. -/
def losing : List Event := [starts, changes (some (reachOf false)), changes (some (reachOf true))]

def losingUnheard : List Event := [starts, changes none, changes (some (reachOf false))]

lemma parse_text (what : String) (slug : Slug what) : Slug.parse what slug.text = .ok slug := by
  unfold Slug.parse
  split
  · rfl
  · next error herror =>
    rw [slug.wellFormed] at herror
    cases herror

lemma readsBack_watching : ReadsBack watchingFormat := by
  rintro flow ⟨text, htext⟩ owner enabled
  have hflow : ({ flow with owner, enabled } : Flow) = { watching with owner, enabled } := by
    unfold watchingFormat at htext
    dsimp only at htext
    split at htext <;> cases htext <;> rfl
  have howner : (Slug.parse "user id" ((owner.map Slug.text).getD "")).toOption = owner := by
    cases owner with
    | none => decide
    | some owner =>
      rw [Option.map_some, Option.getD_some, parse_text]
      rfl
  rw [hflow]
  cases enabled with
  | true => simp [watchingFormat, howner]
  | false => simp [watchingFormat, howner]

lemma eq_watching {w : World} (hkeys : w.service.store.flows.keys = [watching.id])
    {p : Flow → Bool} (h : (w.service.store.flows[id]?).any p = true) : id = watching.id := by
  obtain ⟨flow, hflow, -⟩ := (Option.any_eq_true _ _).mp h
  have hmem : id ∈ w.service.store.flows.keys :=
    Std.ExtTreeMap.mem_keys.mpr (Std.ExtTreeMap.mem_iff_isSome_getElem?.mpr (by rw [hflow]; rfl))
  rw [hkeys] at hmem
  exact List.mem_singleton.mp hmem

def stoppedHome : World := .stopped "flows" watchingDisk meterHome

def startedHome : World := stoppedHome.after (Sample.env []) watchingFormat starts

def startedStory : Story := Story.start.next (Sample.env []) watchingFormat stoppedHome starts

def lostHome : World :=
  startedHome.after (Sample.env []) watchingFormat (changes (some (reachOf false)))

lemma losing_goes :
    (startedStory.next (Sample.env []) watchingFormat startedHome
        (changes (some (reachOf false)))).lost watching.id = true ∧
    ((startedHome.told (Sample.env []) watchingFormat
        (changes (some (reachOf false)))).service.store.flows.keys = [watching.id] ∧
      (startedHome.checked (Sample.env []) watchingFormat
        (changes (some (reachOf false)))).service.store.flows.keys = [watching.id] ∧
      (startedHome.checked (Sample.env []) watchingFormat
        (changes (some (reachOf false)))).service.armed[watching.id]? = some Armed.armed ∧
      startedHome.isLeft (Sample.env []) watchingFormat (changes (some (reachOf false)))
        watching.id = false) ∧
    ((lostHome.told (Sample.env []) watchingFormat
        (changes (some (reachOf true)))).service.store.flows.keys = [watching.id] ∧
      (lostHome.checked (Sample.env []) watchingFormat
        (changes (some (reachOf true)))).service.store.flows.keys = [watching.id] ∧
      lostHome.isLost (Sample.env []) watchingFormat (changes (some (reachOf true)))
        watching.id = false ∧
      lostHome.isLeft (Sample.env []) watchingFormat (changes (some (reachOf true)))
        watching.id = false) := by
  decide +kernel

/-- Ann's flow was running as it lost the light meter, and is off after. -/
theorem offForGood_losing :
    (startedStory.next (Sample.env []) watchingFormat startedHome
        (changes (some (reachOf false)))).lost watching.id = true ∧
      OffForGood (Sample.env []) watchingFormat .start (.stopped "flows" watchingDisk meterHome)
        losing := by
  obtain ⟨hlost, ⟨htold, hchecked, harmed, hhere⟩, htold', hchecked', hback, hhere'⟩ := losing_goes
  refine ⟨hlost, offForGood_of_heeded (Sample.env []) watchingFormat
    readsBack_watching "flows" watchingDisk meterHome losing ⟨⟨?_, ?_⟩, ⟨?_, ?_⟩, ⟨?_, ?_⟩, trivial⟩⟩
  · intro id _ hran
    cases hran
  · intro id _ hran
    cases hran
  · intro id _ _ hlost
    cases eq_watching hchecked hlost
    exact ⟨goodArm, rfl, .inr harmed, by decide⟩
  · intro id _ _ hleft
    cases eq_watching htold hleft
    exact nomatch hhere.symm.trans hleft
  · intro id _ _ hlost
    cases eq_watching hchecked' hlost
    exact nomatch hback.symm.trans hlost
  · intro id _ _ hleft
    cases eq_watching htold' hleft
    exact nomatch hhere'.symm.trans hleft

/-- Ann's flow isn't turned off, once nobody could say what she can reach. -/
theorem not_offForGood_losingUnheard :
    ReadsBack watchingFormat ∧
      ¬ OffForGood (Sample.env []) watchingFormat .start (.stopped "flows" watchingDisk meterHome)
        losingUnheard := by
  refine ⟨readsBack_watching, fun h => ?_⟩
  obtain ⟨-, -, hleaves, -⟩ := h
  obtain ⟨⟨flow, hflow, hoff⟩, -⟩ := hleaves.off watching.id (by decide +kernel)
  have hon : ((readFlow watchingFormat ((startedHome.after (Sample.env []) watchingFormat
      (changes none)).after (Sample.env []) watchingFormat (changes (some (reachOf false)))).disk
        watching.id true).toOption.any Flow.enabled) = true := by decide +kernel
  have hread : (readFlow watchingFormat ((startedHome.after (Sample.env []) watchingFormat
      (changes none)).after (Sample.env []) watchingFormat (changes (some (reachOf false)))).disk
        watching.id true) = .ok flow := hflow
  rw [hread] at hon
  exact absurd hon (by rw [Except.toOption, Option.any_some, hoff]; decide)

end Irori.Automations
