import Irori.Proofs.Saving

/-!
# Edits build on what is on disk

A write that lands while an edit holds its file is lost, and a file that can't be read is replaced
by what was held before. Where neither happens, every file that is put in place replaces what its
writer had read.
-/

namespace Irori.Config

variable {κ : File → Type} (format : Format κ)

/-! ### What is to be kept to -/

namespace World

variable (x : World κ)

/-- No other worker relies on a file. -/
def Free (n : Nat) (file : File) : Prop :=
  ∀ entry ∈ x.workers.toList, entry.1 ≠ n → entry.2.holds file = false

/-- No worker has seen a file look like this. -/
def Unseen (file : File) (inode : Option Inode) : Prop :=
  ∀ entry ∈ x.workers.toList,
    inode.map (fun inode => (Written.of (String.ofList inode.text) (some inode.modified)).seen) ≠
      (entry.2.store file).seen

/-- A file an edit may replace can be read when it is looked at. It is written only while no other
worker relies on it, and looks new then. -/
def Orderly : WorldEvent κ → Prop
  | .go n chance =>
    match x.workers[n]? with
    | none => True
    | some w =>
      match w.stage with
      | .reading file _ _ => file ∈ w.op.rewrites →
        chance.works = true ∧ (contentsOf format (filesOf x.disk) file).isSome = true
      | .opening _ file _ _ => x.Free n file
      | .placing _ (file :: _) _ =>
        x.Free n file ∧ x.Unseen file (x.disk.content (.writing file))
      | _ => True
  | .outside file inode =>
    (∀ entry ∈ x.workers.toList, entry.2.holds file = false) ∧ x.Unseen file (some inode)
  | _ => True

/-- What a step is to keep to. A file that is put in place replaces one whose text parses,
and that says what its writer started from. A reload that leaves a file whose text parses holds what
it says, and so does one that is over, of the files that still look as they did. -/
def BuildsOn : WorldEvent κ → Prop
  | .go n chance =>
    match x.workers[n]? with
    | none => True
    | some w =>
      match w.stage with
      | .placing _ (file :: _) _ => chance.works = true →
        Agrees format x.disk file (w.store file).value
      | .looking [] => ∀ file, look (filesOf x.disk) file = (w.store file).seen →
        Agrees format x.disk file (w.store file).value
      | .looking (file :: _) => look (filesOf x.disk) file = (w.store file).seen →
        (contentsOf format (filesOf x.disk) file).isSome = true →
        Agrees format x.disk file (w.store file).value
      | .reading file _ _ => chance.works = true →
        (contentsOf format (filesOf x.disk) file).isSome = true →
        Agrees format x.disk file ((w.go format x.disk chance).2.store file).value
      | _ => True
  | _ => True

def All (p : World κ → WorldEvent κ → Prop) (x : World κ) : List (WorldEvent κ) → Prop
  | [] => True
  | event :: events => p x event ∧ All p (x.after format event) events

end World

end Irori.Config

namespace Irori.Proofs
open Irori Config

variable {κ : File → Type} {format : Format κ} {law : Lawful format} {d : Disk Filename}
  {w : Worker κ} {file : File} {x : World κ} {n : Nat} {chance : Chance}

/-! ### Runs -/

/-- Every worker suits the disk, and no two have opened the same file. -/
structure Coherent (law : Lawful format) (x : World κ) : Prop where
  whole : x.disk.Whole
  suits : ∀ (n : Nat) w, x.workers[n]? = some w → Suits law x.disk w
  apart : ∀ (m n : Nat) v w, m ≠ n → x.workers[m]? = some v → x.workers[n]? = some w →
    ∀ file ∈ w.opens, file ∉ v.opens

lemma suits_new {op : Op κ} (hkeeps : op.Keeps law) :
    Suits law d ⟨Store.new format, op, .looking File.all⟩ := by
  refine ⟨fun file hlook => current_blank law hlook, law.blank_valid, hkeeps, ?_⟩
  intro file _ hfile
  exact absurd (by cases file <;> decide) hfile

lemma coherent_start (hwhole : d.Whole) : Coherent law (World.start format d) := by
  have hof : ∀ (n : Nat) w, (World.start format d).workers[n]? = some w →
      n = 0 ∧ w = ⟨Store.new format, .reload, .looking File.all⟩ := by
    intro n w hw
    rw [World.start, Map.get_insert] at hw
    split at hw
    · next heq => exact ⟨heq.symm, (Option.some.inj hw).symm⟩
    · simp at hw
  refine ⟨hwhole, fun n w hw => ?_, fun m n v w hne hv hw => ?_⟩
  · obtain ⟨-, rfl⟩ := hof n w hw
    exact suits_new trivial
  · exact absurd ((hof m v hv).1.trans (hof n w hw).1.symm) hne

lemma Coherent.set (h : Coherent law x) (hsuits : Suits law x.disk w) (hopens : w.opens = []) :
    Coherent law { x with workers := x.workers.insert n w } := by
  have hof : ∀ (k : Nat) v, (x.workers.insert n w)[k]? = some v →
      (k = n ∧ v = w) ∨ x.workers[k]? = some v := by
    intro k v hv
    rw [Map.get_insert] at hv
    split at hv
    · next heq => exact Or.inl ⟨heq.symm, (Option.some.inj hv).symm⟩
    · exact Or.inr hv
  refine ⟨h.whole, fun k v hv => ?_, fun k l v u hne hv hu file hfile hfile' => ?_⟩
  · rcases hof k v hv with ⟨-, rfl⟩ | hv
    · exact hsuits
    · exact h.suits k v hv
  · rcases hof l u hu with ⟨-, rfl⟩ | hu
    · rw [hopens] at hfile
      cases hfile
    · rcases hof k v hv with ⟨-, rfl⟩ | hv
      · rw [hopens] at hfile'
        cases hfile'
      · exact h.apart k l v u hne hv hu file hfile hfile'

lemma Coherent.ask {op : Op κ} (h : Coherent law x) (hkeeps : op.Keeps law) :
    Coherent law (x.ask format n op) := by
  unfold World.ask
  split
  · exact h.set (suits_new hkeeps) rfl
  · next w hw =>
    split
    · refine h.set ⟨(h.suits n w hw).current, (h.suits n w hw).valid, hkeeps, ?_⟩ rfl
      intro file _ hfile
      exact absurd (by cases file <;> decide) hfile
    · exact h

lemma free_iff : x.Free n file ↔
    ∀ (m : Nat) v, x.workers[m]? = some v → m ≠ n → v.holds file = false := by
  constructor
  · intro h m v hv hne
    exact h (m, v) (Std.ExtTreeMap.mem_toList_iff_getElem?_eq_some.mpr hv) hne
  · intro h entry hentry hne
    exact h entry.1 entry.2 (Std.ExtTreeMap.mem_toList_iff_getElem?_eq_some.mp hentry) hne

lemma unseen_iff {inode : Option Inode} : x.Unseen file inode ↔
    ∀ (m : Nat) v, x.workers[m]? = some v → inode.map lookOf ≠ (v.store file).seen := by
  constructor
  · intro h m v hv
    exact h (m, v) (Std.ExtTreeMap.mem_toList_iff_getElem?_eq_some.mpr hv)
  · intro h entry hentry
    exact h entry.1 entry.2 (Std.ExtTreeMap.mem_toList_iff_getElem?_eq_some.mp hentry)

lemma get_settle {k : Nat} {v : Worker κ} (h : (x.settle n w)[k]? = some v) :
    (k = n ∧ v = w) ∨ (k ≠ n ∧ x.workers[k]? = some v) := by
  unfold World.settle at h
  split at h
  · rw [Map.get_erase] at h
    split at h
    · cases h
    · next hne => exact Or.inr ⟨fun heq => hne heq.symm, h⟩
  · rw [Map.get_insert] at h
    split at h
    · next heq => exact Or.inl ⟨heq.symm, (Option.some.inj h).symm⟩
    · next hne => exact Or.inr ⟨fun heq => hne heq.symm, h⟩

lemma careful_of_orderly (hw : x.workers[n]? = some w)
    (horderly : x.Orderly format (.go n chance)) : Careful format x.disk w chance := by
  simp only [World.Orderly, hw] at horderly
  unfold Careful
  cases hstage : w.stage with
  | reading file now files =>
    simp only [hstage] at horderly
    exact horderly
  | placing s todo prepared =>
    cases todo with
    | nil => trivial
    | cons file todo =>
      simp only [hstage] at horderly
      exact unseen_iff.1 horderly.2 n w hw
  | _ => trivial

lemma Coherent.spared {m : Nat} {v : Worker κ} (h : Coherent law x) (hw : x.workers[n]? = some w)
    (horderly : x.Orderly format (.go n chance)) (hv : x.workers[m]? = some v) (hne : m ≠ n) :
    Spared x.disk (w.go format x.disk chance).1 v := by
  simp only [World.Orderly, hw] at horderly
  refine go_spared h.whole (h.suits n w hw) (h.suits m v hv) (h.apart m n v w hne hv hw)
    (fun s file todo prepared hstage => ?_) fun s file todo prepared hstage => ?_
  · simp only [hstage] at horderly
    exact free_iff.1 horderly m v hv hne
  · simp only [hstage] at horderly
    exact ⟨free_iff.1 horderly.1 m v hv hne, unseen_iff.1 horderly.2 m v hv⟩

lemma Coherent.sparedOutside {inode : Inode} (h : Coherent law x)
    (horderly : x.Orderly format (.outside file inode)) (hw : x.workers[n]? = some w) :
    Spared x.disk (x.disk.replace (.file file) inode) w :=
  spared_replace h.whole
    (horderly.1 (n, w) (Std.ExtTreeMap.mem_toList_iff_getElem?_eq_some.mpr hw))
    (unseen_iff.1 horderly.2 n w hw)

lemma Coherent.go (h : Coherent law x) (horderly : x.Orderly format (.go n chance)) :
    Coherent law (x.after format (.go n chance)) := by
  simp only [World.after]
  split
  · exact h
  next w hw =>
  have hsuits := h.suits n w hw
  have hopening : ∀ s file todo prepared, w.stage = .opening s file todo prepared →
      ∀ (m : Nat) v, x.workers[m]? = some v → m ≠ n → v.holds file = false := by
    intro s file todo prepared hstage
    simp only [World.Orderly, hw, hstage] at horderly
    exact free_iff.1 horderly
  refine ⟨go_whole h.whole, fun k v hv => ?_, fun k l v u hne hv hu file hfile hfile' => ?_⟩
  · rcases get_settle hv with ⟨rfl, rfl⟩ | ⟨hkn, hv⟩
    · exact hsuits.go h.whole (careful_of_orderly hw horderly)
    · exact (h.suits k v hv).frame (h.spared hw horderly hv hkn)
  · rcases get_settle hu with ⟨rfl, rfl⟩ | ⟨hln, hu'⟩ <;>
      rcases get_settle hv with ⟨rfl, rfl⟩ | ⟨hkn, hv⟩
    · exact hne rfl
    · rcases mem_opens_go hfile with hfile | ⟨s, todo, prepared, hstage⟩
      · exact h.apart k l v w hne hv hw file hfile hfile'
      · have hheld := holds_of_opens (h.suits k v hv) hfile'
        rw [hopening s file todo prepared hstage k v hv hne] at hheld
        cases hheld
    · rcases mem_opens_go hfile' with hfile' | ⟨s, todo, prepared, hstage⟩
      · exact h.apart k l w u hne hw hu' file hfile hfile'
      · have hheld := holds_of_opens (h.suits l u hu') hfile
        rw [hopening s file todo prepared hstage l u hu' (Ne.symm hne)] at hheld
        cases hheld
    · exact h.apart k l v u hne hv hu' file hfile hfile'

lemma Coherent.outside {inode : Inode} (h : Coherent law x)
    (horderly : x.Orderly format (.outside file inode)) :
    Coherent law (x.after format (.outside file inode)) :=
  ⟨h.whole.replace _ _, fun n w hw => (h.suits n w hw).frame (h.sparedOutside horderly hw), h.apart⟩

lemma Coherent.after {event : WorldEvent κ} (h : Coherent law x) (hkeeps : event.Keeps law)
    (horderly : x.Orderly format event) : Coherent law (x.after format event) := by
  cases event with
  | ask n op => exact h.ask hkeeps
  | go n chance => exact h.go horderly
  | outside file inode => exact h.outside horderly
  | restart => exact coherent_start h.whole

lemma Coherent.buildsOn {event : WorldEvent κ} (h : Coherent law x) (horderly : x.Orderly format event) :
    x.BuildsOn format event := by
  cases event with
  | ask n op => trivial
  | outside file inode => trivial
  | restart => trivial
  | go n chance =>
    simp only [World.BuildsOn]
    cases hw : x.workers[n]? with
    | none => trivial
    | some w =>
      have hsuits := h.suits n w hw
      have hstage := hsuits.stage
      unfold InStage at hstage
      dsimp only
      cases hs : w.stage with
      | looking files =>
        cases files with
        | nil => exact hsuits.current
        | cons file files => exact fun hseen _ => hsuits.current file hseen
      | reading file now files =>
        intro hworks hsome
        obtain ⟨value, hvalue⟩ := Option.isSome_iff_exists.1 hsome
        refine ⟨value, hvalue, ?_⟩
        simp only [Worker.go, hs, hworks, if_true, hvalue]
        rw [put_self]
      | placing s todo prepared =>
        cases todo with
        | nil => trivial
        | cons file todo =>
          simp only [hs] at hstage
          intro _
          exact hstage.held file (mem_files_of_group (hstage.group file
            (hstage.inside file List.mem_cons_self))) (Or.inr List.mem_cons_self)
      | _ => trivial

section Goes

variable {k : Nat}

/-- A disk and a worker after some steps of its own. -/
def goes (format : Format κ) (chance : Chance) :
    Nat → Disk Filename × Worker κ → Disk Filename × Worker κ
  | 0, now => now
  | k + 1, now => goes format chance k (now.2.go format now.1 chance)

lemma goes_add (j k : Nat) (now : Disk Filename × Worker κ) :
    goes format chance (j + k) now = goes format chance k (goes format chance j now) := by
  induction j generalizing now with
  | zero => rw [Nat.zero_add, goes]
  | succ j ih => rw [Nat.succ_add, goes, ih, goes]

/-- Where a step is orderly if nobody else is about. -/
def Smooth (now : Disk Filename × Worker κ) : Prop :=
  match now.2.stage with
  | .idle | .reading .. => False
  | .placing _ (file :: _) _ =>
    (now.1.content (.writing file)).isSome = true ∧ (now.2.store file).seen = none
  | _ => True

def Smoothly (format : Format κ) (chance : Chance) : Nat → Disk Filename × Worker κ → Prop
  | 0, _ => True
  | k + 1, now => Smooth now ∧ Smoothly format chance k (now.2.go format now.1 chance)

lemma goes_looking {store : Store κ} {op : Op κ} {files rest : List File}
    (hlook : ∀ file ∈ files, look (filesOf d) file = (store file).seen) :
    goes format chance files.length (d, ⟨store, op, .looking (files ++ rest)⟩) =
      (d, ⟨store, op, .looking rest⟩) := by
  induction files with
  | nil => rfl
  | cons file files ih =>
    have hgo : Worker.go format ⟨store, op, .looking (file :: files ++ rest)⟩ d chance =
        (d, ⟨store, op, .looking (files ++ rest)⟩) := if_pos (hlook file List.mem_cons_self)
    rw [List.length_cons, goes, hgo]
    exact ih fun other hother => hlook other (List.mem_cons_of_mem _ hother)

lemma smoothly_looking {store : Store κ} {op : Op κ} {files rest : List File}
    (hlook : ∀ file ∈ files, look (filesOf d) file = (store file).seen) :
    Smoothly format chance files.length (d, ⟨store, op, .looking (files ++ rest)⟩) := by
  induction files with
  | nil => trivial
  | cons file files ih =>
    have hgo : Worker.go format ⟨store, op, .looking (file :: files ++ rest)⟩ d chance =
        (d, ⟨store, op, .looking (files ++ rest)⟩) := if_pos (hlook file List.mem_cons_self)
    rw [List.length_cons, Smoothly, hgo]
    exact ⟨trivial, ih fun other hother => hlook other (List.mem_cons_of_mem _ hother)⟩

lemma goes_unread {store : Store κ} {op : Op κ} {file : File} {rest : List File}
    (hlook : look (filesOf d) file ≠ (store file).seen)
    (hnone : contentsOf format (filesOf d) file = none) :
    goes format chance 2 (d, ⟨store, op, .looking (file :: rest)⟩) =
      (d, ⟨store, op, .looking rest⟩) := by
  have hgo : Worker.go format ⟨store, op, .looking (file :: rest)⟩ d chance =
      (d, ⟨store, op, .reading file (look (filesOf d) file) rest⟩) := if_neg hlook
  rw [goes, hgo, goes, goes]
  simp only [Worker.go, hnone, ite_self, Worker.at_]

lemma smoothly_add {j k : Nat} {now : Disk Filename × Worker κ} (hj : Smoothly format chance j now)
    (hk : Smoothly format chance k (goes format chance j now)) :
    Smoothly format chance (j + k) now := by
  induction j generalizing now with
  | zero => rwa [Nat.zero_add]
  | succ j ih =>
    rw [Nat.succ_add]
    exact ⟨hj.1, ih hj.2 hk⟩

lemma isIdle_of_smooth (h : Smooth (d, w)) : World.isIdle w.stage = false := by
  rcases w with ⟨store, op, stage⟩
  cases stage with
  | idle => exact h.elim
  | _ => rfl

/-- The other workers hold nothing, and have seen nothing. -/
def Undisturbed (x : World κ) (n : Nat) : Prop :=
  ∀ (m : Nat) v, m ≠ n → x.workers[m]? = some v →
    ∀ file, v.holds file = false ∧ (v.store file).seen = none

lemma orderly_of_undisturbed (hothers : Undisturbed x n) (hw : x.workers[n]? = some w)
    (hsmooth : Smooth (x.disk, w)) : x.Orderly format (.go n chance) := by
  have hfree : ∀ file, x.Free n file := fun file entry hentry hne =>
    (hothers entry.1 entry.2 hne (Std.ExtTreeMap.mem_toList_iff_getElem?_eq_some.1 hentry) file).1
  simp only [World.Orderly, hw]
  rcases w with ⟨store, op, stage⟩
  cases stage with
  | reading => exact hsmooth.elim
  | opening s file todo prepared => exact hfree file
  | placing s todo prepared =>
    cases todo with
    | nil => trivial
    | cons file todo =>
      refine ⟨hfree file, fun entry hentry => ?_⟩
      have hseen : (entry.2.store file).seen = none := by
        have hget := Std.ExtTreeMap.mem_toList_iff_getElem?_eq_some.1 hentry
        by_cases hne : entry.1 = n
        · rw [hne, hw] at hget
          exact Option.some.inj hget ▸ hsmooth.2
        · exact (hothers entry.1 entry.2 hne hget file).2
      obtain ⟨inode, hinode⟩ := Option.isSome_iff_exists.1 hsmooth.1
      simp only [hseen, hinode, Option.map_some]
      exact nofun
  | _ => trivial

lemma after_go (hw : x.workers[n]? = some w)
    (hbusy : World.isIdle (w.go format x.disk chance).2.stage = false) :
    x.after format (.go n chance) = ⟨(w.go format x.disk chance).1,
      x.workers.insert n (w.go format x.disk chance).2⟩ := by
  simp only [World.after, hw, World.settle, hbusy, Bool.false_and, Bool.false_eq_true, if_false]

lemma disk_after_go (hw : x.workers[n]? = some w) :
    (x.after format (.go n chance)).disk = (w.go format x.disk chance).1 := by
  simp only [World.after, hw]

lemma undisturbed_insert {d : Disk Filename} {v : Worker κ} (h : Undisturbed x n) :
    Undisturbed ⟨d, x.workers.insert n v⟩ n := by
  intro m u hne hu
  rw [Map.get_insert, if_neg (Ne.symm hne)] at hu
  exact h m u hne hu

lemma all_go (hothers : Undisturbed x n) (hw : x.workers[n]? = some w)
    (hsmoothly : Smoothly format chance k (x.disk, w)) :
    x.All format (fun x => x.Orderly format) (List.replicate k (.go n chance)) := by
  induction k generalizing x w with
  | zero => trivial
  | succ k ih =>
    refine ⟨orderly_of_undisturbed hothers hw hsmoothly.1, ?_⟩
    cases k with
    | zero => trivial
    | succ k =>
      have hnext : (x.workers.insert n (w.go format x.disk chance).2)[n]? =
          some (w.go format x.disk chance).2 := by
        rw [Map.get_insert, if_pos rfl]
      rw [after_go hw (isIdle_of_smooth hsmoothly.2.1)]
      exact ih (undisturbed_insert hothers) hnext hsmoothly.2

lemma isIdle_goes {j : Nat} {now : Disk Filename × Worker κ} (h : World.isIdle now.2.stage = true) :
    World.isIdle (goes format chance j now).2.stage = true := by
  induction j generalizing now with
  | zero => exact h
  | succ j ih =>
    rcases now with ⟨d, store, op, stage⟩
    cases stage with
    | idle => exact ih rfl
    | _ => cases h

lemma insert_insert {workers : Map Nat (Worker κ)} {v : Worker κ} :
    (workers.insert n v).insert n w = workers.insert n w := by
  apply Std.ExtTreeMap.ext_getElem?
  intro m
  rw [Map.get_insert, Map.get_insert, Map.get_insert]
  split <;> rfl

lemma foldl_go (hw : x.workers[n]? = some w)
    (hbusy : World.isIdle (goes format chance k (x.disk, w)).2.stage = false) :
    (List.replicate k (WorldEvent.go n chance)).foldl (fun x event => x.after format event) x =
      ⟨(goes format chance k (x.disk, w)).1,
        x.workers.insert n (goes format chance k (x.disk, w)).2⟩ := by
  induction k generalizing x w with
  | zero =>
    have hself : x.workers.insert n w = x.workers := by
      apply Std.ExtTreeMap.ext_getElem?
      intro m
      rw [Map.get_insert]
      split
      · next heq => rw [← heq, hw]
      · rfl
    simp only [List.replicate_zero, List.foldl_nil, goes, hself]
  | succ k ih =>
    have hnext : World.isIdle (w.go format x.disk chance).2.stage = false := by
      cases hidle : World.isIdle (w.go format x.disk chance).2.stage with
      | false => rfl
      | true =>
        rw [goes, isIdle_goes hidle] at hbusy
        cases hbusy
    have hself : (x.workers.insert n (w.go format x.disk chance).2)[n]? =
        some (w.go format x.disk chance).2 := by
      rw [Map.get_insert, if_pos rfl]
    rw [List.replicate_succ, List.foldl_cons, after_go hw hnext]
    exact (ih (x := ⟨_, _⟩) hself hbusy).trans (congrArg (World.mk _) insert_insert)

lemma smooth_goes {now : Disk Filename × Worker κ} (h : Smoothly format chance (k + 1) now) :
    Smooth (goes format chance k now) := by
  induction k generalizing now with
  | zero => exact h.1
  | succ k ih => exact ih h.2

lemma disk_foldl_go {j : Nat} (hj : j ≠ 0) (hw : x.workers[n]? = some w)
    (hsmoothly : Smoothly format chance j (x.disk, w)) :
    ((List.replicate j (WorldEvent.go n chance)).foldl
        (fun x event => x.after format event) x).disk = (goes format chance j (x.disk, w)).1 := by
  obtain ⟨k, rfl⟩ := Nat.exists_eq_succ_of_ne_zero hj
  have hself : ∀ y : World κ, y = ⟨(goes format chance k (x.disk, w)).1,
      x.workers.insert n (goes format chance k (x.disk, w)).2⟩ →
        y.workers[n]? = some (goes format chance k (x.disk, w)).2 := by
    rintro y rfl
    rw [Map.get_insert, if_pos rfl]
  have hlast := foldl_go hw (isIdle_of_smooth (smooth_goes hsmoothly))
  rw [List.replicate_succ', List.foldl_append, List.foldl_cons, List.foldl_nil,
    disk_after_go (hself _ hlast), hlast, Nat.succ_eq_add_one, goes_add, goes, goes]

lemma start_ask {op : Op κ} : (World.start format d).after format (.ask 1 op) =
    ⟨d, (World.start format d).workers.insert 1 ⟨Store.new format, op, .looking File.all⟩⟩ := by
  have hnone : (World.start format d).workers[1]? = none := by
    rw [World.start, Map.get_insert, if_neg (by decide)]
    exact Std.ExtTreeMap.getElem?_empty
  simp only [World.after, World.ask, hnone]
  rfl

lemma undisturbed_asked {v : Worker κ} :
    Undisturbed ⟨d, (World.start format d).workers.insert 1 v⟩ 1 := by
  intro m u hne hu file
  rw [Map.get_insert, if_neg (Ne.symm hne), World.start, Map.get_insert] at hu
  split at hu
  · obtain rfl := Option.some.inj hu
    exact ⟨rfl, rfl⟩
  · rw [Std.ExtTreeMap.getElem?_empty] at hu
    cases hu

variable {s : Saving κ} {text : List Char}

def writtenBeside (d : Disk Filename) (file : File) (text : List Char) (time : Nat) :
    Disk Filename :=
  (d.create (.writing file) time).write (d.opened (.writing file)) 0 text time

lemma content_writtenBeside {time : Nat} :
    (writtenBeside d file text time).content (.writing file) = some ⟨text, time⟩ := by
  simp [writtenBeside, Disk.content, Disk.write, Disk.create, Disk.splice]

lemma goes_comparing {store : Store κ} {op : Op κ} (hworks : chance.works = true)
    (htext : s.text format file = text) (hne : text ≠ []) (hlen : text.length ≤ chance.size + 1)
    (hother : (d.content (.file file)).map Inode.text ≠ some text) :
    goes format chance 5 (d, ⟨store, op, .comparing s [file] []⟩) =
        (writtenBeside d file text chance.time, ⟨store, op, .placing s [file] [file]⟩) ∧
      Smoothly format chance 5 (d, ⟨store, op, .comparing s [file] []⟩) := by
  obtain ⟨c, cs, rfl⟩ := List.exists_cons_of_ne_nil hne
  have htake : (c :: cs).take (chance.size + 1) = c :: cs := List.take_of_length_le hlen
  have hdrop : (c :: cs).drop (chance.size + 1) = [] := List.drop_of_length_le hlen
  simp only [goes, Smoothly, Smooth, Worker.go, Worker.at_, htext, if_neg hother, hworks, if_true,
    htake, hdrop, List.length_nil, List.nil_append, writtenBeside, and_self]

lemma goes_placing {store : Store κ} {op : Op κ} (hworks : chance.works = true)
    (hnames : (d.content (.writing file)).isSome = true) (hgroup : s.group = [file])
    (hlater : s.later = []) (hseen : (store file).seen = none) :
    (goes format chance 4 (d, ⟨store, op, .placing s [file] [file]⟩)).1 =
        d.rename (.writing file) (.file file) ∧
      Smoothly format chance 4 (d, ⟨store, op, .placing s [file] [file]⟩) := by
  have hnames' : (d.names (.writing file)).isSome = true := by
    rwa [Disk.content, Option.isSome_map] at hnames
  simp only [goes, Smoothly, Smooth, Worker.go, Worker.at_, Worker.holdGoal, hworks, hnames,
    hnames', hgroup, hlater, hseen, Bool.and_self, if_true, and_self]

lemma content_placed {time : Nat} :
    ((writtenBeside d file text time).rename (.writing file) (.file file)).content (.file file) =
      some ⟨text, time⟩ := by
  have hne : Filename.file file ≠ .writing file := nofun
  rw [Disk.content, Disk.names_rename_target hne]
  exact content_writtenBeside

lemma textOf_filesOf {inode : Inode} (h : d.content (.file file) = some inode) :
    textOf (filesOf d) file = some (String.ofList inode.text) := by
  simp only [textOf, filesOf, h, Option.map_some, Written.of]

end Goes

/-! ### A key made beside a broken line -/

def secretsHeader : String :=
  "# Secrets for extensions: encryption keys, passwords, tokens. One table per extension.\n" ++
  "#\n" ++
  "# Keep this file out of git, and out of anywhere else it could be read. Irori creates it\n" ++
  "# readable by its own user only.\n" ++
  "# Written by Irori, and yours to edit: changes are picked up within a couple of seconds.\n" ++
  "# See docs/specs/config.md.\n\n"

def keyText (key : String) : String := secretsHeader ++ "[backup]\nkey = \"" ++ key ++ "\"\n"

def keySettings (key : String) : ExtensionSettings :=
  (∅ : ExtensionSettings).insert Backup.table [("key", .string key)]

def keyFormat : Format fun _ => Unit where
  read
    | .users, text => if text = "" then .ok [] else .error "invalid table header"
    | .secrets, text =>
      if text = keyText "irori-key" then .ok (keySettings "irori-key")
      else if text = keyText "other-key" then .ok (keySettings "other-key")
      else if text = "" ∨ text = secretsHeader then .ok (∅ : ExtensionSettings)
      else .error "isn't valid TOML on line 1: invalid table header"
    | .irori, _ | .areas, _ | .floorplan, _ | .devices, _ | .entities, _ | .home, _ => .ok ()
  write
    | .users, _ => ""
    | .secrets, secrets =>
      match Backup.secret Backup.key secrets with
      | some key => keyText key
      | none => secretsHeader
    | .irori, _ | .areas, _ | .floorplan, _ | .devices, _ | .entities, _ | .home, _ => ""
  default_ _ := ()

def emptyDisk : Disk Filename := ⟨fun _ => ⟨[], 0⟩, fun _ => none, 0⟩

def brokenDisk : Disk Filename := emptyDisk.replace (.file .secrets) ⟨"[users.passwords\n".toList, 1⟩

def makesKey (count : Nat) : List (WorldEvent fun _ => Unit) :=
  .ask 1 (.keyOrMake "irori-key") :: List.replicate count (.go 1 ⟨true, 2, 1000⟩)

lemma read_header : keyFormat.read .secrets secretsHeader = .ok (∅ : ExtensionSettings) := by
  have hirori : secretsHeader ≠ keyText "irori-key" := by decide +kernel
  have hother : secretsHeader ≠ keyText "other-key" := by decide +kernel
  simp [keyFormat, hirori, hother]

lemma read_keyText {key : String} (h : key ∈ ["irori-key", "other-key"]) :
    keyFormat.read .secrets (keyText key) = .ok (keySettings key) := by
  have hne : keyText "other-key" ≠ keyText "irori-key" := by decide +kernel
  simp only [List.mem_cons, List.not_mem_nil, or_false] at h
  rcases h with rfl | rfl
  · simp [keyFormat]
  · simp [keyFormat, hne]

lemma secret_keySettings {key : String} (h : key ≠ "") :
    Backup.secret Backup.key (keySettings key) = some key := by
  have hsome : (keySettings key)[Backup.table]? = some [("key", .string key)] := by
    rw [keySettings, Map.get_insert, if_pos rfl]
  simp [Backup.secret, Backup.key, ExtensionSettings.of, hsome, Json.get?, h]

lemma write_none : keyFormat.write .secrets (∅ : ExtensionSettings) = secretsHeader := rfl

lemma write_key {key : String} (h : key ≠ "") :
    keyFormat.write .secrets (keySettings key) = keyText key := by
  simp only [keyFormat, secret_keySettings h]

lemma set_key (settings : ExtensionSettings) (key : String)
    (h : settings = ∅ ∨ ∃ other ∈ ["irori-key", "other-key"], settings = keySettings other) :
    settings.set Backup.table [Backup.key] key = .ok (keySettings key) := by
  have hset : ∀ other, (keySettings other).set Backup.table [Backup.key] key =
      .ok ((keySettings other).insert Backup.table [("key", .string key)]) := fun _ => rfl
  rcases h with rfl | ⟨other, -, rfl⟩
  · rfl
  · rw [hset, Except.ok.injEq]
    apply Std.ExtTreeMap.ext_getElem?
    intro id
    rw [keySettings, keySettings, Map.get_insert, Map.get_insert, Map.get_insert]
    split <;> rfl

def keyLaw : Lawful keyFormat where
  valid
    | .users, users => users = ([] : List User)
    | .secrets, secrets => secrets = (∅ : ExtensionSettings) ∨
        ∃ key ∈ ["irori-key", "other-key"], secrets = keySettings key
    | .irori, _ | .areas, _ | .floorplan, _ | .devices, _ | .entities, _ | .home, _ => True
  read_valid file text value h := by
    cases file with
    | users =>
      simp only [keyFormat] at h
      split at h
      · exact (Except.ok.inj h).symm
      · cases h
    | secrets =>
      simp only [keyFormat] at h
      split at h
      · exact Or.inr ⟨_, by simp, (Except.ok.inj h).symm⟩
      · split at h
        · exact Or.inr ⟨_, by simp, (Except.ok.inj h).symm⟩
        · split at h
          · exact Or.inl (Except.ok.inj h).symm
          · cases h
    | _ => trivial
  blank_valid file := by
    cases file with
    | users => rfl
    | secrets => exact Or.inl rfl
    | _ => trivial
  empty file := by
    cases file with
    | users => exact ⟨([] : List User), rfl, rfl⟩
    | secrets => exact ⟨(∅ : ExtensionSettings), rfl, rfl⟩
    | _ => exact ⟨(), rfl, rfl⟩
  written file value h := by
    cases file with
    | users => exact ⟨([] : List User), rfl, rfl⟩
    | secrets =>
      rcases h with rfl | ⟨key, hkey, rfl⟩
      · exact ⟨(∅ : ExtensionSettings), by rw [write_none, read_header], rfl⟩
      · refine ⟨keySettings key, ?_, rfl⟩
        rw [write_key (by rintro rfl; simp at hkey), read_keyText hkey]
    | _ => exact ⟨(), rfl, rfl⟩

lemma keeps_setKey {key : String} (hkey : key ∈ ["irori-key", "other-key"]) :
    (Backup.setSecret Backup.key key : Edit fun _ => Unit).Keeps keyLaw := by
  intro values hvalid goal groups hchange file hfile
  have hset := set_key values.secrets key (hvalid .secrets)
  simp only [Backup.setSecret, Edit.secrets, Edit.one, hset, Except.map, Except.ok.injEq,
    Prod.mk.injEq] at hchange
  obtain ⟨rfl, rfl⟩ := hchange
  obtain rfl : file = .secrets := by simpa using hfile
  exact Or.inr ⟨key, hkey, Function.update_self ..⟩

instance decidableWorld (event : WorldEvent κ) : Decidable (x.Orderly format event) := by
  unfold World.Orderly
  split
  · split
    · infer_instance
    · split
      · infer_instance
      · unfold World.Free
        infer_instance
      · unfold World.Free World.Unseen
        infer_instance
      · infer_instance
  · unfold World.Unseen
    infer_instance
  · infer_instance

instance decidableRun {p : World κ → WorldEvent κ → Prop} [∀ x event, Decidable (p x event)] :
    (x : World κ) → (events : List (WorldEvent κ)) → Decidable (x.All format p events)
  | _, [] => inferInstanceAs (Decidable True)
  | x, event :: events =>
    have := decidableRun (p := p) (x.after format event) events
    inferInstanceAs (Decidable (p x event ∧ (x.after format event).All format p events))

def worldAfter (d : Disk Filename) (events : List (WorldEvent fun _ => Unit)) :
    World fun _ => Unit :=
  events.foldl (fun x event => x.after keyFormat event) (World.start keyFormat d)

lemma whole_emptyDisk : emptyDisk.Whole := ⟨by simp [emptyDisk], by simp [emptyDisk]⟩

lemma keeps_makesKey {count : Nat} : ∀ event ∈ makesKey count, event.Keeps keyLaw := by
  intro event hevent
  rcases List.mem_cons.1 hevent with rfl | hevent
  · exact keeps_setKey (by simp)
  · obtain rfl := List.eq_of_mem_replicate hevent
    trivial

section

variable {k : Nat}

lemma length_le_utf8ByteSize (s : String) : s.toList.length ≤ s.utf8ByteSize := by
  have hlist : ∀ text : List Char, text.length ≤ (String.ofList text).utf8ByteSize := by
    intro text
    induction text with
    | nil => exact Nat.zero_le _
    | cons c text ih =>
      have hsize := c.utf8Size_pos
      rw [← List.singleton_append, String.ofList_append, String.utf8ByteSize_append,
        ← String.singleton_eq_ofList, String.utf8ByteSize_singleton, List.length_append,
        List.length_singleton]
      omega
  have hs := hlist s.toList
  rwa [String.ofList_toList] at hs

def saving (key : String) : Saving fun _ => Unit where
  goal := Function.update (fun file => (Store.new keyFormat file).value) .secrets (keySettings key)
  base := fun file => (Store.new keyFormat file).value
  group := [.secrets]
  later := []
  done := []

def comparing (key : String) : Worker fun _ => Unit :=
  ⟨Store.new keyFormat, .make key, .comparing (saving key) [.secrets] []⟩

lemma reloaded_keyOrMake {key : String} :
    Worker.reloaded keyFormat ⟨Store.new keyFormat, .keyOrMake key, .looking []⟩ =
      ⟨Store.new keyFormat, .make key, .looking File.all⟩ := rfl

lemma reloaded_make {key : String} :
    Worker.reloaded keyFormat ⟨Store.new keyFormat, .make key, .looking []⟩ = comparing key := by
  have hset : (∅ : ExtensionSettings).set Backup.table [Backup.key] key = .ok (keySettings key) :=
    set_key ∅ key (Or.inl rfl)
  have hchange : (Backup.setSecret Backup.key key : Edit fun _ => Unit).change
      (fun file => (Store.new keyFormat file).value) = .ok (Function.update
        (fun file => (Store.new keyFormat file).value) .secrets (keySettings key), [[.secrets]]) :=
    congrArg (Except.map fun value => (_, [[File.secrets]])) hset
  have hbegin : Worker.reloaded keyFormat ⟨Store.new keyFormat, .make key, .looking []⟩ =
      Worker.begin_ ⟨Store.new keyFormat, .make key, .looking []⟩
        (Backup.setSecret Backup.key key) := rfl
  have hvalues : Worker.values ⟨Store.new keyFormat, .make key, .looking []⟩ =
      fun file => (Store.new keyFormat file).value := rfl
  rw [hbegin, Worker.begin_, hvalues, hchange]
  rfl

lemma goes_keyOrMake {key : String} (hlook : ∀ op : Op fun _ => Unit,
    goes keyFormat chance k (d, ⟨Store.new keyFormat, op, .looking File.all⟩) =
      (d, ⟨Store.new keyFormat, op, .looking []⟩)) :
    goes keyFormat chance (k + 1 + (k + 1))
        (d, ⟨Store.new keyFormat, .keyOrMake key, .looking File.all⟩) = (d, comparing key) ∧
      ((∀ op : Op fun _ => Unit, Smoothly keyFormat chance k
        (d, ⟨Store.new keyFormat, op, .looking File.all⟩)) →
        Smoothly keyFormat chance (k + 1 + (k + 1))
          (d, ⟨Store.new keyFormat, .keyOrMake key, .looking File.all⟩)) := by
  have hfirst : goes keyFormat chance (k + 1)
      (d, ⟨Store.new keyFormat, .keyOrMake key, .looking File.all⟩) =
        (d, ⟨Store.new keyFormat, .make key, .looking File.all⟩) := by
    rw [goes_add, hlook, goes, goes, Worker.go, reloaded_keyOrMake]
  have hsecond : goes keyFormat chance (k + 1)
      (d, ⟨Store.new keyFormat, .make key, .looking File.all⟩) = (d, comparing key) := by
    rw [goes_add, hlook, goes, goes, Worker.go, reloaded_make]
  have hlast : ∀ op : Op fun _ => Unit, Smoothly keyFormat chance 1
      (goes keyFormat chance k (d, ⟨Store.new keyFormat, op, .looking File.all⟩)) := by
    intro op
    rw [hlook]
    exact ⟨trivial, trivial⟩
  refine ⟨by rw [goes_add, hfirst, hsecond], fun hsmoothly =>
    smoothly_add (smoothly_add (hsmoothly _) (hlast _)) ?_⟩
  rw [hfirst]
  exact smoothly_add (hsmoothly _) (hlast _)

lemma text_saving {key : String} (h : key ≠ "") :
    (saving key).text keyFormat .secrets = (keyText key).toList := by
  have hgoal : (saving key).goal .secrets = keySettings key := rfl
  rw [Saving.text, hgoal, write_key h]

lemma length_keyText {key : String} (h : key ∈ ["irori-key", "other-key"]) :
    (keyText key).toList.length ≤ 1001 := by
  have hsize : ∀ key ∈ ["irori-key", "other-key"], (keyText key).utf8ByteSize ≤ 1001 := by
    decide +kernel
  exact (length_le_utf8ByteSize _).trans (hsize key h)

lemma keyText_ne (key : String) : (keyText key).toList ≠ [] := by
  simp [keyText]

lemma goes_looksTwice (chance : Chance) (key : String) : goes keyFormat chance 18
      (emptyDisk, ⟨Store.new keyFormat, .keyOrMake key, .looking File.all⟩) =
        (emptyDisk, comparing key) ∧
    Smoothly keyFormat chance 18
      (emptyDisk, ⟨Store.new keyFormat, .keyOrMake key, .looking File.all⟩) := by
  have hlook : ∀ op : Op fun _ => Unit, goes keyFormat chance File.all.length
      (emptyDisk, ⟨Store.new keyFormat, op, .looking (File.all ++ [])⟩) =
        (emptyDisk, ⟨Store.new keyFormat, op, .looking []⟩) :=
    fun op => goes_looking fun _ _ => rfl
  have hsmoothly : ∀ op : Op fun _ => Unit, Smoothly keyFormat chance File.all.length
      (emptyDisk, ⟨Store.new keyFormat, op, .looking (File.all ++ [])⟩) :=
    fun op => smoothly_looking fun _ _ => rfl
  obtain ⟨hgoes, himp⟩ := goes_keyOrMake hlook
  exact ⟨hgoes, himp hsmoothly⟩

lemma goes_writes {key : String} (time : Nat) (hkey : key ∈ ["irori-key", "other-key"])
    (hother : (d.content (.file .secrets)).map Inode.text ≠ some (keyText key).toList) :
    goes keyFormat ⟨true, time, 1000⟩ 5 (d, comparing key) =
        (writtenBeside d .secrets (keyText key).toList time,
          ⟨Store.new keyFormat, .make key, .placing (saving key) [.secrets] [.secrets]⟩) ∧
      Smoothly keyFormat ⟨true, time, 1000⟩ 5 (d, comparing key) := by
  have hne : key ≠ "" := by
    rintro rfl
    simp at hkey
  exact goes_comparing rfl (text_saving hne) (keyText_ne key) (length_keyText hkey) hother

lemma goes_places (d : Disk Filename) (key : String) (time : Nat) :
    (goes keyFormat ⟨true, time, 1000⟩ 4 (writtenBeside d .secrets (keyText key).toList time,
        ⟨Store.new keyFormat, .make key, .placing (saving key) [.secrets] [.secrets]⟩)).1 =
      (writtenBeside d .secrets (keyText key).toList time).rename (.writing .secrets)
        (.file .secrets) ∧
    Smoothly keyFormat ⟨true, time, 1000⟩ 4 (writtenBeside d .secrets (keyText key).toList time,
      ⟨Store.new keyFormat, .make key, .placing (saving key) [.secrets] [.secrets]⟩) :=
  goes_placing rfl (by rw [content_writtenBeside]; rfl) rfl rfl rfl

lemma orderly_makesKey : (World.start keyFormat emptyDisk).All keyFormat
      (fun x => x.Orderly keyFormat) (makesKey 27) ∧
    textOf (filesOf (worldAfter emptyDisk (makesKey 27)).disk) .secrets =
      some (keyText "irori-key") := by
  have hkey : "irori-key" ∈ ["irori-key", "other-key"] := List.mem_cons_self
  obtain ⟨hlooks, hsmoothly⟩ := goes_looksTwice ⟨true, 2, 1000⟩ "irori-key"
  obtain ⟨hwrites, hsmoothly'⟩ := goes_writes (d := emptyDisk) 2 hkey nofun
  obtain ⟨hplaces, hsmoothly''⟩ := goes_places emptyDisk "irori-key" 2
  rw [← hwrites] at hplaces hsmoothly''
  have hall : Smoothly keyFormat ⟨true, 2, 1000⟩ (18 + (5 + 4))
      (emptyDisk, ⟨Store.new keyFormat, .keyOrMake "irori-key", .looking File.all⟩) := by
    refine smoothly_add hsmoothly ?_
    rw [hlooks]
    exact smoothly_add hsmoothly' hsmoothly''
  have hself : ((World.start keyFormat emptyDisk).workers.insert 1
      ⟨Store.new keyFormat, .keyOrMake "irori-key", .looking File.all⟩)[1]? =
        some ⟨Store.new keyFormat, .keyOrMake "irori-key", .looking File.all⟩ := by
    rw [Map.get_insert, if_pos rfl]
  have hdisk : (worldAfter emptyDisk (makesKey 27)).disk =
      (writtenBeside emptyDisk .secrets (keyText "irori-key").toList 2).rename
        (.writing .secrets) (.file .secrets) := by
    have hrun := disk_foldl_go (x := ⟨emptyDisk, _⟩) (by decide) hself hall
    rw [goes_add 18 (5 + 4), hlooks, goes_add 5 4, hplaces] at hrun
    rw [worldAfter, makesKey, List.foldl_cons, start_ask]
    exact hrun
  refine ⟨⟨trivial, ?_⟩, ?_⟩
  · rw [start_ask]
    exact all_go undisturbed_asked hself hall
  · rw [hdisk, textOf_filesOf content_placed, String.ofList_toList]

def nextPlaced (x : World κ) (n : Nat) : Option File :=
  x.workers[n]?.bind fun w => match w.stage with
    | .placing _ (file :: _) _ => some file
    | _ => none

lemma isSome_of_buildsOn (h : x.BuildsOn format (.go n chance))
    (hfile : nextPlaced x n = some file) (hworks : chance.works = true) :
    (contentsOf format (filesOf x.disk) file).isSome = true := by
  obtain ⟨w, hw, hstage⟩ := Option.bind_eq_some_iff.1 hfile
  simp only [World.BuildsOn, hw] at h
  split at hstage
  · next hplacing =>
    cases hstage
    simp only [hplacing] at h
    obtain ⟨said, hsaid, -⟩ := h hworks
    rw [hsaid]
    rfl
  · cases hstage

lemma all_append {p : World κ → WorldEvent κ → Prop} {event : WorldEvent κ}
    {before events : List (WorldEvent κ)} (hevents : events = before ++ [event])
    (h : x.All format p events) :
    p (before.foldl (fun x event => x.after format event) x) event := by
  subst hevents
  induction before generalizing x with
  | nil => exact h.1
  | cons other before ih => exact ih h.2

lemma not_buildsOn_of_nextPlaced {count : Nat}
    (h : nextPlaced (worldAfter d (makesKey count)) 1 = some file ∧
      (contentsOf keyFormat (filesOf (worldAfter d (makesKey count)).disk) file).isSome = false) :
    ¬ (World.start keyFormat d).All keyFormat (fun x => x.BuildsOn keyFormat)
      (makesKey (count + 1)) := by
  intro hall
  have hevents : makesKey (count + 1) = makesKey count ++ [.go 1 ⟨true, 2, 1000⟩] := by
    rw [makesKey, makesKey, List.replicate_succ', List.cons_append]
  have hbuilds : (worldAfter d (makesKey count)).BuildsOn keyFormat
      (.go 1 ⟨true, 2, 1000⟩) := all_append hevents hall
  have hbroken := h.2
  rw [isSome_of_buildsOn hbuilds h.1 rfl] at hbroken
  cases hbroken

lemma contentsOf_brokenDisk : contentsOf keyFormat (filesOf brokenDisk) .secrets = none := by
  have hnone : (contentsOf keyFormat (filesOf brokenDisk) .secrets).isNone = true := by
    decide
  exact Option.isNone_iff_eq_none.1 hnone

lemma content_secrets_brokenDisk (text : List Char) :
    (writtenBeside brokenDisk .secrets text 2).content (.file .secrets) =
      brokenDisk.content (.file .secrets) := rfl

lemma goes_brokenDisk {key : String} : goes keyFormat chance 20
      (brokenDisk, ⟨Store.new keyFormat, .keyOrMake key, .looking File.all⟩) =
        (brokenDisk, comparing key) := by
  have hlook : ∀ op : Op fun _ => Unit, goes keyFormat chance 9
      (brokenDisk, ⟨Store.new keyFormat, op, .looking File.all⟩) =
        (brokenDisk, ⟨Store.new keyFormat, op, .looking []⟩) := by
    intro op
    have hbefore : goes keyFormat chance 5
        (brokenDisk, ⟨Store.new keyFormat, op, .looking File.all⟩) =
          (brokenDisk, ⟨Store.new keyFormat, op, .looking [.secrets, .home, .users]⟩) :=
      @goes_looking _ keyFormat _ _ _ _ [.irori, .areas, .floorplan, .devices, .entities] _
        fun file hfile => by fin_cases hfile <;> rfl
    have hbroken : goes keyFormat chance 2
        (brokenDisk, ⟨Store.new keyFormat, op, .looking [.secrets, .home, .users]⟩) =
          (brokenDisk, ⟨Store.new keyFormat, op, .looking [.home, .users]⟩) :=
      goes_unread (show look (filesOf brokenDisk) .secrets ≠ none from nofun) contentsOf_brokenDisk
    have hafter : goes keyFormat chance 2
        (brokenDisk, ⟨Store.new keyFormat, op, .looking [.home, .users]⟩) =
          (brokenDisk, ⟨Store.new keyFormat, op, .looking []⟩) :=
      @goes_looking _ keyFormat _ _ _ _ [.home, .users] _
        fun file hfile => by fin_cases hfile <;> rfl
    rw [goes_add 5 4, hbefore, goes_add 2 2, hbroken, hafter]
  exact (goes_keyOrMake hlook).1

lemma worldAfter_makesKey (hbusy : World.isIdle (goes keyFormat ⟨true, 2, 1000⟩ k
      (d, ⟨Store.new keyFormat, .keyOrMake "irori-key", .looking File.all⟩)).2.stage = false) :
    worldAfter d (makesKey k) = ⟨(goes keyFormat ⟨true, 2, 1000⟩ k
        (d, ⟨Store.new keyFormat, .keyOrMake "irori-key", .looking File.all⟩)).1,
      (World.start keyFormat d).workers.insert 1 (goes keyFormat ⟨true, 2, 1000⟩ k
        (d, ⟨Store.new keyFormat, .keyOrMake "irori-key", .looking File.all⟩)).2⟩ := by
  have hself : ((World.start keyFormat d).workers.insert 1
      ⟨Store.new keyFormat, .keyOrMake "irori-key", .looking File.all⟩)[1]? =
        some ⟨Store.new keyFormat, .keyOrMake "irori-key", .looking File.all⟩ := by
    rw [Map.get_insert, if_pos rfl]
  rw [worldAfter, makesKey, List.foldl_cons, start_ask]
  exact (foldl_go (x := ⟨d, _⟩) hself hbusy).trans (congrArg (World.mk _) insert_insert)

lemma nextPlaced_brokenDisk : nextPlaced (worldAfter brokenDisk (makesKey 25)) 1 = some .secrets ∧
    (contentsOf keyFormat (filesOf (worldAfter brokenDisk (makesKey 25)).disk)
      .secrets).isSome = false := by
  have hcontent : brokenDisk.content (.file .secrets) = some ⟨"[users.passwords\n".toList, 1⟩ := rfl
  have hother : (brokenDisk.content (.file .secrets)).map Inode.text ≠
      some (keyText "irori-key").toList := by
    rw [hcontent, Option.map_some, Ne, Option.some.injEq, String.toList_inj]
    decide
  obtain ⟨hwrites, -⟩ := goes_writes 2 List.mem_cons_self hother
  have hworld := worldAfter_makesKey (k := 20 + 5) (d := brokenDisk) (by
    rw [goes_add, goes_brokenDisk, hwrites]
    rfl)
  rw [goes_add, goes_brokenDisk, hwrites] at hworld
  refine ⟨?_, ?_⟩
  · rw [hworld, nextPlaced, Map.get_insert, if_pos rfl]
    rfl
  · have hsame : contentsOf keyFormat (filesOf (writtenBeside brokenDisk .secrets
        (keyText "irori-key").toList 2)) .secrets =
          contentsOf keyFormat (filesOf brokenDisk) .secrets :=
      contentsOf_congr (content_secrets_brokenDisk _)
    rw [hworld, hsame, contentsOf_brokenDisk]
    rfl

end

end Irori.Proofs
