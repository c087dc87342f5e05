import Irori.Config.Writers
import Irori.Proofs.Locking

/-!
# Saves and the disk

What a worker relies on at each stage of a reload and a save, what others leave alone, and what a
step of its own keeps.
-/

namespace Irori.Config

variable {κ : File → Type} (format : Format κ)

/-! ### What a worker relies on -/

/-- What a file says would be written as what is held of it. -/
def Agrees (d : Disk Filename) (file : File) (value : Contents κ file) : Prop :=
  ∃ said, contentsOf format (filesOf d) file = some said ∧
    format.write file said = format.write file value

def Op.making : Op κ → Bool
  | .make _ => true
  | _ => false

namespace Worker

variable (w : Worker κ)

/-- The files a worker relies on: those it has looked at and may still replace. -/
def holds (file : File) : Bool :=
  match w.stage with
  | .idle => false
  | .looking files => w.op.rewrites.contains file && (w.op.making || !files.contains file)
  | .reading other _ files =>
    w.op.rewrites.contains file && (w.op.making || (!files.contains file && file ≠ other))
  | .comparing s .. | .opening s .. | .writing s .. | .placing s .. => s.files.contains file
  | .settling s todo => if s.later.isEmpty then todo.contains file else s.files.contains file

def opens : List File :=
  match w.stage with
  | .comparing _ _ prepared | .opening _ _ _ prepared | .placing _ _ prepared => prepared
  | .writing _ file _ _ _ _ prepared => file :: prepared
  | _ => []

end Worker

/-- What TOML gives: what is read, and what a part holds that was never read, can be written and
read back, and an empty file is one that says nothing. -/
structure Lawful where
  valid : (file : File) → Contents κ file → Prop
  read_valid : ∀ file text value, format.read file text = .ok value → valid file value
  blank_valid : ∀ file, valid file (format.blank file)
  empty : ∀ file, ∃ value, format.read file "" = .ok value ∧
    format.write file value = format.write file (format.blank file)
  written : ∀ file value, valid file value →
    ∃ value', format.read file (format.write file value) = .ok value' ∧
      format.write file value' = format.write file value

/-- An edit makes of what can be written what can be written. -/
def Edit.Keeps {format : Format κ} (law : Lawful format) (e : Edit κ) : Prop :=
  ∀ values, (∀ file, law.valid file (values file)) → ∀ goal groups,
    e.change values = .ok (goal, groups) → ∀ file ∈ groups.flatten, law.valid file (goal file)

def Op.Keeps {format : Format κ} (law : Lawful format) : Op κ → Prop
  | .edit e => e.Keeps law
  | .keyOrMake fresh | .make fresh => (Backup.setSecret Backup.key fresh).Keeps law
  | .reload => True

def WorldEvent.Keeps {format : Format κ} (law : Lawful format) : WorldEvent κ → Prop
  | .ask _ op => op.Keeps law
  | _ => True

end Irori.Config

namespace Irori.Proofs
open Irori Config

variable {κ : File → Type} {format : Format κ} {law : Lawful format} {d d' : Disk Filename}
  {w : Worker κ} {file : File} {s : Saving κ} {x : World κ} {n : Nat} {chance : Chance}

/-! ### A worker and the disk -/

structure Halfway (law : Lawful format) (d : Disk Filename) (store : Store κ) (s : Saving κ)
    (todo prepared : List File) : Prop where
  held : ∀ file ∈ s.files, Agrees format d file (store file).value
  once : s.files.Nodup
  parts : (prepared ++ todo).Nodup
  inside : ∀ file ∈ prepared ++ todo, file ∈ s.group
  ready : ∀ file ∈ prepared,
    (d.content (.writing file)).map Inode.text = some (s.text format file)
  rest : ∀ file ∈ s.group, file ∉ prepared ++ todo → Agrees format d file (s.goal file)
  valid : ∀ file ∈ s.files, law.valid file (s.goal file) ∧ law.valid file (s.base file)

structure Placing (law : Lawful format) (d : Disk Filename) (store : Store κ) (s : Saving κ)
    (todo prepared : List File) : Prop where
  held : ∀ file ∈ s.files, file ∉ s.group ∨ file ∈ todo →
    Agrees format d file (store file).value
  once : s.files.Nodup
  parts : todo.Nodup
  inside : ∀ file ∈ todo, file ∈ prepared
  group : ∀ file ∈ prepared, file ∈ s.group
  ready : ∀ file ∈ todo,
    (d.content (.writing file)).map Inode.text = some (s.text format file)
  rest : ∀ file ∈ s.group, file ∉ todo → Agrees format d file (s.goal file)
  valid : ∀ file ∈ s.files, law.valid file (s.goal file) ∧ law.valid file (s.base file)

structure Placed (law : Lawful format) (d : Disk Filename) (store : Store κ) (s : Saving κ)
    (todo : List File) : Prop where
  held : ∀ file ∈ todo, Agrees format d file (store file).value
  later : s.later ≠ [] → ∀ file ∈ s.files, Agrees format d file (store file).value
  once : s.files.Nodup
  inside : ∀ file ∈ todo, file ∈ s.group
  valid : ∀ file ∈ s.files, law.valid file (s.goal file) ∧ law.valid file (s.base file)

def InStage (law : Lawful format) (d : Disk Filename) (w : Worker κ) : Prop :=
  match w.stage with
  | .idle => True
  | .looking files => ∀ file ∈ w.op.rewrites, file ∉ files →
    Agrees format d file (w.store file).value
  | .reading other _ files => ∀ file ∈ w.op.rewrites, file ∉ files → file ≠ other →
    Agrees format d file (w.store file).value
  | .comparing s todo prepared => Halfway law d w.store s todo prepared
  | .opening s file todo prepared => Halfway law d w.store s (file :: todo) prepared
  | .writing s file i written rest todo prepared =>
    Halfway law d w.store s (file :: todo) prepared ∧ d.names (.writing file) = some i ∧
      (d.inodes i).text = written ∧ written ++ rest = s.text format file
  | .placing s todo prepared => Placing law d w.store s todo prepared
  | .settling s todo => Placed law d w.store s todo

structure Suits (law : Lawful format) (d : Disk Filename) (w : Worker κ) : Prop where
  current : ∀ file, look (filesOf d) file = (w.store file).seen →
    Agrees format d file (w.store file).value
  valid : ∀ file, law.valid file (w.store file).value
  keeps : w.op.Keeps law
  stage : InStage law d w

lemma look_congr (h : d'.content (.file file) = d.content (.file file)) :
    look (filesOf d') file = look (filesOf d) file := by
  rw [look, look, filesOf, filesOf, h]

lemma contentsOf_congr (h : d'.content (.file file) = d.content (.file file)) :
    contentsOf format (filesOf d') file = contentsOf format (filesOf d) file := by
  rw [contentsOf, contentsOf, textOf, textOf, filesOf, filesOf, h]

lemma agrees_congr {value : Contents κ file} (h : Agrees format d file value)
    (hcontent : d'.content (.file file) = d.content (.file file)) :
    Agrees format d' file value := by
  obtain ⟨said, hsaid, hwrite⟩ := h
  exact ⟨said, (contentsOf_congr hcontent).trans hsaid, hwrite⟩

lemma agrees_of_text {value : Contents κ file} (hvalid : law.valid file value)
    (htext : (d.content (.file file)).map Inode.text = some (format.write file value).toList) :
    Agrees format d file value := by
  obtain ⟨inode, hinode, htext⟩ := Option.map_eq_some_iff.1 htext
  obtain ⟨value', hread, hwrite⟩ := law.written file value hvalid
  refine ⟨value', ?_, hwrite⟩
  simp only [contentsOf, textOf, filesOf, hinode, Option.map_some, Written.of, Option.bind_some]
  rw [htext, String.ofList_toList, hread]
  rfl

lemma current_blank (law : Lawful format)
    (h : look (filesOf d) file = (Store.new format file).seen) :
    Agrees format d file (Store.new format file).value := by
  have hnone : d.content (.file file) = none := by
    simpa [look, Store.new, filesOf] using h
  obtain ⟨value, hread, hwrite⟩ := law.empty file
  refine ⟨value, ?_, hwrite⟩
  simp only [contentsOf, textOf, filesOf, hnone, Option.map_none, Option.bind_some, hread]
  rfl

/-! ### What others leave alone -/

/-- What a change of the disk leaves to a worker: the files it relies on, those it has opened, and
for every file the look of it, or a new one. -/
structure Spared (d d' : Disk Filename) (w : Worker κ) : Prop where
  held : ∀ file, w.holds file = true → d'.content (.file file) = d.content (.file file)
  opened : ∀ file ∈ w.opens, d'.names (.writing file) = d.names (.writing file) ∧
    d'.content (.writing file) = d.content (.writing file)
  seen : ∀ file, d'.content (.file file) = d.content (.file file) ∨
    look (filesOf d') file ≠ (w.store file).seen

lemma mem_files_of_group (h : file ∈ s.group) : file ∈ s.files := by
  simp [Saving.files, h]

lemma Halfway.frame {todo prepared : List File} (h : Halfway law d w.store s todo prepared)
    (hheld : ∀ file ∈ s.files, d'.content (.file file) = d.content (.file file))
    (hopened : ∀ file ∈ prepared, d'.content (.writing file) = d.content (.writing file)) :
    Halfway law d' w.store s todo prepared where
  held file hfile := agrees_congr (h.held file hfile) (hheld file hfile)
  once := h.once
  parts := h.parts
  inside := h.inside
  ready file hfile := (congrArg _ (hopened file hfile)).trans (h.ready file hfile)
  rest file hgroup hfile :=
    agrees_congr (h.rest file hgroup hfile) (hheld file (mem_files_of_group hgroup))
  valid := h.valid

lemma Placing.frame {todo prepared : List File} (h : Placing law d w.store s todo prepared)
    (hheld : ∀ file ∈ s.files, d'.content (.file file) = d.content (.file file))
    (hopened : ∀ file ∈ prepared, d'.content (.writing file) = d.content (.writing file)) :
    Placing law d' w.store s todo prepared where
  held file hfile hpart := agrees_congr (h.held file hfile hpart) (hheld file hfile)
  once := h.once
  parts := h.parts
  inside := h.inside
  group := h.group
  ready file hfile :=
    (congrArg _ (hopened file (h.inside file hfile))).trans (h.ready file hfile)
  rest file hgroup hfile :=
    agrees_congr (h.rest file hgroup hfile) (hheld file (mem_files_of_group hgroup))
  valid := h.valid

lemma Placed.frame {todo : List File} (h : Placed law d w.store s todo)
    (hheld : ∀ file ∈ todo, d'.content (.file file) = d.content (.file file))
    (hlater : s.later ≠ [] → ∀ file ∈ s.files,
      d'.content (.file file) = d.content (.file file)) : Placed law d' w.store s todo where
  held file hfile := agrees_congr (h.held file hfile) (hheld file hfile)
  later hmore file hfile := agrees_congr (h.later hmore file hfile) (hlater hmore file hfile)
  once := h.once
  inside := h.inside
  valid := h.valid

lemma Suits.frame (h : Suits law d w) (hspared : Spared d d' w) : Suits law d' w := by
  refine ⟨fun file hlook => ?_, h.valid, h.keeps, ?_⟩
  · rcases hspared.seen file with hsame | hnew
    · rw [look_congr hsame] at hlook
      exact agrees_congr (h.current file hlook) hsame
    · exact absurd hlook hnew
  have hstage := h.stage
  have hheld := hspared.held
  have hopened := hspared.opened
  unfold InStage at hstage ⊢
  unfold Worker.holds at hheld
  unfold Worker.opens at hopened
  cases hw : w.stage with
  | idle => trivial
  | looking files =>
    simp only [hw] at hstage hheld ⊢
    intro file hfile hnot
    exact agrees_congr (hstage file hfile hnot) (hheld file (by simp [hfile, hnot]))
  | reading other now files =>
    simp only [hw] at hstage hheld ⊢
    intro file hfile hnot hother
    exact agrees_congr (hstage file hfile hnot hother) (hheld file (by simp [hfile, hnot, hother]))
  | comparing s todo prepared =>
    simp only [hw] at hstage hheld hopened ⊢
    exact hstage.frame (fun file hfile => hheld file (by simpa using hfile))
      fun file hfile => (hopened file hfile).2
  | opening s file todo prepared =>
    simp only [hw] at hstage hheld hopened ⊢
    exact hstage.frame (fun file hfile => hheld file (by simpa using hfile))
      fun file hfile => (hopened file hfile).2
  | writing s file i written rest todo prepared =>
    simp only [hw] at hstage hheld hopened ⊢
    obtain ⟨hhalf, hname, htext, hrest⟩ := hstage
    obtain ⟨hname', hcontent⟩ := hopened file List.mem_cons_self
    refine ⟨hhalf.frame (fun file hfile => hheld file (by simpa using hfile))
      fun file hfile => (hopened file (List.mem_cons_of_mem _ hfile)).2, hname'.trans hname, ?_,
      hrest⟩
    rw [Disk.content, Disk.content, hname', hname, Option.map_some, Option.map_some,
      Option.some.injEq] at hcontent
    rw [hcontent, htext]
  | placing s todo prepared =>
    simp only [hw] at hstage hheld hopened ⊢
    exact hstage.frame (fun file hfile => hheld file (by simpa using hfile))
      fun file hfile => (hopened file hfile).2
  | settling s todo =>
    simp only [hw] at hstage hheld ⊢
    refine hstage.frame (fun file hfile => hheld file ?_) fun hmore file hfile => hheld file ?_
    · split
      · simpa using hfile
      · simpa using mem_files_of_group (hstage.inside file hfile)
    · rw [if_neg (by simpa using hmore)]
      simpa using hfile

lemma holds_of_opens (h : Suits law d w) (hfile : file ∈ w.opens) : w.holds file = true := by
  have hstage := h.stage
  unfold InStage at hstage
  unfold Worker.opens at hfile
  unfold Worker.holds
  cases hw : w.stage with
  | idle => simp [hw] at hfile
  | looking files => simp [hw] at hfile
  | reading other now files => simp [hw] at hfile
  | comparing s todo prepared =>
    simp only [hw] at hstage hfile ⊢
    simpa using mem_files_of_group (hstage.inside file (List.mem_append_left _ hfile))
  | opening s other todo prepared =>
    simp only [hw] at hstage hfile ⊢
    simpa using mem_files_of_group (hstage.inside file (List.mem_append_left _ hfile))
  | writing s other i written rest todo prepared =>
    simp only [hw] at hstage hfile ⊢
    have hgroup : file ∈ s.group := by
      rcases List.mem_cons.1 hfile with rfl | hfile
      · exact hstage.1.inside file (by simp)
      · exact hstage.1.inside file (List.mem_append_left _ hfile)
    simpa using mem_files_of_group hgroup
  | placing s todo prepared =>
    simp only [hw] at hstage hfile ⊢
    simpa using mem_files_of_group (hstage.group file hfile)
  | settling s todo => simp [hw] at hfile

/-! ### What each change of the disk spares -/

lemma spared_refl : Spared d d w :=
  ⟨fun _ _ => rfl, fun _ _ => ⟨rfl, rfl⟩, fun _ => Or.inl rfl⟩

lemma spared_create {time : Nat} (hwhole : d.Whole) (hfile : file ∉ w.opens) :
    Spared d (d.create (.writing file) time) w := by
  have hsame : ∀ other, (d.create (.writing file) time).content (.file other) =
      d.content (.file other) := fun other => Disk.content_create_of_ne hwhole (by simp)
  refine ⟨fun other _ => hsame other, fun other hother => ?_, fun other => Or.inl (hsame other)⟩
  have hne : Filename.writing other ≠ .writing file := by
    rintro ⟨rfl⟩
    exact hfile hother
  exact ⟨Disk.names_create_of_ne hne, Disk.content_create_of_ne hwhole hne⟩

lemma spared_write {i offset time : Nat} {piece : List Char} (hwhole : d.Whole)
    (hname : d.names (.writing file) = some i) (hfile : file ∉ w.opens) :
    Spared d (d.write i offset piece time) w := by
  have hsame : ∀ other, (d.write i offset piece time).content (.file other) =
      d.content (.file other) :=
    fun other => Disk.content_write_of_ne hwhole hname (by simp)
  refine ⟨fun other _ => hsame other, fun other hother => ?_, fun other => Or.inl (hsame other)⟩
  have hne : Filename.writing other ≠ .writing file := by
    rintro ⟨rfl⟩
    exact hfile hother
  exact ⟨rfl, Disk.content_write_of_ne hwhole hname hne⟩

def lookOf (inode : Inode) : Seen :=
  (Written.of (String.ofList inode.text) (some inode.modified)).seen

lemma look_eq (d : Disk Filename) (file : File) :
    look (filesOf d) file = (d.content (.file file)).map lookOf := by
  rw [look, filesOf, Option.map_map]
  rfl

lemma spared_place (hheld : w.holds file = false) (hopened : file ∉ w.opens)
    (hnew : (d.content (.writing file)).map lookOf ≠ (w.store file).seen) :
    Spared d (d.rename (.writing file) (.file file)) w := by
  have hsame : ∀ other, other ≠ file →
      (d.rename (.writing file) (.file file)).content (.file other) = d.content (.file other) :=
    fun other hne => Disk.content_rename_of_ne (by simp) (by simpa using hne)
  refine ⟨fun other hother => hsame other ?_, fun other hother => ?_, fun other => ?_⟩
  · rintro rfl
    rw [hheld] at hother
    cases hother
  · have hne : Filename.writing other ≠ .writing file := by
      rintro ⟨rfl⟩
      exact hopened hother
    exact ⟨Disk.names_rename_of_ne hne (by simp), Disk.content_rename_of_ne hne (by simp)⟩
  · by_cases hother : other = file
    · subst hother
      rw [look_eq, Disk.content_rename_target (by simp)]
      exact Or.inr hnew
    · exact Or.inl (hsame other hother)

lemma spared_replace {inode : Inode} (hwhole : d.Whole) (hheld : w.holds file = false)
    (hnew : some (lookOf inode) ≠ (w.store file).seen) :
    Spared d (d.replace (.file file) inode) w := by
  have hsame : ∀ other, other ≠ file →
      (d.replace (.file file) inode).content (.file other) = d.content (.file other) :=
    fun other hne => Disk.content_replace_of_ne hwhole (by simpa using hne)
  refine ⟨fun other hother => hsame other ?_, fun other _ => ?_, fun other => ?_⟩
  · rintro rfl
    rw [hheld] at hother
    cases hother
  · exact ⟨Disk.names_replace_of_ne (by simp), Disk.content_replace_of_ne hwhole (by simp)⟩
  · by_cases hother : other = file
    · subst hother
      rw [look_eq, Disk.content_replace_self]
      exact Or.inr hnew
    · exact Or.inl (hsame other hother)

lemma discard_whole {prepared : List File} (hwhole : d.Whole) : (discard d prepared).Whole := by
  unfold Config.discard
  induction prepared generalizing d with
  | nil => exact hwhole
  | cons file prepared ih => exact ih (hwhole.remove _)

lemma names_discard {prepared : List File} {name : Filename}
    (h : ∀ file ∈ prepared, name ≠ .writing file) :
    (discard d prepared).names name = d.names name ∧
      (discard d prepared).content name = d.content name := by
  unfold Config.discard
  induction prepared generalizing d with
  | nil => exact ⟨rfl, rfl⟩
  | cons file prepared ih =>
    have hne := h file List.mem_cons_self
    obtain ⟨hnames, hcontent⟩ :=
      ih (d := d.remove (.writing file)) fun other hother => h other (List.mem_cons_of_mem _ hother)
    exact ⟨hnames.trans (Disk.names_remove_of_ne hne),
      hcontent.trans (Disk.content_remove_of_ne hne)⟩

lemma content_discard {prepared : List File} (file : File) :
    (discard d prepared).content (.file file) = d.content (.file file) :=
  (names_discard fun _ _ => by simp).2

lemma spared_discard {prepared : List File} (h : ∀ file ∈ prepared, file ∉ w.opens) :
    Spared d (discard d prepared) w := by
  refine ⟨fun other _ => content_discard other, fun other hother => ?_,
    fun other => Or.inl (content_discard other)⟩
  refine names_discard fun file hfile => ?_
  rintro ⟨rfl⟩
  exact h other hfile hother

/-! ### A worker's own step -/

lemma Suits.failed (h : Suits law d w) (hdone : ∀ file ∈ s.done, Agrees format d file
    (w.store file).value) (honce : s.files.Nodup)
    (hvalid : ∀ file ∈ s.files, law.valid file (s.goal file) ∧ law.valid file (s.base file)) :
    Suits law d (w.failed s) := by
  unfold Worker.failed
  split
  · exact ⟨h.current, h.valid, h.keeps, trivial⟩
  · have hnodup : s.done.Nodup := by
      rw [Saving.files, List.append_assoc] at honce
      exact honce.of_append_left
    have hbase : ∀ file ∈ s.done, law.valid file (s.base file) := fun file hfile =>
      (hvalid file (by simp [Saving.files, hfile])).2
    refine ⟨h.current, h.valid, h.keeps, ?_⟩
    exact {
      held := fun file hfile => hdone file (by simpa [Saving.files] using hfile)
      once := by simpa [Saving.files] using hnodup
      parts := by simpa using hnodup
      inside := fun file hfile => by simpa using hfile
      ready := fun file hfile => by cases hfile
      rest := fun file hgroup hfile => absurd hgroup (by simpa using hfile)
      valid := fun file hfile => by
        have hfile : file ∈ s.done := by simpa [Saving.files] using hfile
        exact ⟨hbase file hfile, hbase file hfile⟩ }

lemma Suits.discarded {prepared : List File} (h : Suits law d w)
    (hdone : ∀ file ∈ s.done, Agrees format d file (w.store file).value)
    (honce : s.files.Nodup)
    (hvalid : ∀ file ∈ s.files, law.valid file (s.goal file) ∧ law.valid file (s.base file)) :
    Suits law (discard d prepared) (w.failed s) := by
  have hidle : Suits law (discard d prepared) (w.at_ .idle) := by
    refine ⟨fun file hlook => ?_, h.valid, h.keeps, trivial⟩
    rw [look_congr (content_discard file)] at hlook
    exact agrees_congr (h.current file hlook) (content_discard file)
  have hfailed := hidle.failed (s := s)
    (fun file hfile => agrees_congr (hdone file hfile) (content_discard file)) honce hvalid
  unfold Worker.failed at hfailed ⊢
  split at hfailed
  · next hnone =>
    rw [if_pos hnone]
    exact hfailed
  · next hsome =>
    rw [if_neg hsome]
    exact hfailed

lemma Suits.begin_ {e : Edit κ} (h : Suits law d w) (hkeeps : e.Keeps law)
    (hheld : ∀ file ∈ e.rewrites, Agrees format d file (w.store file).value) :
    Suits law d (w.begin_ e) := by
  unfold Worker.begin_
  split
  · next goal group later hchange =>
    obtain ⟨hnodup, hinside⟩ := e.inside _ _ _ hchange
    refine ⟨h.current, h.valid, h.keeps, ?_⟩
    exact {
      held := fun file hfile => hheld file (hinside file (by simpa [Saving.files] using hfile))
      once := by simpa [Saving.files] using hnodup
      parts := by
        rw [List.flatten_cons] at hnodup
        simpa using hnodup.of_append_left
      inside := fun file hfile => by simpa using hfile
      ready := fun file hfile => by cases hfile
      rest := fun file hgroup hfile => absurd hgroup (by simpa using hfile)
      valid := fun file hfile => ⟨hkeeps _ h.valid _ _ hchange file
        (by simpa [Saving.files] using hfile), h.valid file⟩ }
  · exact ⟨h.current, h.valid, h.keeps, trivial⟩

lemma Suits.reloaded (h : Suits law d w) (hstage : w.stage = .looking []) :
    Suits law d (w.reloaded format) := by
  have hheld : ∀ file ∈ w.op.rewrites, Agrees format d file (w.store file).value := by
    have hlooked := h.stage
    rw [InStage, hstage] at hlooked
    exact fun file hfile => hlooked file hfile (by simp)
  have hkeeps := h.keeps
  unfold Worker.reloaded
  cases hop : w.op with
  | reload => exact ⟨h.current, h.valid, h.keeps, trivial⟩
  | edit e =>
    rw [hop] at hheld hkeeps
    exact h.begin_ hkeeps hheld
  | make fresh =>
    rw [hop] at hheld hkeeps
    exact h.begin_ hkeeps hheld
  | keyOrMake fresh =>
    rw [hop] at hkeeps
    dsimp only
    split
    · exact ⟨h.current, h.valid, h.keeps, trivial⟩
    · refine ⟨fun file hlook => current_blank law hlook, law.blank_valid, hkeeps, ?_⟩
      intro file _ hfile
      exact absurd (by cases file <;> decide) hfile

lemma Suits.looks {files : List File} (h : Suits law d w) (hstage : w.stage = .looking (file :: files))
    (hseen : look (filesOf d) file = (w.store file).seen) :
    Suits law d (w.at_ (.looking files)) := by
  refine ⟨h.current, h.valid, h.keeps, fun other hother hnot => ?_⟩
  have hlooked := h.stage
  rw [InStage, hstage] at hlooked
  by_cases hfile : other = file
  · subst hfile
    exact h.current other hseen
  · exact hlooked other hother (by simp [hfile, hnot])

lemma Suits.looksNew {files : List File} {now : Option Seen} (h : Suits law d w)
    (hstage : w.stage = .looking (file :: files)) :
    Suits law d (w.at_ (.reading file now files)) := by
  refine ⟨h.current, h.valid, h.keeps, fun other hother hnot hne => ?_⟩
  have hlooked := h.stage
  rw [InStage, hstage] at hlooked
  exact hlooked other hother (by simp [hne, hnot])

lemma Suits.holdRead {files : List File} {now seen : Option Seen} {value : Contents κ file}
    (h : Suits law d w) (hstage : w.stage = .reading file now files)
    (hvalue : contentsOf format (filesOf d) file = some value) :
    Suits law d ⟨w.store.put file ⟨value, seen⟩, w.op, .looking files⟩ := by
  have hlooked := h.stage
  rw [InStage, hstage] at hlooked
  have hself : Agrees format d file (w.store.put file ⟨value, seen⟩ file).value := by
    rw [put_self]
    exact ⟨value, hvalue, rfl⟩
  have hvalid : law.valid file value := by
    obtain ⟨text, -, hread⟩ := Option.bind_eq_some_iff.1 hvalue
    cases hparse : format.read file text with
    | error e => simp [hparse, Except.toOption] at hread
    | ok v =>
      simp only [hparse, Except.toOption, Option.some.injEq] at hread
      exact hread ▸ law.read_valid file text v hparse
  refine ⟨fun other hlook => ?_, fun other => ?_, h.keeps, fun other hother hnot => ?_⟩
  · by_cases hfile : other = file
    · subst hfile
      exact hself
    · dsimp only at hlook ⊢
      rw [put_of_ne _ hfile] at hlook ⊢
      exact h.current other hlook
  · by_cases hfile : other = file
    · subst hfile
      dsimp only
      rw [put_self]
      exact hvalid
    · dsimp only
      rw [put_of_ne _ hfile]
      exact h.valid other
  · by_cases hfile : other = file
    · subst hfile
      exact hself
    · dsimp only
      rw [put_of_ne _ hfile]
      exact hlooked other hother hnot hfile

lemma Halfway.compared {todo prepared : List File} (h : Halfway law d w.store s (file :: todo) prepared)
    (htext : (d.content (.file file)).map Inode.text = some (s.text format file)) :
    Halfway law d w.store s todo prepared where
  held := h.held
  once := h.once
  parts := (List.nodup_middle.1 h.parts).of_cons
  inside other hother := h.inside other (by
    rcases List.mem_append.1 hother with hother | hother
    · exact List.mem_append_left _ hother
    · exact List.mem_append_right _ (List.mem_cons_of_mem _ hother))
  ready := h.ready
  rest other hgroup hother := by
    by_cases hfile : other = file
    · subst hfile
      exact agrees_of_text (h.valid other (mem_files_of_group hgroup)).1 htext
    · exact h.rest other hgroup (by simpa [hfile] using hother)
  valid := h.valid

lemma Halfway.prepared {todo prepared : List File} (h : Halfway law d w.store s (file :: todo) prepared)
    (htext : (d.content (.writing file)).map Inode.text = some (s.text format file)) :
    Halfway law d w.store s todo (prepared ++ [file]) where
  held := h.held
  once := h.once
  parts := by simpa using h.parts
  inside := by simpa using h.inside
  ready other hother := by
    rcases List.mem_append.1 hother with hother | hother
    · exact h.ready other hother
    · rw [List.mem_singleton.1 hother]
      exact htext
  rest other hgroup hother := h.rest other hgroup (by simpa using hother)
  valid := h.valid

lemma Halfway.placing {prepared : List File} (h : Halfway law d w.store s [] prepared) :
    Placing law d w.store s prepared prepared where
  held file hfile _ := h.held file hfile
  once := h.once
  parts := by simpa using h.parts
  inside _ hfile := hfile
  group file hfile := h.inside file (by simpa using hfile)
  ready := h.ready
  rest file hgroup hfile := h.rest file hgroup (by simpa using hfile)
  valid := h.valid

lemma Placing.place {todo prepared : List File} (h : Placing law d w.store s (file :: todo) prepared) :
    Placing law (d.rename (.writing file) (.file file)) w.store s todo prepared := by
  obtain ⟨hnot, htodo⟩ := List.nodup_cons.1 h.parts
  have hgroup : file ∈ s.group := h.group file (h.inside file List.mem_cons_self)
  have hsame : ∀ other, other ≠ file →
      (d.rename (.writing file) (.file file)).content (.file other) = d.content (.file other) :=
    fun other hne => Disk.content_rename_of_ne (by simp) (by simpa using hne)
  refine ⟨fun other hother hpart => ?_, h.once, htodo,
    fun other hother => h.inside other (List.mem_cons_of_mem _ hother), h.group,
    fun other hother => ?_, fun other hother hnot' => ?_, h.valid⟩
  · refine agrees_congr (h.held other hother
      (hpart.imp_right fun hother => List.mem_cons_of_mem _ hother)) (hsame other ?_)
    rintro rfl
    exact hpart.elim (fun hpart => hpart hgroup) hnot
  · have hne : Filename.writing other ≠ .writing file := by
      rintro ⟨rfl⟩
      exact hnot hother
    rw [Disk.content_rename_of_ne hne (by simp)]
    exact h.ready other (List.mem_cons_of_mem _ hother)
  · by_cases hfile : other = file
    · subst hfile
      refine agrees_of_text (h.valid other (mem_files_of_group hgroup)).1 ?_
      rw [Disk.content_rename_target (by simp)]
      exact h.ready other List.mem_cons_self
    · refine agrees_congr (h.rest other hother ?_) (hsame other hfile)
      simp [hfile, hnot']

lemma Suits.holdGoal {prepared : List File} (h : Suits law d w)
    (hstage : w.stage = .placing s [] prepared) :
    Suits law d ((w.holdGoal s).at_ (.settling s s.group)) := by
  have hplacing := h.stage
  rw [InStage, hstage] at hplacing
  have hagrees : ∀ file ∈ s.files,
      Agrees format d file ((w.holdGoal s).store file).value := by
    intro file hfile
    simp only [Worker.holdGoal]
    split
    · next hgroup => exact hplacing.rest file hgroup (by simp)
    · next hgroup => exact hplacing.held file hfile (Or.inl hgroup)
  refine ⟨fun file hlook => ?_, fun file => ?_, h.keeps, ?_⟩
  · by_cases hgroup : file ∈ s.group
    · exact hagrees file (mem_files_of_group hgroup)
    · simp only [Worker.at_, Worker.holdGoal, if_neg hgroup] at hlook ⊢
      exact h.current file hlook
  · simp only [Worker.at_, Worker.holdGoal]
    split
    · next hgroup => exact (hplacing.valid file (mem_files_of_group hgroup)).1
    · exact h.valid file
  · exact ⟨fun file hfile => hagrees file (mem_files_of_group hfile),
      fun _ file hfile => hagrees file hfile, hplacing.once, fun _ hfile => hfile,
      hplacing.valid⟩

lemma Suits.settles {todo : List File} {seen : Option Seen} (h : Suits law d w)
    (hstage : w.stage = .settling s (file :: todo)) :
    Suits law d ⟨w.store.put file ⟨(w.store file).value, seen⟩, w.op, .settling s todo⟩ := by
  have hplaced := h.stage
  rw [InStage, hstage] at hplaced
  have hvalue : ∀ other, (w.store.put file ⟨(w.store file).value, seen⟩ other).value =
      (w.store other).value := by
    intro other
    by_cases hfile : other = file
    · subst hfile
      rw [put_self]
    · rw [put_of_ne _ hfile]
  refine ⟨fun other hlook => ?_, fun other => ?_, h.keeps, fun other hother => ?_,
    fun hmore other hother => ?_, hplaced.once,
    fun other hother => hplaced.inside other (List.mem_cons_of_mem _ hother), hplaced.valid⟩
  · dsimp only
    rw [hvalue]
    by_cases hfile : other = file
    · subst hfile
      exact hplaced.held other List.mem_cons_self
    · dsimp only at hlook
      rw [put_of_ne _ hfile] at hlook
      exact h.current other hlook
  · dsimp only
    rw [hvalue]
    exact h.valid other
  · dsimp only
    rw [hvalue]
    exact hplaced.held other (List.mem_cons_of_mem _ hother)
  · dsimp only
    rw [hvalue]
    exact hplaced.later hmore other hother

lemma Placed.next {group : List File} {later : List (List File)} (h : Placed law d w.store s [])
    (hlater : s.later = group :: later) :
    Halfway law d w.store { s with group, later, done := s.done ++ s.group } group [] := by
  have hfiles : ({ s with group, later, done := s.done ++ s.group } : Saving κ).files = s.files := by
    simp [Saving.files, hlater]
  have hnodup : group.Nodup := by
    have honce := h.once
    rw [← hfiles, Saving.files] at honce
    exact honce.of_append_left.of_append_right
  exact {
    held := fun file hfile => h.later (by simp [hlater]) file (hfiles ▸ hfile)
    once := hfiles ▸ h.once
    parts := by simpa using hnodup
    inside := fun file hfile => by simpa using hfile
    ready := fun file hfile => by cases hfile
    rest := fun file hgroup hfile => absurd hgroup (by simpa using hfile)
    valid := fun file hfile => h.valid file (hfiles ▸ hfile) }

def Careful (format : Format κ) (d : Disk Filename) (w : Worker κ) (chance : Chance) : Prop :=
  match w.stage with
  | .reading file _ _ => file ∈ w.op.rewrites →
    chance.works = true ∧ (contentsOf format (filesOf d) file).isSome = true
  | .placing _ (file :: _) _ => (d.content (.writing file)).map lookOf ≠ (w.store file).seen
  | _ => True

lemma Suits.go (h : Suits law d w) (hwhole : d.Whole) (hcareful : Careful format d w chance) :
    Suits law (w.go format d chance).1 (w.go format d chance).2 := by
  unfold Careful at hcareful
  have hstage := h.stage
  unfold InStage at hstage
  unfold Worker.go
  cases hw : w.stage with
  | idle => exact h
  | looking files =>
    cases files with
    | nil => exact h.reloaded hw
    | cons file files =>
      dsimp only
      split
      · next hseen => exact h.looks hw hseen
      · exact h.looksNew hw
  | reading file now files =>
    simp only [hw] at hcareful hstage
    dsimp only
    split
    · next value hread =>
      split at hread
      · exact h.holdRead hw hread
      · cases hread
    · next hread =>
      refine ⟨h.current, h.valid, h.keeps, fun other hother hnot => ?_⟩
      by_cases hfile : other = file
      · subst hfile
        obtain ⟨hworks, hsome⟩ := hcareful hother
        rw [if_pos hworks] at hread
        rw [hread] at hsome
        cases hsome
      · exact hstage other hother hnot hfile
  | comparing s todo prepared =>
    simp only [hw] at hstage
    cases todo with
    | nil => exact ⟨h.current, h.valid, h.keeps, hstage.placing⟩
    | cons file todo =>
      dsimp only
      split
      · next htext => exact ⟨h.current, h.valid, h.keeps, hstage.compared htext⟩
      · exact ⟨h.current, h.valid, h.keeps, hstage⟩
  | opening s file todo prepared =>
    simp only [hw] at hstage
    dsimp only
    split
    · have hnot : file ∉ prepared := by
        have hparts := hstage.parts
        rw [List.nodup_middle, List.nodup_cons] at hparts
        exact fun hfile => hparts.1 (List.mem_append_left _ hfile)
      have hsame : ∀ other, (d.create (.writing file) chance.time).content (.file other) =
          d.content (.file other) := fun other => Disk.content_create_of_ne hwhole (by simp)
      refine ⟨fun other hlook => ?_, h.valid, h.keeps, ?_⟩
      · rw [look_congr (hsame other)] at hlook
        exact agrees_congr (h.current other hlook) (hsame other)
      · refine ⟨hstage.frame (fun other _ => hsame other) fun other hother => ?_,
          Disk.names_create_self, ?_, rfl⟩
        · refine Disk.content_create_of_ne hwhole ?_
          rintro ⟨rfl⟩
          exact hnot hother
        · simp [Disk.create]
    · exact h.discarded (fun file hfile => hstage.held file (by simp [Saving.files, hfile]))
        hstage.once hstage.valid
  | writing s file i written rest todo prepared =>
    simp only [hw] at hstage
    obtain ⟨hhalf, hname, htext, hrest⟩ := hstage
    cases rest with
    | nil =>
      refine ⟨h.current, h.valid, h.keeps, hhalf.prepared ?_⟩
      rw [Disk.content, hname, Option.map_some, Option.map_some, htext, ← hrest, List.append_nil]
    | cons c rest =>
      dsimp only
      split
      · have hsame : ∀ name, name ≠ .writing file → (d.write i written.length
            ((c :: rest).take (chance.size + 1)) chance.time).content name = d.content name :=
          fun name hne => Disk.content_write_of_ne hwhole hname hne
        have hnot : file ∉ prepared := by
          have hparts := hhalf.parts
          rw [List.nodup_middle, List.nodup_cons] at hparts
          exact fun hfile => hparts.1 (List.mem_append_left _ hfile)
        refine ⟨fun other hlook => ?_, h.valid, h.keeps, ?_⟩
        · rw [look_congr (hsame _ (by simp))] at hlook
          exact agrees_congr (h.current other hlook) (hsame _ (by simp))
        · refine ⟨hhalf.frame (fun other _ => hsame _ (by simp)) fun other hother => ?_,
            hname, ?_, ?_⟩
          · refine hsame _ ?_
            rintro ⟨rfl⟩
            exact hnot hother
          · subst htext
            simp [Disk.write, Disk.splice_end]
          · rw [List.append_assoc, List.take_append_drop, hrest]
      · exact h.discarded (fun file hfile => hhalf.held file (by simp [Saving.files, hfile]))
          hhalf.once hhalf.valid
  | placing s todo prepared =>
    simp only [hw] at hcareful hstage
    cases todo with
    | nil => exact h.holdGoal hw
    | cons file todo =>
      dsimp only
      split
      · refine ⟨fun other hlook => ?_, h.valid, h.keeps, hstage.place⟩
        by_cases hfile : other = file
        · subst hfile
          rw [look_eq, Disk.content_rename_target (by simp)] at hlook
          exact absurd hlook hcareful
        · have hsame : (d.rename (.writing file) (.file file)).content (.file other) =
              d.content (.file other) :=
            Disk.content_rename_of_ne (by simp) (by simpa using hfile)
          dsimp only [Worker.at_] at hlook ⊢
          rw [look_congr hsame] at hlook
          exact agrees_congr (h.current other hlook) hsame
      · refine h.discarded (fun other hother => ?_) hstage.once hstage.valid
        refine hstage.held other (by simp [Saving.files, hother]) (Or.inl fun hgroup => ?_)
        have honce := hstage.once
        rw [Saving.files, List.append_assoc] at honce
        exact (List.disjoint_of_nodup_append honce) hother (List.mem_append_left _ hgroup)
  | settling s todo =>
    simp only [hw] at hstage
    cases todo with
    | nil =>
      dsimp only
      split
      · exact ⟨h.current, h.valid, h.keeps, trivial⟩
      · next group later hlater => exact ⟨h.current, h.valid, h.keeps, hstage.next hlater⟩
    | cons file todo => exact h.settles hw

lemma go_whole (hwhole : d.Whole) : (w.go format d chance).1.Whole := by
  unfold Worker.go
  cases w.stage with
  | idle => exact hwhole
  | looking files =>
    cases files with
    | nil => exact hwhole
    | cons file files =>
      dsimp only
      split <;> exact hwhole
  | reading file now files =>
    dsimp only
    split <;> exact hwhole
  | comparing s todo prepared =>
    cases todo with
    | nil => exact hwhole
    | cons file todo =>
      dsimp only
      split <;> exact hwhole
  | opening s file todo prepared =>
    dsimp only
    split
    · exact hwhole.create _ _
    · exact discard_whole hwhole
  | writing s file i written rest todo prepared =>
    cases rest with
    | nil => exact hwhole
    | cons c rest =>
      dsimp only
      split
      · exact hwhole.write _ _ _ _
      · exact discard_whole hwhole
  | placing s todo prepared =>
    cases todo with
    | nil => exact hwhole
    | cons file todo =>
      dsimp only
      split
      · exact hwhole.rename _ _
      · exact discard_whole hwhole
  | settling s todo =>
    cases todo with
    | nil =>
      dsimp only
      split <;> exact hwhole
    | cons file todo => exact hwhole

lemma opens_failed : (w.failed s).opens = [] := by
  unfold Worker.failed
  split <;> rfl

lemma opens_begin {e : Edit κ} : (w.begin_ e).opens = [] := by
  unfold Worker.begin_
  split <;> rfl

lemma opens_reloaded : (w.reloaded format).opens = [] := by
  unfold Worker.reloaded
  split
  · rfl
  · exact opens_begin
  · exact opens_begin
  · split <;> rfl

lemma mem_opens_go (h : file ∈ (w.go format d chance).2.opens) :
    file ∈ w.opens ∨ ∃ s todo prepared, w.stage = .opening s file todo prepared := by
  unfold Worker.go at h
  unfold Worker.opens
  cases hw : w.stage with
  | idle =>
    rw [hw] at h
    simp [Worker.opens, hw] at h
  | looking files =>
    cases files with
    | nil =>
      simp only [hw] at h
      rw [opens_reloaded] at h
      cases h
    | cons other files =>
      simp only [hw] at h
      split at h <;> cases h
  | reading other now files =>
    simp only [hw] at h
    split at h <;> cases h
  | comparing s todo prepared =>
    cases todo with
    | nil =>
      rw [hw] at h
      exact Or.inl h
    | cons other todo =>
      simp only [hw] at h
      split at h <;> exact Or.inl h
  | opening s other todo prepared =>
    simp only [hw] at h
    split at h
    · rcases List.mem_cons.1 h with rfl | h
      · exact Or.inr ⟨s, todo, prepared, rfl⟩
      · exact Or.inl h
    · rw [opens_failed] at h
      cases h
  | writing s other i written rest todo prepared =>
    cases rest with
    | nil =>
      rw [hw] at h
      have h : file ∈ prepared ++ [other] := h
      exact Or.inl (by simpa [or_comm] using h)
    | cons c rest =>
      simp only [hw] at h
      split at h
      · exact Or.inl h
      · rw [opens_failed] at h
        cases h
  | placing s todo prepared =>
    cases todo with
    | nil =>
      rw [hw] at h
      cases h
    | cons other todo =>
      simp only [hw] at h
      split at h
      · exact Or.inl h
      · rw [opens_failed] at h
        cases h
  | settling s todo =>
    cases todo with
    | nil =>
      simp only [hw] at h
      split at h <;> cases h
    | cons other todo =>
      rw [hw] at h
      cases h

lemma go_spared {v : Worker κ} (hwhole : d.Whole) (hsuits : Suits law d w) (hother : Suits law d v)
    (hapart : ∀ file ∈ w.opens, file ∉ v.opens)
    (hopening : ∀ s file todo prepared, w.stage = .opening s file todo prepared →
      v.holds file = false)
    (hplacing : ∀ s file todo prepared, w.stage = .placing s (file :: todo) prepared →
      v.holds file = false ∧ (d.content (.writing file)).map lookOf ≠ (v.store file).seen) :
    Spared d (w.go format d chance).1 v := by
  have hstage := hsuits.stage
  unfold InStage at hstage
  unfold Worker.opens at hapart
  unfold Worker.go
  cases hw : w.stage with
  | idle => exact spared_refl
  | looking files =>
    cases files with
    | nil => exact spared_refl
    | cons file files =>
      dsimp only
      split <;> exact spared_refl
  | reading file now files =>
    dsimp only
    split <;> exact spared_refl
  | comparing s todo prepared =>
    cases todo with
    | nil => exact spared_refl
    | cons file todo =>
      dsimp only
      split <;> exact spared_refl
  | opening s file todo prepared =>
    simp only [hw] at hapart
    dsimp only
    split
    · refine spared_create hwhole fun hfile => ?_
      have hheld := holds_of_opens hother hfile
      rw [hopening s file todo prepared hw] at hheld
      cases hheld
    · exact spared_discard hapart
  | writing s file i written rest todo prepared =>
    simp only [hw] at hstage hapart
    cases rest with
    | nil => exact spared_refl
    | cons c rest =>
      dsimp only
      split
      · exact spared_write hwhole hstage.2.1 (hapart file List.mem_cons_self)
      · exact spared_discard hapart
  | placing s todo prepared =>
    simp only [hw] at hstage hapart
    cases todo with
    | nil => exact spared_refl
    | cons file todo =>
      obtain ⟨hheld, hnew⟩ := hplacing s file todo prepared hw
      dsimp only
      split
      · exact spared_place hheld (hapart file (hstage.inside file List.mem_cons_self)) hnew
      · exact spared_discard hapart
  | settling s todo =>
    cases todo with
    | nil =>
      dsimp only
      split <;> exact spared_refl
    | cons file todo => exact spared_refl

end Irori.Proofs
