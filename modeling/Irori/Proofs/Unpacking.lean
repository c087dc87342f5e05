import Irori.Backup.Unpack

/-!
# Unpacking stays in its folder

Whatever the members are called and hold, all that is made is files and folders below the three
roots of the folder, nothing is made twice, and their content is at most a byte more than there is
room for. A backup that unpacks held nothing else, but for global headers, and all of it is there.
-/

namespace Irori.Backup

variable {parse : Bytes → Option Manifest} {dest : Place} {maxBytes : Nat}
  {files : Place → Option Node} {disk disk' : Disk} {u u' : Unpacking} {place : Place}

/-- Below one of the roots of the folder, or such a root. -/
def Below (dest place : Place) : Prop := ∃ first ∈ roots, ∃ rest, place = dest ++ first :: rest

structure Empty (files : Place → Option Node) (dest : Place) : Prop where
  folder : files dest = some .folder
  empty : ∀ place, dest <+: place → place ≠ dest → files place = none

structure Confined (files : Place → Option Node) (dest : Place) (disk : Disk) : Prop where
  kept : ∀ place node, files place = some node → disk.files place = some node
  made : ∀ place node, (place, node) ∈ disk.log ↔
    files place = none ∧ disk.files place = some node
  once : (disk.log.map Prod.fst).Nodup
  below : ∀ entry ∈ disk.log, Below dest entry.1
  plain : ∀ entry ∈ disk.log, entry.2 ≠ .other
  inside : disk.strayed = false

def Disk.written (disk : Disk) : Nat := (disk.log.map fun entry => entry.2.size).sum

def Grows (disk disk' : Disk) : Prop :=
  ∀ place node, disk.files place = some node → disk'.files place = some node

/-- A plain file, all of it there, or a folder below the roots, or a global header. -/
def Unpacked (dest : Place) (disk : Disk) (m : Member) : Prop :=
  m.kind = .xGlobalHeader ∨ ∃ rel, memberPath m.path = .ok rel ∧
    (m.kind = .directory ∧ disk.files (dest ++ rel) = some .folder ∨
      m.kind = .regular ∧ disk.files (dest ++ rel) = some (.file m.content))

def Member.bytes (m : Member) : Nat := if m.kind = .regular then m.content.length else 0

lemma Grows.refl (disk : Disk) : Grows disk disk := fun _ _ h => h

lemma Grows.trans {disk'' : Disk} (h : Grows disk disk') (h' : Grows disk' disk'') :
    Grows disk disk'' := fun place node hnode => h' place node (h place node hnode)

lemma grows_make {node : Node} (hfree : disk.files place = none) :
    Grows disk (disk.make place node) := by
  intro other node' hnode
  have hne : other ≠ place := fun heq => by rw [heq, hfree] at hnode; cases hnode
  show Function.update disk.files place (some node) other = some node'
  rw [Function.update_of_ne hne, hnode]

@[simp] lemma written_make {node : Node} :
    (disk.make place node).written = disk.written + node.size := by
  simp [Disk.written, Disk.make]

@[simp] lemma make_place {node : Node} : (disk.make place node).files place = some node :=
  Function.update_self ..

lemma Confined.make {node : Node} (h : Confined files dest disk) (hfree : disk.files place = none)
    (hbelow : Below dest place) (hplain : node ≠ .other) :
    Confined files dest (disk.make place node) where
  kept := fun other node' hnode => grows_make hfree other node' (h.kept other node' hnode)
  made := by
    intro other node'
    have hnone : files place = none := by
      cases hfiles : files place with
      | none => rfl
      | some there =>
        have hthere := h.kept place there hfiles
        rw [hfree] at hthere
        cases hthere
    show (other, node') ∈ disk.log ++ [(place, node)] ↔
      files other = none ∧ Function.update disk.files place (some node) other = some node'
    rw [List.mem_append, List.mem_singleton, h.made]
    by_cases heq : other = place
    · subst heq
      simp [hfree, hnone, eq_comm]
    · simp [heq]
  once := by
    show ((disk.log ++ [(place, node)]).map Prod.fst).Nodup
    rw [List.map_append, List.nodup_append]
    refine ⟨h.once, by simp, fun other hother new hnew => ?_⟩
    rintro rfl
    obtain ⟨⟨_, node'⟩, hentry, rfl⟩ := List.mem_map.mp hother
    obtain rfl : _ = place := by simpa using hnew
    have hthere := ((h.made _ _).mp hentry).2
    rw [hfree] at hthere
    cases hthere
  below := by
    intro entry hentry
    rcases List.mem_append.mp hentry with hentry | hentry
    · exact h.below entry hentry
    · rw [List.mem_singleton] at hentry
      rw [hentry]
      exact hbelow
  plain := by
    intro entry hentry
    rcases List.mem_append.mp hentry with hentry | hentry
    · exact h.plain entry hentry
    · rw [List.mem_singleton] at hentry
      rw [hentry]
      exact hplain
  inside := h.inside

lemma Confined.ne_other (h : Confined files dest disk) (hempty : Empty files dest)
    {name : Bytes} {rest : Place} : disk.files (dest ++ name :: rest) ≠ some .other := by
  intro hother
  have hnone : files (dest ++ name :: rest) = none :=
    hempty.empty _ (List.prefix_append ..) (by simp)
  exact h.plain _ ((h.made _ _).mpr ⟨hnone, hother⟩) rfl

/-- What making folders does: all stays confined, nothing is written, and where it worked the last
of them is there. -/
lemma createDirAll_spec (can : Place → Bool) (hempty : Empty files dest) (rest : Place) :
    ∀ {disk : Disk} {done : Place}, Confined files dest disk →
      (∀ first, (done ++ rest).head? = some first → first ∈ roots) →
      disk.files (dest ++ done) = some .folder →
      Confined files dest (disk.createDirAll can (dest ++ done) rest).1 ∧
        Grows disk (disk.createDirAll can (dest ++ done) rest).1 ∧
        (disk.createDirAll can (dest ++ done) rest).1.written = disk.written ∧
        ((disk.createDirAll can (dest ++ done) rest).2 = true →
          (disk.createDirAll can (dest ++ done) rest).1.files (dest ++ done ++ rest) =
            some .folder) := by
  induction rest with
  | nil =>
    intro disk done h _ hfolder
    exact ⟨h, .refl disk, rfl, fun _ => by rw [List.append_nil]; exact hfolder⟩
  | cons name rest ih =>
    intro disk done h hroot hfolder
    have hnext : dest ++ done ++ [name] = dest ++ (done ++ [name]) := List.append_assoc ..
    have hbelow : Below dest (dest ++ done ++ [name]) := by
      cases done with
      | nil => exact ⟨name, hroot name rfl, [], by simp⟩
      | cons first more => exact ⟨first, hroot first rfl, more ++ [name], by simp⟩
    have hroot' : ∀ first, (done ++ [name] ++ rest).head? = some first → first ∈ roots := by
      rwa [List.append_assoc]
    have hend : dest ++ done ++ name :: rest = dest ++ (done ++ [name]) ++ rest := by simp
    unfold Disk.createDirAll
    dsimp only
    rw [hend, hnext] at *
    split
    · next hthere => exact ih h hroot' hthere
    · exact ⟨h, .refl disk, rfl, fun hno => (by cases hno)⟩
    · next hother =>
      obtain ⟨first, -, more, hplace⟩ := hbelow
      rw [hplace] at hother
      exact absurd hother (h.ne_other hempty)
    · next hfree =>
      split
      · have hmade : Confined files dest (disk.make _ .folder) := h.make hfree hbelow (by simp)
        obtain ⟨hconfined, hgrows, hwritten, hthere⟩ := ih hmade hroot' make_place
        rw [written_make] at hwritten
        exact ⟨hconfined, (grows_make hfree).trans hgrows, hwritten, hthere⟩
      · exact ⟨h, .refl disk, rfl, fun hno => (by cases hno)⟩

/-- What holds between two members: what was written is what was counted, and fits. -/
structure Fitting (files : Place → Option Node) (dest : Place) (maxBytes : Nat) (u : Unpacking) :
    Prop where
  confined : Confined files dest u.disk
  written : u.disk.written = u.total
  room : u.total ≤ maxBytes

/-- What a member leaves behind, whether it was the last or not. -/
structure Leaves (files : Place → Option Node) (dest : Place) (maxBytes : Nat) (disk : Disk)
    (r : Unpacking × Option UnpackError) : Prop where
  confined : Confined files dest r.1.disk
  grows : Grows disk r.1.disk
  written : r.1.disk.written ≤ maxBytes + 1

lemma Fitting.leaves (h : Fitting files dest maxBytes u) (why : Option UnpackError) :
    Leaves files dest maxBytes u.disk (u, why) :=
  ⟨h.confined, .refl u.disk, h.written.trans_le (h.room.trans (Nat.le_succ _))⟩

variable (parse) in
lemma writeFile_leaves (hempty : Empty files dest) (h : Fitting files dest maxBytes u)
    {first : Bytes} {rest : Place} (hfirst : first ∈ roots) (content : Bytes) (luck : Luck) :
    Leaves files dest maxBytes u.disk
        (writeFile parse dest maxBytes u (first :: rest) content luck) ∧
      ((writeFile parse dest maxBytes u (first :: rest) content luck).2 = none →
        Fitting files dest maxBytes
            (writeFile parse dest maxBytes u (first :: rest) content luck).1 ∧
          (writeFile parse dest maxBytes u (first :: rest) content luck).1.total =
            u.total + content.length ∧
          (writeFile parse dest maxBytes u (first :: rest) content luck).1.disk.files
            (dest ++ first :: rest) = some (.file content)) := by
  have hdest : u.disk.files (dest ++ []) = some .folder := by
    rw [List.append_nil]
    exact h.confined.kept _ _ hempty.folder
  have hroot : ∀ name, ([] ++ (first :: rest).dropLast).head? = some name → name ∈ roots := by
    intro name hname
    cases rest with
    | nil => cases hname
    | cons second rest =>
      obtain rfl : first = name := by simpa using hname
      exact hfirst
  obtain ⟨hconfined, hgrows, hwritten, -⟩ :=
    createDirAll_spec luck.makes hempty _ h.confined hroot hdest
  rw [List.append_nil] at hconfined hgrows hwritten
  have hroom := h.room
  have hcounted := h.written
  unfold writeFile
  generalize u.disk.createDirAll luck.makes dest (first :: rest).dropLast = made at *
  obtain ⟨disk, parent⟩ := made
  dsimp only at *
  split
  · exact ⟨⟨hconfined, hgrows, by dsimp only; omega⟩, fun hno => (by cases hno)⟩
  · split
    · exact ⟨⟨hconfined, hgrows, by dsimp only; omega⟩, fun hno => (by cases hno)⟩
    · next hopen =>
      have hfree : disk.files (dest ++ first :: rest) = none := by
        rw [Bool.or_eq_true, not_or, Option.not_isSome_iff_eq_none] at hopen
        exact hopen.1
      have hmake : ∀ bytes : Bytes, bytes.length ≤ maxBytes - u.total + 1 →
          ∀ total manifest why, Leaves files dest maxBytes u.disk
            ({ u with
                disk := disk.make (dest ++ first :: rest) (.file bytes)
                total := total
                manifest := manifest }, why) := by
        intro bytes hbytes total manifest why
        refine ⟨hconfined.make hfree ⟨first, hfirst, rest, rfl⟩ (by simp),
          hgrows.trans (grows_make hfree), ?_⟩
        show (disk.make (dest ++ first :: rest) (.file bytes)).written ≤ maxBytes + 1
        rw [written_make, Node.size]
        omega
      have htaken : (content.take (maxBytes - u.total + 1)).length ≤ maxBytes - u.total + 1 :=
        List.length_take_le ..
      split
      · exact ⟨hmake _ ((List.length_take_le' ..).trans htaken) _ _ _, fun hno => (by cases hno)⟩
      · split
        · exact ⟨hmake _ htaken _ _ _, fun hno => (by cases hno)⟩
        · next hfits =>
          have hwhole : content.take (maxBytes - u.total + 1) = content := by
            rw [List.length_take] at hfits
            exact List.take_of_length_le (by omega)
          rw [hwhole] at hfits htaken ⊢
          have hgoes : ∀ manifest, Fitting files dest maxBytes
              { u with
                disk := disk.make (dest ++ first :: rest) (.file content)
                total := u.total + content.length
                manifest := manifest } := fun manifest =>
            ⟨(hmake content htaken _ manifest none).confined, by
              show (disk.make (dest ++ first :: rest) (.file content)).written = _
              rw [written_make, Node.size, hwritten, hcounted],
              by show u.total + content.length ≤ maxBytes; omega⟩
          split
          · split
            · split
              · exact ⟨hmake _ htaken _ _ _, fun _ => ⟨hgoes _, rfl, make_place⟩⟩
              · exact ⟨hmake _ htaken _ _ _, fun hno => (by cases hno)⟩
            · exact ⟨hmake _ htaken _ _ _, fun hno => (by cases hno)⟩
          · exact ⟨hmake _ htaken _ _ _, fun _ => ⟨hgoes _, rfl, make_place⟩⟩

lemma memberPath_ok {path : Bytes} {rel : Place} (h : memberPath path = .ok rel) :
    ∃ first ∈ roots, ∃ rest, rel = first :: rest := by
  unfold memberPath at h
  split at h
  · next first rest _ =>
    split at h
    · next hfirst =>
      obtain rfl := Except.ok.inj h
      exact ⟨first, hfirst, rest, rfl⟩
    · cases h
  · cases h

variable (parse) in
lemma unpackMember_leaves (hempty : Empty files dest) (h : Fitting files dest maxBytes u)
    (m : Member) (luck : Luck) :
    Leaves files dest maxBytes u.disk (unpackMember parse dest maxBytes u m luck) ∧
      ((unpackMember parse dest maxBytes u m luck).2 = none →
        Fitting files dest maxBytes (unpackMember parse dest maxBytes u m luck).1 ∧
          (unpackMember parse dest maxBytes u m luck).1.total = u.total + m.bytes ∧
          Unpacked dest (unpackMember parse dest maxBytes u m luck).1.disk m) := by
  have hcounted : Fitting files dest maxBytes { u with count := u.count + 1 } :=
    ⟨h.confined, h.written, h.room⟩
  unfold unpackMember
  split
  · exact ⟨h.leaves _, fun hno => (by cases hno)⟩
  · dsimp only
    split
    · exact ⟨hcounted.leaves _, fun hno => (by cases hno)⟩
    · split
      · next hglobal =>
        exact ⟨hcounted.leaves _, fun _ => ⟨hcounted, by simp [Member.bytes, hglobal],
          .inl hglobal⟩⟩
      · cases hpath : memberPath m.path with
        | error why => exact ⟨hcounted.leaves _, fun hno => (by cases hno)⟩
        | ok rel =>
          obtain ⟨first, hfirst, rest, rfl⟩ := memberPath_ok hpath
          dsimp only
          split
          · next hkind =>
            have hdest : u.disk.files (dest ++ []) = some .folder := by
              rw [List.append_nil]
              exact h.confined.kept _ _ hempty.folder
            obtain ⟨hconfined, hgrows, hwritten, hthere⟩ :=
              createDirAll_spec luck.makes hempty (first :: rest) h.confined
                (fun name hname => by
                  obtain rfl : first = name := by simpa using hname
                  exact hfirst) hdest
            rw [List.append_nil] at hconfined hgrows hwritten hthere
            have hroom := h.room
            have hbytes := h.written
            refine ⟨⟨hconfined, hgrows, by dsimp only; omega⟩, fun hnone => ?_⟩
            dsimp only at hnone
            split at hnone
            · next hmade =>
              rw [Bool.and_eq_true] at hmade
              exact ⟨⟨hconfined, hwritten.trans hbytes, hroom⟩, by simp [Member.bytes, hkind],
                .inr ⟨_, hpath, .inl ⟨hkind, hthere hmade.1⟩⟩⟩
            · cases hnone
          · next hkind =>
            split
            · exact ⟨hcounted.leaves _, fun hno => (by cases hno)⟩
            · obtain ⟨hleaves, hgoes⟩ :=
                writeFile_leaves parse hempty hcounted hfirst m.content luck
              refine ⟨hleaves, fun hnone => ?_⟩
              obtain ⟨hfitting, htotal, hthere⟩ := hgoes hnone
              exact ⟨hfitting, by rw [htotal, Member.bytes, if_pos hkind],
                .inr ⟨_, hpath, .inr ⟨hkind, hthere⟩⟩⟩
          · exact ⟨hcounted.leaves _, fun hno => (by cases hno)⟩

lemma Unpacked.grows {m : Member} (h : Unpacked dest disk m) (hgrows : Grows disk disk') :
    Unpacked dest disk' m := by
  rcases h with hglobal | ⟨rel, hpath, hthere⟩
  · exact .inl hglobal
  · refine .inr ⟨rel, hpath, ?_⟩
    rcases hthere with ⟨hkind, hthere⟩ | ⟨hkind, hthere⟩
    · exact .inl ⟨hkind, hgrows _ _ hthere⟩
    · exact .inr ⟨hkind, hgrows _ _ hthere⟩

variable (parse) in
lemma unpackMembers_leaves (hempty : Empty files dest) (members : List (Member × Luck)) :
    ∀ {u : Unpacking}, Fitting files dest maxBytes u →
      Leaves files dest maxBytes u.disk (unpackMembers parse dest maxBytes u members) ∧
        ((unpackMembers parse dest maxBytes u members).2 = none →
          Fitting files dest maxBytes (unpackMembers parse dest maxBytes u members).1 ∧
            (unpackMembers parse dest maxBytes u members).1.total =
              u.total + (members.map fun entry => entry.1.bytes).sum ∧
            ∀ entry ∈ members,
              Unpacked dest (unpackMembers parse dest maxBytes u members).1.disk entry.1) := by
  induction members with
  | nil => exact fun h => ⟨h.leaves _, fun _ => ⟨h, rfl, fun entry hentry => (by cases hentry)⟩⟩
  | cons entry members ih =>
    intro u h
    obtain ⟨m, luck⟩ := entry
    obtain ⟨hleaves, hgoes⟩ := unpackMember_leaves parse hempty h m luck
    unfold unpackMembers
    cases hmember : unpackMember parse dest maxBytes u m luck with
    | mk next why =>
      rw [hmember] at hleaves hgoes
      cases why with
      | some why => exact ⟨hleaves, fun hno => (by cases hno)⟩
      | none =>
        obtain ⟨hfitting, htotal, hunpacked⟩ := hgoes rfl
        obtain ⟨hrest, hdone⟩ := ih hfitting
        refine ⟨⟨hrest.confined, hleaves.grows.trans hrest.grows, hrest.written⟩, fun hnone => ?_⟩
        obtain ⟨hend, hsum, hall⟩ := hdone hnone
        refine ⟨hend, ?_, fun entry hentry => ?_⟩
        · rw [List.map_cons, List.sum_cons, ← Nat.add_assoc, ← htotal]
          exact hsum
        rcases List.mem_cons.mp hentry with rfl | hentry
        · exact hunpacked.grows hrest.grows
        · exact hall entry hentry

lemma fitting_start : Fitting files dest maxBytes (.start files) where
  confined :=
    { kept := fun _ _ h => h
      made := fun place node => by
        refine ⟨fun h => (by cases h), fun ⟨hnone, hsome⟩ => ?_⟩
        rw [show (Unpacking.start files).disk.files place = files place from rfl, hnone] at hsome
        cases hsome
      once := List.nodup_nil
      below := fun _ h => (by cases h)
      plain := fun _ h => (by cases h)
      inside := rfl }
  written := rfl
  room := Nat.zero_le _

theorem unpack_confined (hempty : Empty files dest) (members : List (Member × Luck)) :
    Confined files dest (unpack parse dest maxBytes files members).1 ∧
      (unpack parse dest maxBytes files members).1.written ≤ maxBytes + 1 ∧
      ∀ manifest, (unpack parse dest maxBytes files members).2 = .ok manifest →
        (members.map fun entry => entry.1.bytes).sum ≤ maxBytes ∧
          ∀ entry ∈ members,
            Unpacked dest (unpack parse dest maxBytes files members).1 entry.1 := by
  obtain ⟨hleaves, hdone⟩ := unpackMembers_leaves parse hempty members fitting_start
  unfold unpack
  cases hend : unpackMembers parse dest maxBytes (.start files) members with
  | mk u why =>
    rw [hend] at hleaves hdone
    cases why with
    | some why => exact ⟨hleaves.confined, hleaves.written, fun _ hok => (by cases hok)⟩
    | none =>
      obtain ⟨hfitting, htotal, hall⟩ := hdone rfl
      have hsum : (members.map fun entry => entry.1.bytes).sum ≤ maxBytes := by
        have hroom := hfitting.room
        rw [htotal] at hroom
        exact (Nat.le_add_left ..).trans hroom
      dsimp only
      cases u.manifest with
      | some manifest => exact ⟨hleaves.confined, hleaves.written, fun _ _ => ⟨hsum, hall⟩⟩
      | none => exact ⟨hleaves.confined, hleaves.written, fun _ hok => (by cases hok)⟩

def Luck.good : Luck := ⟨"", true, fun _ => true, true, true, none, true⟩

def nothing : Place → Option Node := fun place => if place = [] then some .folder else none

lemma empty_nothing : Empty nothing [] :=
  ⟨rfl, fun _ _ hne => if_neg hne⟩

def parseByte (bytes : Bytes) : Option Manifest :=
  if bytes = [1] then some ⟨2, "0.0.0", "", [], false, true, true⟩ else none

def regularMember (path : String) (content : Bytes) : Member × Luck :=
  (⟨ascii path, .regular, content.length, content, le_rfl⟩, .good)

def folderMember (path : String) : Member × Luck :=
  (⟨ascii path, .directory, 0, [], le_rfl⟩, .good)

def smallBackup : List (Member × Luck) :=
  [regularMember "manifest.json" [1], folderMember "./config/", regularMember "data//a/b" [2, 3]]

theorem unpack_smallBackup :
    (unpack parseByte [] 3 nothing smallBackup).1.written ≤ 4 ∧
      Unpacked [] (unpack parseByte [] 3 nothing smallBackup).1
        (regularMember "data//a/b" [2, 3]).1 := by
  obtain ⟨-, hwritten, hok⟩ := @unpack_confined parseByte [] 3 nothing empty_nothing smallBackup
  obtain ⟨manifest, hmanifest⟩ :
      ∃ manifest, (unpack parseByte [] 3 nothing smallBackup).2 = .ok manifest :=
    ⟨⟨2, "0.0.0", "", [], false, true, true⟩, by decide⟩
  exact ⟨hwritten, (hok manifest hmanifest).2 _ (by simp [smallBackup])⟩

def globalFirst : List (Member × Luck) :=
  [(⟨ascii "../evil", .xGlobalHeader, 1, [7], le_rfl⟩, .good), regularMember "manifest.json" [1]]

/-- It unpacks, though one of its members is neither a file nor a folder, and under no root. -/
theorem not_plain_globalFirst :
    ¬ ∀ manifest, (unpack parseByte [] 1 nothing globalFirst).2 = .ok manifest →
      ∀ entry ∈ globalFirst, (entry.1.kind = .regular ∨ entry.1.kind = .directory) ∧
        ∃ rel, memberPath entry.1.path = .ok rel := by
  intro h
  have hkind := (h ⟨2, "0.0.0", "", [], false, true, true⟩ (by decide) _
    (List.mem_cons_self ..)).1
  rcases hkind with hkind | hkind <;> cases hkind

end Irori.Backup
