import Irori.Backup.Schedule

/-!
# What retention leaves

Retention takes the files that are past the newest `keep`, or too old, and never the newest. The
newest needn't be the one just made: of two made in the same second the second has `-2` in its name,
which comes after the other in a listing.
-/

namespace Irori.Backup

variable {files : List Dated} {start name : String} {keep : Nat} {keepDays : Option Nat} {now : Int}
  {sweep : Sweep} {folder : Folder} {a b c : Dated}

def ahead (files : List Dated) (start : String) (file : Dated) : Nat :=
  (files.filter fun other => startsWith other.1 start && decide (Newer other file)).length

/-- Whether it is past the newest `keep`, or too old, and not the newest. -/
def Doomed (files : List Dated) (start : String) (keep : Nat) (keepDays : Option Nat) (now : Int)
    (file : Dated) : Prop :=
  0 < ahead files start file ∧ (max keep 1 ≤ ahead files start file ∨
    ∃ days, keepDays = some days ∧ days * 86400 < asSecond now - asSecond file.2)

/-- Whether a sweep leaves this file. -/
def Spared (files : List Dated) (sweep : Sweep) (keep : Nat) (keepDays : Option Nat)
    (name : String) : Prop :=
  ∀ time, (name, time) ∈ files → startsWith name plainPrefix = true → sweep.deletes name = true →
    ¬ Doomed files plainPrefix keep keepDays sweep.now (name, time)

/-- A folder is swept: the file just made stays and so do the newest, and what isn't a backup of this
kind is left alone. -/
structure KeptAt (files : List Dated) (folder swept : Folder) (keep : Nat) (keepDays : Option Nat)
    (name : String) : Prop where
  made : swept[name]?.isSome
  newest : keepDays = none →
    ∀ file ∈ (files.filter fun file => startsWith file.1 plainPrefix).take keep,
      swept[file.1]?.isSome
  others : ∀ other, ¬ (isBackupName other = true ∧ startsWith other plainPrefix = true) →
    swept[other]? = folder[other]?

lemma newer_asymm (h : Newer a b) : ¬ Newer b a := by
  rcases h with h | ⟨heq, h⟩ <;> rintro (h' | ⟨heq', h'⟩)
  · exact absurd (h.trans h') (lt_irrefl _)
  · exact absurd heq' h.ne'
  · exact absurd heq h'.ne'
  · exact absurd (h.trans h') (lt_irrefl _)

lemma newer_trans (h : Newer a b) (h' : Newer b c) : Newer a c := by
  rcases h with h | ⟨heq, h⟩ <;> rcases h' with h' | ⟨heq', h'⟩
  · exact .inl (h'.trans h)
  · exact .inl (heq' ▸ h)
  · exact .inl (heq ▸ h')
  · exact .inr ⟨heq'.trans heq, h'.trans h⟩

lemma newer_or (hne : a ≠ b) : Newer a b ∨ Newer b a := by
  rcases lt_trichotomy a.2 b.2 with h | h | h
  · exact .inr (.inl h)
  · rcases lt_trichotomy a.1 b.1 with h' | h' | h'
    · exact .inr (.inr ⟨h, h'⟩)
    · exact absurd (Prod.ext h' h) hne
    · exact .inl (.inr ⟨h.symm, h'⟩)
  · exact .inl (.inl h)

lemma length_before {α : Type} {r : α → α → Prop} [DecidableRel r]
    (hasymm : ∀ a b, r a b → ¬ r b a) {l : List α} (h : l.Pairwise r) {i : Nat} {x : α}
    (hi : l[i]? = some x) : (l.filter fun y => r y x).length = i := by
  induction l generalizing i with
  | nil => cases hi
  | cons y l ih =>
    obtain ⟨hy, hl⟩ := List.pairwise_cons.mp h
    cases i with
    | zero =>
      obtain rfl := Option.some.inj hi
      rw [List.length_eq_zero_iff, List.filter_eq_nil_iff]
      intro z hz hr
      rw [decide_eq_true_eq] at hr
      rcases List.mem_cons.mp hz with rfl | hz
      · exact hasymm _ _ hr hr
      · exact hasymm _ _ hr (hy z hz)
    | succ i =>
      have hx : l[i]? = some x := hi
      rw [List.filter_cons_of_pos (by simpa using hy x (List.mem_of_getElem? hx)),
        List.length_cons, ih hl hx]

lemma perm_newestFirst : (newestFirst files).Perm files := List.perm_insertionSort ..

lemma pairwise_newestFirst (hnodup : files.Nodup) : (newestFirst files).Pairwise Newer := by
  have htotal : Std.Total fun a b : Dated => Newer a b ∨ a = b := ⟨fun a b => by
    by_cases heq : a = b
    · exact .inl (.inr heq)
    · exact (newer_or heq).imp .inl .inl⟩
  have htrans : IsTrans Dated fun a b => Newer a b ∨ a = b := ⟨fun a b c h h' => by
    rcases h with h | rfl
    · rcases h' with h' | rfl
      · exact .inl (newer_trans h h')
      · exact .inl h
    · exact h'⟩
  have hsorted := List.pairwise_insertionSort (fun a b : Dated => Newer a b ∨ a = b) files
  have hdistinct : (newestFirst files).Pairwise (· ≠ ·) := perm_newestFirst.nodup_iff.mpr hnodup
  exact (hsorted.and hdistinct).imp fun ⟨hle, hne⟩ => hle.resolve_right hne

lemma ahead_eq {file : Dated} (h : files.Pairwise Newer) {i : Nat}
    (hi : (files.filter fun file => startsWith file.1 start)[i]? = some file) :
    ahead files start file = i := by
  have hkind := length_before (fun _ _ => newer_asymm) (h.filter fun file => startsWith file.1 start)
    hi
  rw [List.filter_filter] at hkind
  rw [← hkind, ahead]
  congr 2
  funext other
  exact Bool.and_comm ..

lemma too_old_iff {time : Int} :
    (keepDays.any fun days : Nat => decide ((days : Int) * 86400 < asSecond now - asSecond time)) =
        true ↔
      ∃ days : Nat, keepDays = some days ∧ days * 86400 < asSecond now - asSecond time := by
  cases keepDays with
  | none => simp
  | some days => simp

lemma mem_expired (h : files.Pairwise Newer) :
    name ∈ expired files start keep keepDays now ↔
      ∃ time, (name, time) ∈ files ∧ startsWith name start = true ∧
        Doomed files start keep keepDays now (name, time) := by
  unfold expired Doomed
  constructor
  · intro hmem
    obtain ⟨⟨file, i⟩, hfile, rfl⟩ := List.mem_map.mp hmem
    obtain ⟨hindex, hgone⟩ := List.mem_filter.mp hfile
    rw [List.mk_mem_zipIdx_iff_getElem?] at hindex
    rw [Bool.and_eq_true, Bool.or_eq_true, decide_eq_true_eq, decide_eq_true_eq, too_old_iff] at hgone
    obtain ⟨hthere, hstart⟩ := List.mem_filter.mp (List.mem_of_getElem? hindex)
    refine ⟨file.2, hthere, hstart, ?_⟩
    rw [ahead_eq h hindex]
    exact hgone
  · rintro ⟨time, hthere, hstart, hgone⟩
    obtain ⟨i, hindex⟩ := List.mem_iff_getElem?.mp
      (List.mem_filter (p := fun file => startsWith file.1 start).mpr ⟨hthere, hstart⟩)
    rw [ahead_eq h hindex] at hgone
    refine List.mem_map.mpr ⟨((name, time), i), List.mem_filter.mpr ⟨?_, ?_⟩, rfl⟩
    · exact List.mk_mem_zipIdx_iff_getElem?.mpr hindex
    · rw [Bool.and_eq_true, Bool.or_eq_true, decide_eq_true_eq, decide_eq_true_eq, too_old_iff]
      exact hgone

lemma get_without (names : List String) (k : String) :
    (without sweep folder names)[k]? =
      if k ∈ names ∧ sweep.deletes k = true then none else folder[k]? := by
  unfold without
  rw [Std.ExtTreeMap.getElem?_filter']
  cases folder[k]? with
  | none => simp
  | some time => by_cases h : k ∈ names <;> cases hd : sweep.deletes k <;> simp [h]

lemma keptAt_iff (h : files.Pairwise Newer) (hnames : (files.map Prod.fst).Nodup)
    (hours : ∀ file ∈ files, isBackupName file.1 = true ∧ folder[file.1]?.isSome)
    (hmade : folder[name]?.isSome) :
    KeptAt files folder
        (without sweep folder (expired files plainPrefix keep keepDays sweep.now)) keep keepDays name ↔
      Spared files sweep keep keepDays name := by
  constructor
  · intro hkept time htime hstart hdeletes hdoomed
    have hmem := (mem_expired h).mpr ⟨time, htime, hstart, hdoomed⟩
    have hstays := hkept.made
    rw [get_without, if_pos ⟨hmem, hdeletes⟩] at hstays
    cases hstays
  · intro hspared
    refine ⟨?_, fun hdays file hfile => ?_, fun other hother => ?_⟩
    · rw [get_without, if_neg]
      · exact hmade
      · rintro ⟨hmem, hdeletes⟩
        obtain ⟨time, htime, hstart, hdoomed⟩ := (mem_expired h).mp hmem
        exact hspared time htime hstart hdeletes hdoomed
    · obtain ⟨i, hi⟩ := List.mem_iff_getElem?.mp hfile
      rw [List.getElem?_take] at hi
      split at hi
      · next hlt =>
        have hmem := (List.mem_filter.mp (List.mem_of_getElem? hi)).1
        rw [get_without, if_neg]
        · exact (hours file hmem).2
        · rintro ⟨hgone, -⟩
          obtain ⟨time, htime, -, -, hlate⟩ := (mem_expired h).mp hgone
          have hsame : (file.1, time) = file := List.inj_on_of_nodup_map hnames htime hmem rfl
          rw [hsame, ahead_eq h hi] at hlate
          rcases hlate with hlate | ⟨days, hsome, -⟩
          · exact absurd ((le_max_left keep 1).trans hlate) hlt.not_ge
          · rw [hdays] at hsome
            cases hsome
      · cases hi
    · rw [get_without, if_neg]
      rintro ⟨hgone, -⟩
      obtain ⟨time, htime, hstart, -⟩ := (mem_expired h).mp hgone
      exact hother ⟨(hours _ htime).1, hstart⟩

lemma names_nodup (folder : Folder) : (folder.toList.map Prod.fst).Nodup := by
  rw [Std.ExtTreeMap.map_fst_toList_eq_keys]
  exact Std.ExtTreeMap.nodup_keys

lemma names_newestFirst (h : (files.map Prod.fst).Nodup) :
    ((newestFirst files).map Prod.fst).Nodup :=
  (perm_newestFirst.map Prod.fst).nodup_iff.mpr h

lemma prune_iff (hmade : folder[name]?.isSome) :
    KeptAt (list sweep folder) folder (prune sweep keep keepDays folder) keep keepDays name ↔
      Spared (list sweep folder) sweep keep keepDays name := by
  have hnames : ((folder.toList.filter fun file =>
      isBackupName file.1 && sweep.sees file.1).map Prod.fst).Nodup :=
    (names_nodup folder).sublist (List.filter_sublist.map _)
  refine keptAt_iff (pairwise_newestFirst hnames.of_map) (names_newestFirst hnames)
    (fun file hfile => ?_) hmade
  obtain ⟨hthere, hours⟩ := List.mem_filter.mp (perm_newestFirst.mem_iff.mp hfile)
  rw [Bool.and_eq_true] at hours
  rw [Std.ExtTreeMap.mem_toList_iff_getElem?_eq_some.mp hthere]
  exact ⟨hours.1, rfl⟩

lemma pruneAt_iff {read : String → Option Int} (hmade : folder[name]?.isSome) :
    KeptAt (dated read (remotes sweep folder)) folder (pruneAt read sweep keep keepDays folder) keep
        keepDays name ↔
      Spared (dated read (remotes sweep folder)) sweep keep keepDays name := by
  have hremotes : (remotes sweep folder).Nodup :=
    List.nodup_reverse.mpr (Std.ExtTreeMap.nodup_keys.filter _)
  have hnames : (((remotes sweep folder).filterMap fun name =>
      (timeFromName read name).map fun time => (name, time)).map Prod.fst).Nodup := by
    refine hremotes.sublist ?_
    induction remotes sweep folder with
    | nil => exact .refl _
    | cons name names ih =>
      cases htime : timeFromName read name with
      | none =>
        rw [List.filterMap_cons_none (by rw [htime]; rfl)]
        exact ih.cons name
      | some time =>
        rw [List.filterMap_cons_some (by rw [htime]; rfl)]
        exact ih.cons_cons name
  refine keptAt_iff (pairwise_newestFirst hnames.of_map) (names_newestFirst hnames)
    (fun file hfile => ?_) hmade
  obtain ⟨other, hother, hdated⟩ := List.mem_filterMap.mp (perm_newestFirst.mem_iff.mp hfile)
  obtain ⟨time, -, rfl⟩ := Option.map_eq_some_iff.mp hdated
  obtain ⟨hthere, hours⟩ := List.mem_filter.mp (List.mem_reverse.mp hother)
  rw [Bool.and_eq_true] at hours
  exact ⟨hours.1, Std.ExtTreeMap.mem_iff_isSome_getElem?.mp (Std.ExtTreeMap.mem_keys.mp hthere)⟩

section

variable {read : String → Option Int} {settings : Settings} {luck : RunLuck} {depot : Depot}

def Destination.copied (destination : Destination) (copy : CopyLuck) (name : String) : Folder :=
  destination.folder.insert name copy.modified

def Depot.made (depot : Depot) (luck : RunLuck) (name : String) : Folder :=
  depot.here.insert name luck.modified

/-- The file just made is here and wherever it was copied to, so are the newest, and nothing else is
touched. -/
structure Retains (read : String → Option Int) (settings : Settings) (luck : RunLuck)
    (depot after : Depot) (name : String) : Prop where
  here : KeptAt (list luck.sweep (depot.made luck name)) (depot.made luck name) after.here
    settings.keep settings.keepDays name
  there : ∀ (i : Nat) (destination : Destination), depot.there[i]? = some destination →
    ∃ swept, after.there[i]? = some swept ∧
      if (luck.copies i).copied name = true then
        KeptAt (dated read (remotes (luck.copies i).sweep (destination.copied (luck.copies i) name)))
          (destination.copied (luck.copies i) name) swept.folder settings.keep settings.keepDays name
      else swept = destination

structure Spares (read : String → Option Int) (settings : Settings) (luck : RunLuck)
    (depot : Depot) (name : String) : Prop where
  here : Spared (list luck.sweep (depot.made luck name)) luck.sweep settings.keep settings.keepDays
    name
  there : ∀ (i : Nat) (destination : Destination), depot.there[i]? = some destination →
    (luck.copies i).copied name = true →
      Spared (dated read (remotes (luck.copies i).sweep (destination.copied (luck.copies i) name)))
        (luck.copies i).sweep settings.keep settings.keepDays name

lemma copyTo_fst (name : String) (now : Int) (copy : CopyLuck) (destination : Destination)
    (status : Status) :
    (copyTo read settings name now copy destination status).1 =
      if copy.copied name = true then keepWithin read settings copy name destination
      else destination := by
  unfold copyTo CopyLuck.copied
  cases endsWith name ".enc" with
  | false => rfl
  | true =>
    cases isBackupName name with
    | false => rfl
    | true => cases copy.puts <;> rfl

lemma getElem_copyOut (name : String) (now : Int) :
    ∀ (there : List Destination) (copies : Nat → CopyLuck) (status : Status) (i : Nat),
      (copyOut read settings name now copies there status).1[i]? =
        there[i]?.map fun destination =>
          if (copies i).copied name = true then keepWithin read settings (copies i) name destination
          else destination
  | [], _, _, _ => rfl
  | destination :: there, copies, status, 0 => by
    show some (copyTo read settings name now (copies 0) destination status).1 = _
    rw [copyTo_fst]
    rfl
  | destination :: there, copies, status, i + 1 =>
    getElem_copyOut name now there (fun n => copies (n + 1)) _ i

lemma runOnce_places (h : (runOnce read settings luck depot).2 = .ok name) :
    (runOnce read settings luck depot).1.here =
        prune luck.sweep settings.keep settings.keepDays (depot.made luck name) ∧
      ∀ i : Nat, (runOnce read settings luck depot).1.there[i]? =
        depot.there[i]?.map fun destination =>
          if (luck.copies i).copied name = true then
            keepWithin read settings (luck.copies i) name destination
          else destination := by
  unfold runOnce at h ⊢
  cases hmade : create settings luck depot.here with
  | error why =>
    rw [hmade] at h
    cases h
  | ok made =>
    obtain ⟨other, here⟩ := made
    rw [hmade] at h
    obtain rfl : other = name := Except.ok.inj h
    have hhere : here = depot.made luck other := by
      unfold create at hmade
      split at hmade
      · cases hmade
      · split at hmade
        · cases hmade
        · obtain ⟨rfl, rfl⟩ := Prod.mk.inj (Except.ok.inj hmade)
          rfl
    subst hhere
    exact ⟨rfl, fun i => getElem_copyOut other luck.now depot.there luck.copies _ i⟩

/-- The file just made stays exactly where no sweep finds enough before it, or finds it too old. -/
theorem retains_iff (h : (runOnce read settings luck depot).2 = .ok name) :
    Retains read settings luck depot (runOnce read settings luck depot).1 name ↔
      Spares read settings luck depot name := by
  obtain ⟨hhere, hthere⟩ := runOnce_places h
  have hmade : ((depot.made luck name)[name]?).isSome := by
    rw [Depot.made, Map.get_insert, if_pos rfl]
    rfl
  have hcopied : ∀ (destination : Destination) (copy : CopyLuck),
      ((destination.copied copy name)[name]?).isSome := fun destination copy => by
    rw [Destination.copied, Map.get_insert, if_pos rfl]
    rfl
  constructor
  · intro hretains
    refine ⟨(prune_iff hmade).mp (hhere ▸ hretains.here), fun i destination hi hcopy => ?_⟩
    obtain ⟨swept, hswept, hkept⟩ := hretains.there i destination hi
    rw [hthere, hi, Option.map_some, if_pos hcopy] at hswept
    obtain rfl := Option.some.inj hswept
    rw [if_pos hcopy] at hkept
    exact (pruneAt_iff (hcopied destination _)).mp hkept
  · intro hspares
    refine ⟨?_, fun i destination hi => ?_⟩
    · rw [hhere]
      exact (prune_iff hmade).mpr hspares.here
    · refine ⟨_, by rw [hthere, hi]; rfl, ?_⟩
      dsimp only
      by_cases hcopy : (luck.copies i).copied name = true
      · rw [if_pos hcopy, if_pos hcopy]
        exact (pruneAt_iff (hcopied destination _)).mpr (hspares.there i destination hi hcopy)
      · rw [if_neg hcopy, if_neg hcopy]

end

def readThree (text : String) : Option Int :=
  if text = "2026-01-02T03:00:00Z" then some 1767322800000000000 else none

def oneBackup : Folder :=
  (∅ : Folder).insert "irori-backup-20260102-030000.tar.gz.enc" 1767322800100000000

def oneBackupEach : Depot := ⟨oneBackup, [⟨"nas", oneBackup⟩], .empty⟩

def lateSweep : Sweep := ⟨fun _ => true, fun _ => true, 1767322801000000000⟩

def sameSecond : RunLuck :=
  ⟨1767322800500000000, none, "20260102-030000", 1767322800900000000, lateSweep, fun _ => true,
    fun _ => ⟨.ok (), 1767322800900000000, lateSweep⟩, true⟩

def nightly (keep : Nat) : Settings := ⟨true, true, "03:00", [], keep, none⟩

lemma spared_of_length (h : files.length ≤ keep) : Spared files sweep keep none name := by
  rintro time htime - - ⟨-, hlate | ⟨days, hdays, -⟩⟩
  · have hfewer : ahead files plainPrefix (name, time) < files.length := by
      refine List.length_filter_lt_length_iff_exists.mpr ⟨(name, time), htime, ?_⟩
      simpa using fun _ hnewer => newer_asymm hnewer hnewer
    have hmax := le_max_left keep 1
    omega
  · cases hdays

theorem retains_two :
    Retains readThree (nightly 2) sameSecond oneBackupEach
      (runOnce readThree (nightly 2) sameSecond oneBackupEach).1
      "irori-backup-20260102-030000-2.tar.gz.enc" := by
  have hok : (runOnce readThree (nightly 2) sameSecond oneBackupEach).2 =
      .ok "irori-backup-20260102-030000-2.tar.gz.enc" := by decide
  refine (retains_iff hok).mpr ⟨spared_of_length (by decide), fun i nas hi _ => ?_⟩
  cases i with
  | zero =>
    obtain rfl : (⟨"nas", oneBackup⟩ : Destination) = nas := Option.some.inj hi
    exact spared_of_length (by decide)
  | succ i => cases hi

/-- With one to be kept, the copy just made is deleted again where it was copied to. -/
theorem not_retains_one :
    (runOnce readThree (nightly 1) sameSecond oneBackupEach).2 =
        .ok "irori-backup-20260102-030000-2.tar.gz.enc" ∧
      ¬ Retains readThree (nightly 1) sameSecond oneBackupEach
        (runOnce readThree (nightly 1) sameSecond oneBackupEach).1
        "irori-backup-20260102-030000-2.tar.gz.enc" := by
  refine ⟨by decide, fun h => ?_⟩
  obtain ⟨swept, hswept, hkept⟩ := h.there 0 ⟨"nas", oneBackup⟩ rfl
  rw [if_pos (by decide)] at hkept
  have hgone : ((runOnce readThree (nightly 1) sameSecond oneBackupEach).1.there[0]?).map
      (fun place => place.folder["irori-backup-20260102-030000-2.tar.gz.enc"]?) = some none := by
    decide +kernel
  rw [hswept] at hgone
  have hmade := hkept.made
  rw [show swept.folder["irori-backup-20260102-030000-2.tar.gz.enc"]? = none from
    Option.some.inj hgone] at hmade
  cases hmade

end Irori.Backup
