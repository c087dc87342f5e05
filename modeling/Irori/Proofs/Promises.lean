import Irori.Home.Types
import Irori.Proofs.Writing

/-!
# Secrets and their writers

A secret that is put in place stays until it is changed or taken away, as long as every writer of
`secrets.toml` has the file to itself. Two that overlap lose one of their secrets, and make two
recovery keys where there should be one.
-/

namespace Irori.Config

def Table.at_ : List String → Table → Option Json
  | [], _ => none
  | [last], table => table.lookup last
  | key :: path, table =>
    match table.lookup key with
    | some (.object inner) => Table.at_ path inner
    | _ => none

def ExtensionSettings.at_ (settings : ExtensionSettings) (extension : ExtensionId)
    (path : List String) : Option Json :=
  (settings[extension]?).bind (Table.at_ path)

variable {κ : File → Type} (format : Format κ)

def secretsOn (d : Disk Filename) : Option ExtensionSettings :=
  contentsOf format (filesOf d) .secrets

/-- What was put in place: the secrets that are to stay, the text of the file if it is known, and
the recovery key that was given, since it was last changed by anything but making one. -/
structure Ledger where
  kept : ExtensionId → List String → Option Json
  text : Option (List Char)
  given : Option String

def Ledger.blank : Ledger := ⟨fun _ _ => none, none, none⟩

namespace Worker

variable (w : Worker κ)

def secrets : ExtensionSettings := w.values.secrets

/-- The save whose secrets are in place after this step: they are put there, or found to be there
already. -/
def puts (d : Disk Filename) (chance : Chance) : Option (Saving κ) :=
  match w.stage with
  | .comparing s (.secrets :: _) _ =>
    if (d.content (.file .secrets)).map Inode.text = some (s.text format .secrets) then some s
    else none
  | .placing s (.secrets :: _) _ =>
    if chance.works && (d.names (.writing .secrets)).isSome then some s else none
  | _ => none

def gives (d : Disk Filename) (chance : Chance) : Option String :=
  match w.op with
  | .keyOrMake _ =>
    match w.stage with
    | .looking [] => Backup.secret Backup.key w.secrets
    | _ => none
  | .make fresh => (w.puts format d chance).map fun _ => fresh
  | _ => none

end Worker

namespace Ledger

variable (l : Ledger)

/-- Secrets put in place. What a save doesn't change of what its worker had stays as it was. -/
def put (w : Worker κ) (s : Saving κ) : Ledger where
  kept extension path :=
    if w.secrets.at_ extension path = s.goal.secrets.at_ extension path then l.kept extension path
    else s.goal.secrets.at_ extension path
  text := some (s.text format .secrets)
  given :=
    if Backup.secret Backup.key w.secrets = Backup.secret Backup.key s.goal.secrets then l.given
    else none

def step (d : Disk Filename) (w : Worker κ) (chance : Chance) : Ledger :=
  let next := match w.puts format d chance with
    | some s => l.put format w s
    | none => l
  match w.gives format d chance with
  | some key => { next with given := some key }
  | none => next

def after (x : World κ) : WorldEvent κ → Ledger
  | .go n chance =>
    match x.workers[n]? with
    | some w => l.step format x.disk w chance
    | none => l
  | .outside .secrets _ => .blank
  | _ => l

/-- Every secret is where it was put, and the text is the one that was written. -/
def Kept (x : World κ) : Prop :=
  (∀ extension path value, l.kept extension path = some value →
    ∃ secrets, secretsOn format x.disk = some secrets ∧
      secrets.at_ extension path = some value) ∧
  ∀ text, l.text = some text → (x.disk.content (.file .secrets)).map Inode.text = some text

/-- A recovery key that is given is the one that was given before. -/
def OneKey (x : World κ) : WorldEvent κ → Prop
  | .go n chance =>
    match x.workers[n]? with
    | some w => ∀ key ∈ w.gives format x.disk chance, ∀ before ∈ l.given, key = before
    | none => True
  | _ => True

/-- A run in which no secret is lost, and one recovery key is given. -/
def Safe (l : Ledger) (x : World κ) : List (WorldEvent κ) → Prop
  | [] => l.Kept format x
  | event :: events => l.Kept format x ∧ l.OneKey format x event ∧
    Safe (l.after format x event) (x.after format event) events

end Ledger

/-- What is written of secrets is read back as it was. -/
def Exact {format : Format κ} (law : Lawful format) : Prop :=
  ∀ secrets, law.valid .secrets secrets →
    format.read .secrets (format.write .secrets secrets) = .ok secrets

/-- A recovery key is only made where it was looked for, and is some text. -/
def WorldEvent.Makes : WorldEvent κ → Prop
  | .ask _ (.keyOrMake fresh) => fresh ≠ ""
  | .ask _ (.make _) => False
  | _ => True

end Irori.Config

namespace Irori.Proofs
open Irori Config

variable {κ : File → Type} {format : Format κ} {law : Lawful format} {d d' : Disk Filename}
  {w : Worker κ} {file : File} {s : Saving κ} {x : World κ} {n : Nat} {chance : Chance}
  {l : Ledger} {fresh : String}

/-! ### What the secrets are -/

lemma contents_of_agrees {secrets : ExtensionSettings} (hexact : Exact law)
    (hvalid : law.valid .secrets secrets) (h : Agrees format d .secrets secrets) :
    secretsOn format d = some secrets := by
  obtain ⟨said, hsaid, hwrite⟩ := h
  have hsaidValid : law.valid .secrets said := by
    obtain ⟨text, -, hread⟩ := Option.bind_eq_some_iff.1 hsaid
    cases hparse : format.read .secrets text with
    | error e => simp [hparse, Except.toOption] at hread
    | ok v =>
      simp only [hparse, Except.toOption, Option.some.injEq] at hread
      exact hread ▸ law.read_valid .secrets text v hparse
  have hread := hexact said hsaidValid
  rw [hwrite, hexact secrets hvalid] at hread
  exact hsaid.trans (congrArg some (Except.ok.inj hread).symm)

lemma contents_of_text {secrets : ExtensionSettings} (hexact : Exact law)
    (hvalid : law.valid .secrets secrets)
    (htext : (d.content (.file .secrets)).map Inode.text =
      some (format.write .secrets secrets).toList) :
    secretsOn format d = some secrets :=
  contents_of_agrees hexact hvalid (agrees_of_text hvalid htext)

lemma content_of_puts_none (h : Suits law d w) (hwhole : d.Whole)
    (hputs : w.puts format d chance = none) :
    (w.go format d chance).1.content (.file .secrets) = d.content (.file .secrets) := by
  have hstage := h.stage
  unfold InStage at hstage
  unfold Worker.puts at hputs
  unfold Worker.go
  cases hw : w.stage with
  | idle => rfl
  | looking files =>
    cases files with
    | nil => rfl
    | cons file files =>
      dsimp only
      split <;> rfl
  | reading file now files =>
    dsimp only
    split <;> rfl
  | comparing s todo prepared =>
    cases todo with
    | nil => rfl
    | cons file todo =>
      dsimp only
      split <;> rfl
  | opening s file todo prepared =>
    dsimp only
    split
    · exact Disk.content_create_of_ne hwhole (by simp)
    · exact content_discard _
  | writing s file i written rest todo prepared =>
    simp only [hw] at hstage
    cases rest with
    | nil => rfl
    | cons c rest =>
      dsimp only
      split
      · exact Disk.content_write_of_ne hwhole hstage.2.1 (by simp)
      · exact content_discard _
  | placing s todo prepared =>
    cases todo with
    | nil => rfl
    | cons file todo =>
      simp only [hw] at hputs
      dsimp only
      split
      · next hplaced =>
        refine Disk.content_rename_of_ne (by simp) ?_
        rintro ⟨rfl⟩
        simp [hplaced] at hputs
      · exact content_discard _
  | settling s todo =>
    cases todo with
    | nil =>
      dsimp only
      split <;> rfl
    | cons file todo => rfl

lemma puts_some (hexact : Exact law) (h : Suits law d w) (hputs : w.puts format d chance = some s) :
    secretsOn format d = some w.secrets ∧
      ((w.go format d chance).1.content (.file .secrets)).map Inode.text =
        some (s.text format .secrets) ∧
      secretsOn format (w.go format d chance).1 = some s.goal.secrets := by
  have hstage := h.stage
  unfold InStage at hstage
  unfold Worker.puts at hputs
  have hgoal : ∀ {d' : Disk Filename}, law.valid .secrets (s.goal .secrets) →
      (d'.content (.file .secrets)).map Inode.text = some (s.text format .secrets) →
      secretsOn format d' = some s.goal.secrets :=
    fun hvalid htext => contents_of_text hexact hvalid htext
  split at hputs
  · next s' todo prepared hw =>
    split at hputs
    · next htext =>
      cases hputs
      simp only [hw] at hstage
      have hfile : File.secrets ∈ s.files := mem_files_of_group (hstage.inside _ (by simp))
      have hdisk : (w.go format d chance).1 = d := by
        simp only [Worker.go, hw, htext, if_true]
      rw [hdisk]
      exact ⟨contents_of_agrees hexact (h.valid .secrets) (hstage.held _ hfile), htext,
        hgoal (hstage.valid _ hfile).1 htext⟩
    · cases hputs
  · next s' todo prepared hw =>
    split at hputs
    · next hplaced =>
      cases hputs
      simp only [hw] at hstage
      have hfile : File.secrets ∈ s.files :=
        mem_files_of_group (hstage.group _ (hstage.inside _ List.mem_cons_self))
      have hdisk : (w.go format d chance).1 = d.rename (.writing .secrets) (.file .secrets) := by
        simp only [Worker.go, hw, hplaced, if_true]
      have htext : ((d.rename (.writing .secrets) (.file .secrets)).content
          (.file .secrets)).map Inode.text = some (s.text format .secrets) := by
        rw [Disk.content_rename_target (by simp)]
        exact hstage.ready _ List.mem_cons_self
      rw [hdisk]
      exact ⟨contents_of_agrees hexact (h.valid .secrets)
        (hstage.held _ hfile (Or.inr List.mem_cons_self)), htext,
        hgoal (hstage.valid _ hfile).1 htext⟩
    · cases hputs
  · cases hputs

/-! ### Making a key -/

def NoKey (format : Format κ) (d : Disk Filename) : Prop :=
  ∀ secrets, secretsOn format d = some secrets →
    Backup.secret Backup.key secrets = none

/-- A save that sets the recovery key. -/
structure SetsKey (s : Saving κ) (fresh : String) : Prop where
  done : s.done = []
  group : s.group = [.secrets]
  later : s.later = []
  goal : Backup.secret Backup.key s.goal.secrets = some fresh

/-- A worker that makes a recovery key found none, and puts it in place while there is none. -/
def Making (format : Format κ) (d : Disk Filename) (w : Worker κ) : Prop :=
  match w.op with
  | .keyOrMake fresh => fresh ≠ ""
  | .make fresh => fresh ≠ "" ∧
    match w.stage with
    | .idle => True
    | .looking _ | .reading .. => NoKey format d
    | .comparing s todo prepared => SetsKey s fresh ∧ (.secrets ∈ prepared ++ todo → NoKey format d)
    | .opening s .. | .writing s .. => SetsKey s fresh ∧ NoKey format d
    | .placing s todo _ => SetsKey s fresh ∧ (.secrets ∈ todo → NoKey format d)
    | .settling s _ => s.later = []
  | _ => True

lemma noKey_congr (h : NoKey format d)
    (hcontent : d'.content (.file .secrets) = d.content (.file .secrets)) : NoKey format d' := by
  intro secrets hsecrets
  rw [secretsOn, contentsOf_congr hcontent] at hsecrets
  exact h secrets hsecrets

lemma SetsKey.mem (h : SetsKey s fresh) : File.secrets ∈ s.files := by
  simp [Saving.files, h.group]

lemma Making.frame (h : Making format d w) (hspared : Spared d d' w) : Making format d' w := by
  have hheld := hspared.held .secrets
  unfold Making at h ⊢
  unfold Worker.holds at hheld
  cases hop : w.op with
  | make fresh =>
    simp only [hop] at h ⊢
    obtain ⟨hfresh, h⟩ := h
    refine ⟨hfresh, ?_⟩
    cases hw : w.stage with
    | idle => trivial
    | looking files =>
      simp only [hw] at h hheld ⊢
      exact noKey_congr h (hheld (by simp [hop, Op.rewrites, Op.making]))
    | reading other now files =>
      simp only [hw] at h hheld ⊢
      exact noKey_congr h (hheld (by simp [hop, Op.rewrites, Op.making]))
    | comparing s todo prepared =>
      simp only [hw] at h hheld ⊢
      exact ⟨h.1, fun hfile => noKey_congr (h.2 hfile) (hheld (by simpa using h.1.mem))⟩
    | opening s file todo prepared =>
      simp only [hw] at h hheld ⊢
      exact ⟨h.1, noKey_congr h.2 (hheld (by simpa using h.1.mem))⟩
    | writing s file i written rest todo prepared =>
      simp only [hw] at h hheld ⊢
      exact ⟨h.1, noKey_congr h.2 (hheld (by simpa using h.1.mem))⟩
    | placing s todo prepared =>
      simp only [hw] at h hheld ⊢
      exact ⟨h.1, fun hfile => noKey_congr (h.2 hfile) (hheld (by simpa using h.1.mem))⟩
    | settling s todo =>
      simp only [hw] at h ⊢
      exact h
  | reload => trivial
  | edit e => trivial
  | keyOrMake fresh =>
    simp only [hop] at h
    exact h

lemma lookup_put (key : String) (value : Json) (table : Table) :
    (table.put key value).lookup key = some value := by
  induction table with
  | nil => simp [Table.put]
  | cons entry table ih =>
    obtain ⟨k, v⟩ := entry
    simp only [Table.put]
    split
    · simp
    · next hne =>
      split
      · simp
      · rw [List.lookup_cons, beq_eq_false_iff_ne.mpr hne]
        exact ih

lemma secret_set {before after : ExtensionSettings} (hfresh : fresh ≠ "")
    (hset : before.set Backup.table [Backup.key] fresh = .ok after) :
    Backup.secret Backup.key after = some fresh := by
  simp only [ExtensionSettings.set, Table.set, if_neg (List.cons_ne_nil _ _)] at hset
  split at hset
  · cases hset
  · obtain rfl := Except.ok.inj hset
    simp [Backup.secret, ExtensionSettings.of, Json.get?, lookup_put, hfresh]

lemma op_failed : (w.failed s).op = w.op := by
  unfold Worker.failed
  split <;> rfl

lemma op_begin {e : Edit κ} : (w.begin_ e).op = w.op := by
  unfold Worker.begin_
  split <;> rfl

lemma op_go (h : ∀ fresh, w.op = .keyOrMake fresh → w.stage ≠ .looking []) :
    (w.go format d chance).2.op = w.op := by
  unfold Worker.go
  cases hw : w.stage with
  | idle => rfl
  | looking files =>
    cases files with
    | nil =>
      simp only [Worker.reloaded]
      split
      · rfl
      · exact op_begin
      · exact op_begin
      · next fresh hop => exact absurd hw (h fresh hop)
    | cons file files =>
      dsimp only
      split <;> rfl
  | reading file now files =>
    dsimp only
    split <;> rfl
  | comparing s todo prepared =>
    cases todo with
    | nil => rfl
    | cons file todo =>
      dsimp only
      split <;> rfl
  | opening s file todo prepared =>
    dsimp only
    split
    · rfl
    · exact op_failed
  | writing s file i written rest todo prepared =>
    cases rest with
    | nil => rfl
    | cons c rest =>
      dsimp only
      split
      · rfl
      · exact op_failed
  | placing s todo prepared =>
    cases todo with
    | nil => rfl
    | cons file todo =>
      dsimp only
      split
      · rfl
      · exact op_failed
  | settling s todo =>
    cases todo with
    | nil =>
      dsimp only
      split <;> rfl
    | cons file todo => rfl

lemma making_failed (hop : w.op = .make fresh) (hfresh : fresh ≠ "") (h : SetsKey s fresh) :
    Making format d (w.failed s) := by
  unfold Worker.failed
  rw [if_pos h.done]
  simp only [Making, Worker.at_, hop]
  exact ⟨hfresh, trivial⟩

lemma making_begin (hop : w.op = .make fresh) (hfresh : fresh ≠ "") (h : NoKey format d) :
    Making format d (w.begin_ (Backup.setSecret Backup.key fresh)) := by
  unfold Worker.begin_
  split
  · next goal group later hchange =>
    simp only [Backup.setSecret, Edit.secrets, Edit.one] at hchange
    cases hset : w.values.secrets.set Backup.table [Backup.key] fresh with
    | error e => simp [hset, Except.map] at hchange
    | ok after =>
      simp only [hset, Except.map, Except.ok.injEq, Prod.mk.injEq, List.cons.injEq] at hchange
      obtain ⟨rfl, rfl, rfl⟩ := hchange
      simp only [Making, Worker.at_, hop]
      refine ⟨hfresh, ⟨rfl, rfl, rfl, ?_⟩, fun _ => h⟩
      have hgoal : Function.update w.values .secrets after .secrets = after :=
        Function.update_self ..
      exact (congrArg (Backup.secret Backup.key) hgoal).trans (secret_set hfresh hset)
  · simp only [Making, Worker.at_, hop]
    exact ⟨hfresh, trivial⟩

lemma Making.go (h : Making format d w) (hexact : Exact law) (hsuits : Suits law d w)
    (hwhole : d.Whole) : Making format (w.go format d chance).1 (w.go format d chance).2 := by
  cases hop : w.op with
  | reload =>
    have hkept : (w.go format d chance).2.op = w.op := op_go (by simp [hop])
    simp only [Making, hkept, hop]
  | edit e =>
    have hkept : (w.go format d chance).2.op = w.op := op_go (by simp [hop])
    simp only [Making, hkept, hop]
  | keyOrMake fresh =>
    simp only [Making, hop] at h
    by_cases hw : w.stage = .looking []
    · have hstage := hsuits.stage
      rw [InStage, hw] at hstage
      have hdisk : secretsOn format d = some w.secrets :=
        contents_of_agrees hexact (hsuits.valid .secrets)
          (hstage .secrets (by simp [hop, Op.rewrites]) (by simp))
      simp only [Worker.go, hw, Worker.reloaded, hop]
      split
      · simp only [Making, Worker.at_, hop]
        exact h
      · next hnone =>
        refine ⟨h, fun secrets hsecrets => ?_⟩
        rw [hdisk, Option.some.injEq] at hsecrets
        exact hsecrets ▸ Option.not_isSome_iff_eq_none.1 hnone
    · have hkept : (w.go format d chance).2.op = w.op := op_go fun _ _ => hw
      simp only [Making, hkept, hop]
      exact h
  | make fresh =>
    simp only [Making, hop] at h
    obtain ⟨hfresh, h⟩ := h
    have hstage := hsuits.stage
    unfold InStage at hstage
    unfold Worker.go
    cases hw : w.stage with
    | idle =>
      simp only [Making, hop, hw]
      exact ⟨hfresh, trivial⟩
    | looking files =>
      simp only [hw] at h
      cases files with
      | nil =>
        simp only [Worker.reloaded, hop]
        exact making_begin hop hfresh h
      | cons file files =>
        dsimp only
        split <;>
        · simp only [Making, Worker.at_, hop]
          exact ⟨hfresh, h⟩
    | reading file now files =>
      simp only [hw] at h
      dsimp only
      split <;>
      · simp only [Making, Worker.at_, hop]
        exact ⟨hfresh, h⟩
    | comparing s todo prepared =>
      simp only [hw] at h hstage
      cases todo with
      | nil =>
        simp only [Making, Worker.at_, hop]
        exact ⟨hfresh, h.1, fun hfile => h.2 (by simpa using hfile)⟩
      | cons file todo =>
        dsimp only
        split
        · simp only [Making, Worker.at_, hop]
          refine ⟨hfresh, h.1, fun hfile => h.2 ?_⟩
          rcases List.mem_append.1 hfile with hfile | hfile
          · exact List.mem_append_left _ hfile
          · exact List.mem_append_right _ (List.mem_cons_of_mem _ hfile)
        · have hfile : file = .secrets := by
            have hgroup := hstage.inside file (by simp)
            simpa [h.1.group] using hgroup
          simp only [Making, Worker.at_, hop]
          exact ⟨hfresh, h.1, h.2 (by simp [hfile])⟩
    | opening s file todo prepared =>
      simp only [hw] at h
      dsimp only
      split
      · simp only [Making, Worker.at_, hop]
        exact ⟨hfresh, h.1, noKey_congr h.2 (Disk.content_create_of_ne hwhole (by simp))⟩
      · exact making_failed hop hfresh h.1
    | writing s file i written rest todo prepared =>
      simp only [hw] at h hstage
      cases rest with
      | nil =>
        simp only [Making, Worker.at_, hop]
        exact ⟨hfresh, h.1, fun _ => h.2⟩
      | cons c rest =>
        dsimp only
        split
        · simp only [Making, Worker.at_, hop]
          exact ⟨hfresh, h.1,
            noKey_congr h.2 (Disk.content_write_of_ne hwhole hstage.2.1 (by simp))⟩
        · exact making_failed hop hfresh h.1
    | placing s todo prepared =>
      simp only [hw] at h hstage
      cases todo with
      | nil =>
        simp only [Making, Worker.at_, Worker.holdGoal, hop]
        exact ⟨hfresh, h.1.later⟩
      | cons file todo =>
        dsimp only
        split
        · have hfile : file = .secrets := by
            have hgroup := hstage.group file (hstage.inside file List.mem_cons_self)
            simpa [h.1.group] using hgroup
          have hnot : File.secrets ∉ todo := hfile ▸ (List.nodup_cons.1 hstage.parts).1
          simp only [Making, Worker.at_, hop]
          exact ⟨hfresh, h.1, fun hmem => absurd hmem hnot⟩
        · exact making_failed hop hfresh h.1
    | settling s todo =>
      simp only [hw] at h
      cases todo with
      | nil =>
        simp only [h, Making, Worker.at_, hop]
        exact ⟨hfresh, trivial⟩
      | cons file todo =>
        simp only [Making, hop]
        exact ⟨hfresh, h⟩

/-! ### Runs -/

/-- What is promised of the secrets is on disk. -/
structure Promised (law : Lawful format) (l : Ledger) (x : World κ) : Prop where
  coherent : Coherent law x
  kept : l.Kept format x
  given : ∀ key, l.given = some key → ∃ secrets,
    secretsOn format x.disk = some secrets ∧
      Backup.secret Backup.key secrets = some key
  making : ∀ (n : Nat) w, x.workers[n]? = some w → Making format x.disk w

lemma kept_put (hexact : Exact law) (hsuits : Suits law x.disk w) (h : l.Kept format x)
    (hputs : w.puts format x.disk chance = some s) (workers : Map Nat (Worker κ)) :
    (l.put format w s).Kept format ⟨(w.go format x.disk chance).1, workers⟩ := by
  obtain ⟨hbefore, htext, hafter⟩ := puts_some hexact hsuits hputs
  refine ⟨fun extension path value hvalue => ⟨_, hafter, ?_⟩, fun text hsome => ?_⟩
  · simp only [Ledger.put] at hvalue
    split at hvalue
    · next hsame =>
      obtain ⟨secrets, hsecrets, hat⟩ := h.1 extension path value hvalue
      rw [hbefore, Option.some.injEq] at hsecrets
      rw [← hsame, hsecrets, hat]
    · exact hvalue
  · obtain rfl := Option.some.inj hsome
    exact htext

lemma looked_secrets (hexact : Exact law) (hsuits : Suits law d w) (hop : w.op = .keyOrMake fresh)
    (hw : w.stage = .looking []) : secretsOn format d = some w.secrets := by
  have hstage := hsuits.stage
  rw [InStage, hw] at hstage
  exact contents_of_agrees hexact (hsuits.valid .secrets)
    (hstage .secrets (by simp [hop, Op.rewrites]) (by simp))

lemma noKey_of_puts (hmaking : Making format d w) (hop : w.op = .make fresh)
    (hputs : w.puts format d chance = some s) : NoKey format d ∧ SetsKey s fresh := by
  simp only [Making, hop] at hmaking
  obtain ⟨-, hmaking⟩ := hmaking
  unfold Worker.puts at hputs
  split at hputs
  · next s' todo prepared hw =>
    split at hputs
    · cases hputs
      simp only [hw] at hmaking
      exact ⟨hmaking.2 (by simp), hmaking.1⟩
    · cases hputs
  · next s' todo prepared hw =>
    split at hputs
    · cases hputs
      simp only [hw] at hmaking
      exact ⟨hmaking.2 (by simp), hmaking.1⟩
    · cases hputs
  · cases hputs

lemma Promised.oneKey (h : Promised law l x) (hexact : Exact law) (event : WorldEvent κ) :
    l.OneKey format x event := by
  cases event with
  | go n chance =>
    simp only [Ledger.OneKey]
    cases hw : x.workers[n]? with
    | none => trivial
    | some w =>
      intro key hkey before hbefore
      obtain ⟨secrets, hsecrets, hsecret⟩ := h.given before hbefore
      unfold Worker.gives at hkey
      cases hop : w.op with
      | keyOrMake fresh =>
        simp only [hop] at hkey
        split at hkey
        · next hlooked =>
          rw [looked_secrets hexact (h.coherent.suits n w hw) hop hlooked] at hsecrets
          obtain rfl := Option.some.inj hsecrets
          exact Option.some.inj (hkey.symm.trans hsecret)
        · cases hkey
      | make fresh =>
        simp only [hop] at hkey
        obtain ⟨s, hputs, -⟩ := Option.map_eq_some_iff.1 hkey
        have hnone := (noKey_of_puts (h.making n w hw) hop hputs).1 secrets hsecrets
        rw [hnone] at hsecret
        cases hsecret
      | reload => simp [hop] at hkey
      | edit e => simp [hop] at hkey
  | ask n op => trivial
  | outside file inode => trivial
  | restart => trivial

lemma given_step (hexact : Exact law) (h : Promised law l x) (hw : x.workers[n]? = some w)
    {key : String} (hkey : (l.step format x.disk w chance).given = some key) :
    ∃ secrets, secretsOn format (w.go format x.disk chance).1 = some secrets ∧
      Backup.secret Backup.key secrets = some key := by
  have hsuits := h.coherent.suits n w hw
  unfold Ledger.step at hkey
  cases hputs : w.puts format x.disk chance with
  | none =>
    have hcontent := content_of_puts_none hsuits h.coherent.whole hputs
    have hsame : secretsOn format (w.go format x.disk chance).1 = secretsOn format x.disk :=
      contentsOf_congr hcontent
    rw [hsame]
    simp only [hputs] at hkey
    split at hkey
    · next found hgives =>
      obtain rfl := Option.some.inj hkey
      unfold Worker.gives at hgives
      cases hop : w.op with
      | keyOrMake fresh =>
        simp only [hop] at hgives
        split at hgives
        · next hlooked => exact ⟨_, looked_secrets hexact hsuits hop hlooked, hgives⟩
        · cases hgives
      | make fresh => simp [hop, hputs] at hgives
      | reload => simp [hop] at hgives
      | edit e => simp [hop] at hgives
    · exact h.given key hkey
  | some s =>
    obtain ⟨hbefore, -, hafter⟩ := puts_some hexact hsuits hputs
    refine ⟨_, hafter, ?_⟩
    simp only [hputs] at hkey
    split at hkey
    · next found hgives =>
      obtain rfl := Option.some.inj hkey
      unfold Worker.gives at hgives
      cases hop : w.op with
      | keyOrMake fresh =>
        simp only [hop] at hgives
        split at hgives
        · next hlooked => simp [Worker.puts, hlooked] at hputs
        · cases hgives
      | make fresh =>
        simp only [hop, hputs, Option.map_some, Option.some.injEq] at hgives
        exact hgives ▸ (noKey_of_puts (h.making n w hw) hop hputs).2.goal
      | reload => simp [hop] at hgives
      | edit e => simp [hop] at hgives
    · simp only [Ledger.put] at hkey
      split at hkey
      · next hsame =>
        obtain ⟨secrets, hsecrets, hsecret⟩ := h.given key hkey
        rw [hbefore, Option.some.injEq] at hsecrets
        rw [← hsame, hsecrets, hsecret]
      · cases hkey

lemma kept_step (hexact : Exact law) (h : Promised law l x) (hw : x.workers[n]? = some w)
    (workers : Map Nat (Worker κ)) :
    (l.step format x.disk w chance).Kept format ⟨(w.go format x.disk chance).1, workers⟩ := by
  have hsuits := h.coherent.suits n w hw
  unfold Ledger.step
  cases hputs : w.puts format x.disk chance with
  | none =>
    have hcontent := content_of_puts_none hsuits h.coherent.whole hputs
    have hsame : secretsOn format (w.go format x.disk chance).1 = secretsOn format x.disk :=
      contentsOf_congr hcontent
    have hkept : l.Kept format ⟨(w.go format x.disk chance).1, workers⟩ := by
      refine ⟨fun extension path value hvalue => ?_, fun text htext => ?_⟩
      · rw [hsame]
        exact h.kept.1 extension path value hvalue
      · rw [hcontent]
        exact h.kept.2 text htext
    dsimp only
    split <;> exact hkept
  | some s =>
    have hkept := kept_put hexact hsuits h.kept hputs workers
    dsimp only
    split <;> exact hkept

lemma making_new {op : Op κ} (hop : ∀ fresh, op = .make fresh → False)
    (hfresh : ∀ fresh, op = .keyOrMake fresh → fresh ≠ "") (store : Store κ) (stage : Stage κ) :
    Making format d ⟨store, op, stage⟩ := by
  cases op with
  | make fresh => exact (hop fresh rfl).elim
  | keyOrMake fresh => exact hfresh fresh rfl
  | reload => trivial
  | edit e => trivial

lemma Promised.ask {op : Op κ} (h : Promised law l x) (hkeeps : op.Keeps law)
    (hmakes : (WorldEvent.ask n op).Makes) : Promised law l (x.ask format n op) := by
  have hnew : ∀ store, Making format x.disk ⟨store, op, .looking File.all⟩ := by
    refine fun store => making_new ?_ ?_ store _
    · rintro fresh rfl
      exact hmakes
    · rintro fresh rfl
      exact hmakes
  have hset : ∀ store (k : Nat) v,
      (x.workers.insert n ⟨store, op, .looking File.all⟩)[k]? = some v →
      Making format x.disk v := by
    intro store k v hv
    rw [Map.get_insert] at hv
    split at hv
    · exact Option.some.inj hv ▸ hnew store
    · exact h.making k v hv
  have hcoherent := h.coherent.ask (n := n) hkeeps
  unfold World.ask at hcoherent ⊢
  split
  · next hnone =>
    simp only [hnone] at hcoherent
    exact ⟨hcoherent, h.kept, h.given, hset _⟩
  · next w hw =>
    simp only [hw] at hcoherent
    split
    · next hidle =>
      rw [if_pos hidle] at hcoherent
      exact ⟨hcoherent, h.kept, h.given, hset _⟩
    · exact h

lemma Promised.outside {inode : Inode} (h : Promised law l x)
    (horderly : x.Orderly format (.outside file inode)) :
    Promised law (l.after format x (.outside file inode)) (x.after format (.outside file inode)) := by
  refine ⟨h.coherent.outside horderly, ?_, ?_, fun k v hv =>
    (h.making k v hv).frame (h.coherent.sparedOutside horderly hv)⟩
  all_goals
    have hsame : file ≠ .secrets → (x.disk.replace (.file file) inode).content (.file .secrets) =
        x.disk.content (.file .secrets) :=
      fun hne => Disk.content_replace_of_ne h.coherent.whole (by simpa using Ne.symm hne)
    have hsecrets : file ≠ .secrets → secretsOn format (x.disk.replace (.file file) inode) =
        secretsOn format x.disk := fun hne => contentsOf_congr (hsame hne)
  · by_cases hfile : file = .secrets
    · subst hfile
      refine ⟨fun _ _ _ hvalue => ?_, fun _ htext => ?_⟩
      · cases hvalue
      · cases htext
    · have hledger : l.after format x (.outside file inode) = l := by
        cases file <;> first | rfl | exact absurd rfl hfile
      rw [hledger]
      refine ⟨fun extension path value hvalue => ?_, fun text htext => ?_⟩
      · simp only [World.after]
        rw [hsecrets hfile]
        exact h.kept.1 extension path value hvalue
      · simp only [World.after]
        rw [hsame hfile]
        exact h.kept.2 text htext
  · by_cases hfile : file = .secrets
    · subst hfile
      intro _ hkey
      cases hkey
    · have hledger : l.after format x (.outside file inode) = l := by
        cases file <;> first | rfl | exact absurd rfl hfile
      rw [hledger]
      intro key hkey
      simp only [World.after]
      rw [hsecrets hfile]
      exact h.given key hkey

lemma making_start (n : Nat) (w : Worker κ) (hw : (World.start format d).workers[n]? = some w) :
    Making format d w := by
  rw [World.start, Map.get_insert] at hw
  split at hw
  · obtain rfl := Option.some.inj hw
    trivial
  · simp at hw

lemma Promised.after {event : WorldEvent κ} (h : Promised law l x) (hexact : Exact law)
    (hkeeps : event.Keeps law) (hmakes : event.Makes) (horderly : x.Orderly format event) :
    Promised law (l.after format x event) (x.after format event) := by
  have hcoherent := h.coherent.after hkeeps horderly
  cases event with
  | ask n op => exact h.ask hkeeps hmakes
  | go n chance =>
    simp only [Ledger.after, World.after] at hcoherent ⊢
    cases hw : x.workers[n]? with
    | none =>
      simp only [hw] at hcoherent
      exact ⟨hcoherent, h.kept, h.given, h.making⟩
    | some w =>
      simp only [hw] at hcoherent
      refine ⟨hcoherent, kept_step hexact h hw _, fun key hkey => given_step hexact h hw hkey,
        fun k v hv => ?_⟩
      rcases get_settle hv with ⟨rfl, rfl⟩ | ⟨hkn, hv⟩
      · exact (h.making k w hw).go hexact (h.coherent.suits k w hw) h.coherent.whole
      · exact (h.making k v hv).frame (h.coherent.spared hw horderly hv hkn)
  | outside file inode => exact h.outside horderly
  | restart => exact ⟨hcoherent, h.kept, h.given, making_start⟩

lemma Promised.safe {events : List (WorldEvent κ)} (h : Promised law l x) (hexact : Exact law)
    (hkeeps : ∀ event ∈ events, event.Keeps law) (hmakes : ∀ event ∈ events, event.Makes)
    (horderly : x.All format (fun x => x.Orderly format) events) : l.Safe format x events := by
  induction events generalizing l x with
  | nil => exact h.kept
  | cons event events ih =>
    refine ⟨h.kept, h.oneKey hexact event, ih (h.after hexact (hkeeps _ List.mem_cons_self)
      (hmakes _ List.mem_cons_self) horderly.1) (fun other hother => ?_) (fun other hother => ?_)
      horderly.2⟩
    · exact hkeeps other (List.mem_cons_of_mem _ hother)
    · exact hmakes other (List.mem_cons_of_mem _ hother)

lemma exact_keyLaw : Exact keyLaw := by
  rintro secrets (rfl | ⟨key, hkey, rfl⟩)
  · rw [write_none, read_header]
  · rw [write_key (by rintro rfl; simp at hkey), read_keyText hkey]

/-- Two keys are looked up, and made, at once. Neither is there when the other looks. -/
def makesTwo (count : Nat) : List (WorldEvent fun _ => Unit) :=
  [.ask 1 (.keyOrMake "irori-key"), .ask 2 (.keyOrMake "other-key")] ++
    List.replicate 18 (.go 1 ⟨true, 2, 1000⟩) ++ List.replicate 18 (.go 2 ⟨true, 2, 1000⟩) ++
    List.replicate 9 (.go 1 ⟨true, 2, 1000⟩) ++ List.replicate count (.go 2 ⟨true, 3, 1000⟩)

def Ledger.afterAll (format : Format κ) (now : Ledger × World κ) (events : List (WorldEvent κ)) :
    Ledger × World κ :=
  events.foldl (fun now event => (now.1.after format now.2 event, now.2.after format event)) now

def nextKey (format : Format κ) (x : World κ) (n : Nat) (chance : Chance) : Option String :=
  x.workers[n]?.bind fun w => w.gives format x.disk chance

lemma oneKey_of_safe {event : WorldEvent κ} {before events : List (WorldEvent κ)}
    (hevents : events = before ++ [event]) (h : l.Safe format x events) :
    (Ledger.afterAll format (l, x) before).1.OneKey format (Ledger.afterAll format (l, x) before).2
      event := by
  subst hevents
  induction before generalizing l x with
  | nil => exact h.2.1
  | cons other before ih => exact ih h.2.2

lemma not_safe_of_nextKey {count : Nat} {now : Ledger × World fun _ => Unit}
    (hnow : now = Ledger.afterAll keyFormat (.blank, World.start keyFormat d) (makesTwo count))
    {given next : String} (hgiven : now.1.given = some given)
    (hnext : nextKey keyFormat now.2 2 ⟨true, 3, 1000⟩ = some next) (hne : next ≠ given) :
    ¬ Ledger.blank.Safe keyFormat (World.start keyFormat d) (makesTwo (count + 1)) := by
  intro h
  have hevents : makesTwo (count + 1) = makesTwo count ++ [.go 2 ⟨true, 3, 1000⟩] := by
    have hlast : List.replicate (count + 1) (WorldEvent.go 2 ⟨true, 3, 1000⟩) =
        List.replicate count (.go 2 ⟨true, 3, 1000⟩) ++
          [(.go 2 ⟨true, 3, 1000⟩ : WorldEvent fun _ => Unit)] := List.replicate_succ' ..
    rw [makesTwo, makesTwo, hlast, List.append_assoc]
    simp only [List.append_assoc]
  have hone := oneKey_of_safe hevents h
  rw [← hnow] at hone
  obtain ⟨w, hw, hgives⟩ := Option.bind_eq_some_iff.1 hnext
  simp only [Ledger.OneKey, hw] at hone
  exact hne (hone next hgives given hgiven)

section

variable {k : Nat}

/-- A worker's next steps give no key, and put no secrets in place. -/
def Mute (format : Format κ) (chance : Chance) : Nat → Disk Filename × Worker κ → Prop
  | 0, _ => True
  | k + 1, now => (World.isIdle now.2.stage = false ∧ now.2.gives format now.1 chance = none ∧
      now.2.puts format now.1 chance = none) ∧
    Mute format chance k (now.2.go format now.1 chance)

lemma afterAll_mute (hw : x.workers[n]? = some w)
    (hmute : Mute format chance k (x.disk, w)) :
    (Ledger.afterAll format (l, x) (List.replicate k (.go n chance))).1 = l := by
  induction k generalizing x w with
  | zero => rfl
  | succ k ih =>
    obtain ⟨⟨-, hgives, hputs⟩, hrest⟩ := hmute
    have hledger : l.after format x (.go n chance) = l := by
      simp only [Ledger.after, hw, Ledger.step, hgives, hputs]
    rw [List.replicate_succ, Ledger.afterAll, List.foldl_cons, hledger]
    cases k with
    | zero => rfl
    | succ k =>
      have hself : (x.workers.insert n (w.go format x.disk chance).2)[n]? =
          some (w.go format x.disk chance).2 := by
        rw [Map.get_insert, if_pos rfl]
      rw [after_go hw hrest.1.1]
      exact ih (x := ⟨_, _⟩) hself hrest

lemma afterAll_snd {now : Ledger × World κ} {events : List (WorldEvent κ)} :
    (Ledger.afterAll format now events).2 =
      events.foldl (fun x event => x.after format event) now.2 := by
  induction events generalizing now with
  | nil => rfl
  | cons event events ih => exact ih

lemma ledgers_append {now : Ledger × World κ} {events later : List (WorldEvent κ)} :
    Ledger.afterAll format now (events ++ later) =
      Ledger.afterAll format (Ledger.afterAll format now events) later := List.foldl_append ..

lemma mute_writes {key : String} {time : Nat} (hkey : key ∈ ["irori-key", "other-key"])
    (hother : (d.content (.file .secrets)).map Inode.text ≠ some (keyText key).toList) :
    Mute keyFormat ⟨true, time, 1000⟩ 5 (d, comparing key) := by
  have hne : key ≠ "" := by
    rintro rfl
    simp at hkey
  obtain ⟨c, cs, htext⟩ := List.exists_cons_of_ne_nil (keyText_ne key)
  have hlen := length_keyText hkey
  rw [htext] at hother hlen
  have htake : (c :: cs).take 1001 = c :: cs := List.take_of_length_le hlen
  have hdrop : (c :: cs).drop 1001 = [] := List.drop_of_length_le hlen
  simp only [Mute, comparing, World.isIdle, Worker.gives, Worker.puts, Worker.go, Worker.at_,
    text_saving hne, htext, if_neg hother, if_true, htake, hdrop, List.length_nil,
    List.nil_append, Option.map_none, and_self]

lemma given_places {x : World fun _ => Unit} {key : String} {time : Nat}
    (hw : x.workers[n]? =
      some ⟨Store.new keyFormat, .make key, .placing (saving key) [.secrets] [.secrets]⟩)
    (hnames : (x.disk.names (.writing .secrets)).isSome = true) :
    (Ledger.afterAll keyFormat (l, x) (List.replicate 4 (.go n ⟨true, time, 1000⟩))).1.given =
      some key := by
  have hgo : Worker.go keyFormat
      ⟨Store.new keyFormat, .make key, .placing (saving key) [.secrets] [.secrets]⟩ x.disk
        ⟨true, time, 1000⟩ = (x.disk.rename (.writing .secrets) (.file .secrets),
          ⟨Store.new keyFormat, .make key, .placing (saving key) [] [.secrets]⟩) := by
    simp only [Worker.go, Worker.at_, hnames, Bool.and_self, if_true]
  have hself : ∀ workers : Map Nat (Worker fun _ => Unit), (workers.insert n
      ⟨Store.new keyFormat, .make key, .placing (saving key) [] [.secrets]⟩)[n]? =
        some ⟨Store.new keyFormat, .make key, .placing (saving key) [] [.secrets]⟩ := by
    intro workers
    rw [Map.get_insert, if_pos rfl]
  have hmute : Mute keyFormat ⟨true, time, 1000⟩ 3
      (x.disk.rename (.writing .secrets) (.file .secrets),
        ⟨Store.new keyFormat, .make key, .placing (saving key) [] [.secrets]⟩) := by
    simp only [Mute, World.isIdle, Worker.gives, Worker.puts, Worker.go, Worker.at_,
      Worker.holdGoal, saving, Option.map_none, and_self]
  have hgiven : (l.after keyFormat x (.go n ⟨true, time, 1000⟩)).given = some key := by
    simp only [Ledger.after, hw, Ledger.step, Worker.gives, Worker.puts, hnames, Bool.and_self,
      if_true, Option.map_some]
  have hbusy : World.isIdle (Worker.go keyFormat
      ⟨Store.new keyFormat, .make key, .placing (saving key) [.secrets] [.secrets]⟩ x.disk
        ⟨true, time, 1000⟩).2.stage = false := by
    rw [hgo]
    rfl
  rw [List.replicate_succ, Ledger.afterAll, List.foldl_cons, after_go hw hbusy, hgo, ← hgiven]
  exact congrArg Ledger.given (afterAll_mute (x := ⟨_, _⟩) (hself _) hmute)

lemma after_go_other {m : Nat} (hne : m ≠ n) :
    (x.after format (.go n chance)).workers[m]? = x.workers[m]? := by
  simp only [World.after]
  split
  · rfl
  · simp only [World.settle]
    split
    · rw [Map.get_erase, if_neg (Ne.symm hne)]
    · rw [Map.get_insert, if_neg (Ne.symm hne)]

lemma foldl_go_other {m : Nat} (hne : m ≠ n) :
    ((List.replicate k (WorldEvent.go n chance)).foldl
      (fun x event => x.after format event) x).workers[m]? = x.workers[m]? := by
  induction k generalizing x with
  | zero => rfl
  | succ k ih => exact (ih (x := x.after format (.go n chance))).trans (after_go_other hne)

lemma stands_go {v : Worker κ} (hd : x.disk = d) (hw : x.workers[n]? = some w)
    (hgoes : goes format chance k (d, w) = (d', v)) (hbusy : World.isIdle v.stage = false) :
    ((List.replicate k (WorldEvent.go n chance)).foldl
        (fun x event => x.after format event) x).disk = d' ∧
      ((List.replicate k (WorldEvent.go n chance)).foldl
        (fun x event => x.after format event) x).workers[n]? = some v := by
  subst hd
  rw [foldl_go hw (by rw [hgoes]; exact hbusy), hgoes, Map.get_insert, if_pos rfl]
  exact ⟨rfl, rfl⟩

lemma looksBoth (x : World fun _ => Unit) (hx : x = [WorldEvent.ask 1 (.keyOrMake "irori-key"),
      .ask 2 (.keyOrMake "other-key")].foldl (fun x event => x.after keyFormat event)
        (World.start keyFormat emptyDisk)) (y : World fun _ => Unit)
    (hy : y = (List.replicate 18 (WorldEvent.go 1 ⟨true, 2, 1000⟩) ++
      List.replicate 18 (WorldEvent.go 2 ⟨true, 2, 1000⟩)).foldl
        (fun x event => x.after keyFormat event) x) :
    y.disk = emptyDisk ∧ y.workers[1]? = some (comparing "irori-key") ∧
      y.workers[2]? = some (comparing "other-key") := by
  have hstart : x = ⟨emptyDisk, ((World.start keyFormat emptyDisk).workers.insert 1
      ⟨Store.new keyFormat, .keyOrMake "irori-key", .looking File.all⟩).insert 2
        ⟨Store.new keyFormat, .keyOrMake "other-key", .looking File.all⟩⟩ := by
    have hnone : ((World.start keyFormat emptyDisk).workers.insert 1
        (⟨Store.new keyFormat, .keyOrMake "irori-key", .looking File.all⟩ :
          Worker fun _ => Unit))[2]? = none := by
      rw [Map.get_insert, if_neg (by decide), World.start, Map.get_insert, if_neg (by decide)]
      exact Std.ExtTreeMap.getElem?_empty
    rw [hx, List.foldl_cons, List.foldl_cons, List.foldl_nil, start_ask, World.after, World.ask]
    simp only [hnone]
  have hfirst : x.workers[1]? =
      some ⟨Store.new keyFormat, .keyOrMake "irori-key", .looking File.all⟩ := by
    rw [hstart, Map.get_insert, if_neg (by decide), Map.get_insert, if_pos rfl]
  have hsecond : x.workers[2]? =
      some ⟨Store.new keyFormat, .keyOrMake "other-key", .looking File.all⟩ := by
    rw [hstart, Map.get_insert, if_pos rfl]
  obtain ⟨hdisk, hone⟩ := stands_go (congrArg World.disk hstart) hfirst
    (goes_looksTwice ⟨true, 2, 1000⟩ _).1 rfl
  have hother : ((List.replicate 18 (WorldEvent.go 1 ⟨true, 2, 1000⟩)).foldl
      (fun x event => x.after keyFormat event) x).workers[2]? =
        some ⟨Store.new keyFormat, .keyOrMake "other-key", .looking File.all⟩ :=
    (foldl_go_other (by decide)).trans hsecond
  obtain ⟨hdisk', htwo⟩ := stands_go hdisk hother (goes_looksTwice ⟨true, 2, 1000⟩ _).1 rfl
  rw [hy, List.foldl_append]
  exact ⟨hdisk', (foldl_go_other (by decide)).trans hone, htwo⟩

lemma makesTwo_next :
    (Ledger.afterAll keyFormat (.blank, World.start keyFormat emptyDisk) (makesTwo 5)).1.given =
        some "irori-key" ∧
      nextKey keyFormat
        (Ledger.afterAll keyFormat (.blank, World.start keyFormat emptyDisk) (makesTwo 5)).2 2
        ⟨true, 3, 1000⟩ = some "other-key" := by
  have hirori : "irori-key" ∈ ["irori-key", "other-key"] := List.mem_cons_self
  have hother : "other-key" ∈ ["irori-key", "other-key"] :=
    List.mem_cons_of_mem _ List.mem_cons_self
  obtain ⟨both, hboth⟩ : ∃ both, both = Ledger.afterAll keyFormat
      (.blank, World.start keyFormat emptyDisk) ([.ask 1 (.keyOrMake "irori-key"),
        .ask 2 (.keyOrMake "other-key")] ++ (List.replicate 18 (.go 1 ⟨true, 2, 1000⟩) ++
          List.replicate 18 (.go 2 ⟨true, 2, 1000⟩))) := ⟨_, rfl⟩
  obtain ⟨written, hwritten⟩ : ∃ written, written = Ledger.afterAll keyFormat both
      (List.replicate 5 (.go 1 ⟨true, 2, 1000⟩)) := ⟨_, rfl⟩
  obtain ⟨placed, hplaced⟩ : ∃ placed, placed = Ledger.afterAll keyFormat written
      (List.replicate 4 (.go 1 ⟨true, 2, 1000⟩)) := ⟨_, rfl⟩
  have hall : Ledger.afterAll keyFormat (.blank, World.start keyFormat emptyDisk) (makesTwo 5) =
      Ledger.afterAll keyFormat placed (List.replicate 5 (.go 2 ⟨true, 3, 1000⟩)) := by
    have hnine : List.replicate 9 (WorldEvent.go 1 ⟨true, 2, 1000⟩ : WorldEvent fun _ => Unit) =
      List.replicate 5 (.go 1 ⟨true, 2, 1000⟩) ++ List.replicate 4 (.go 1 ⟨true, 2, 1000⟩) := rfl
    rw [makesTwo, hnine, hplaced, hwritten, hboth]
    simp only [ledgers_append]
  obtain ⟨hempty, hfirst, hsecond⟩ := looksBoth _ rfl both.2 (by
    rw [hboth, afterAll_snd, List.foldl_append])
  -- The first writes its key.
  have hwritten' : written.2.disk =
        writtenBeside emptyDisk .secrets (keyText "irori-key").toList 2 ∧
      written.2.workers[1]? = some ⟨Store.new keyFormat, .make "irori-key",
        .placing (saving "irori-key") [.secrets] [.secrets]⟩ ∧
      written.2.workers[2]? = some (comparing "other-key") := by
    rw [hwritten, afterAll_snd]
    obtain ⟨hdisk, hone⟩ :=
      stands_go hempty hfirst (goes_writes (d := emptyDisk) 2 hirori nofun).1 rfl
    exact ⟨hdisk, hone, (foldl_go_other (by decide)).trans hsecond⟩
  have hgiven : placed.1.given = some "irori-key" := by
    rw [hplaced]
    refine given_places hwritten'.2.1 ?_
    rw [hwritten'.1, ← Option.isSome_map, ← Disk.content, content_writtenBeside]
    rfl
  have hplaced' : (placed.2.disk.content (.file .secrets)).map Inode.text =
        some (keyText "irori-key").toList ∧
      placed.2.workers[2]? = some (comparing "other-key") := by
    obtain ⟨hgoes, hsmoothly⟩ := goes_places emptyDisk "irori-key" 2
    rw [hplaced, afterAll_snd]
    refine ⟨?_, (foldl_go_other (by decide)).trans hwritten'.2.2⟩
    rw [disk_foldl_go (by decide) hwritten'.2.1 (hwritten'.1 ▸ hsmoothly), hwritten'.1, hgoes,
      content_placed, Option.map_some]
  -- The other writes its own, and is about to put it there.
  have hne : (placed.2.disk.content (.file .secrets)).map Inode.text ≠
      some (keyText "other-key").toList := by
    rw [hplaced'.1, Ne, Option.some.injEq, String.toList_inj]
    decide +kernel
  rw [hall]
  refine ⟨?_, ?_⟩
  · rw [afterAll_mute hplaced'.2 (mute_writes hother hne), hgiven]
  · obtain ⟨hdisk, htwo⟩ := stands_go rfl hplaced'.2 (goes_writes 3 hother hne).1 rfl
    have hnames : ∀ d : Disk Filename, (((writtenBeside d .secrets (keyText "other-key").toList
        3).names (.writing .secrets)).isSome = true) := by
      intro d
      rw [← Option.isSome_map, ← Disk.content, content_writtenBeside]
      rfl
    rw [nextKey, afterAll_snd, htwo, hdisk, Option.bind_some, Worker.gives, Worker.puts]
    simp only [hnames, Bool.and_self, if_true, Option.map_some]

end

end Irori.Proofs
