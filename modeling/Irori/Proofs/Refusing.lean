import Irori.Config.Operations
import Irori.Lib.Index
import Irori.Proofs.Locking

/-!
# A refused edit leaves everything alone

When each operation on the config leaves the files and the core as they were where it is refused,
the directory reading as it did where nothing could be prepared, and the core with what a reload of
the files gives where it is done.
-/

namespace Irori.Proofs
open Irori Config

variable {τ η ι : Type}

/-! ### What is to hold -/

inductive Aspect
  | settings | extensions | people | home | recorder | disabled
  deriving DecidableEq

def SameOf (a b : Held τ η) : Aspect → Prop
  | .settings => a.settings = b.settings
  | .extensions => a.extensions = b.extensions
  | .people => a.people = b.people
  | .home => a.home = b.home
  | .recorder => a.recorder = b.recorder
  | .disabled => a.disabled = b.disabled

/-- The core holds what the directory tells, apart from what an operation is about. -/
def InTouch (touched : List Aspect) (core : Running τ η) (home : ConfigDir τ η ι) : Prop :=
  ∀ aspect : Aspect, aspect ∉ touched → SameOf core.held home.held aspect

/-- Every file reads as it did. -/
def ReadsAs (format : Formats τ η ι) (home home' : ConfigDir τ η ι) : Prop :=
  (∀ file : File, contentsOf format.toFormat home'.files file =
    contentsOf format.toFormat home.files file) ∧
  ∀ id : ExtensionId, (home'.extensionFiles[id]?).map (ConfigDir.extensionText format) =
    (home.extensionFiles[id]?).map (ConfigDir.extensionText format)

def Right (format : Formats τ η ι) (home : ConfigDir τ η ι) (core : Running τ η) :
    ConfigDir.Outcome τ η ι → Prop
  | (.refused, home', core') => home'.files = home.files ∧
      home'.extensionFiles = home.extensionFiles ∧ core'.held = core.held
  | (.io .preparing, home', _) => ReadsAs format home home'
  | (.io .placing, _, _) => True
  | (.ok, home', core') => core'.held = (home'.reload format).held

section

variable [DecidableEq τ]

/-- An operation that is refused, or can't be prepared, leaves everything alone, and one that is
done is told. -/
def LeavesAlone (format : Formats τ η ι) (home : ConfigDir τ η ι) (core : Running τ η)
    (fates : Fates) (op : Operation τ η) : Prop :=
  Right format home core (home.run format core fates op)

/-! ### When it does -/

/-- A file is written, or needn't be. -/
def Writes (home : ConfigDir τ η ι) (file : File) (text : String) (fate : Fate) : Prop :=
  home.hasText file text = true ∨ fate.isWorking = true

def WritesExtension (home : ConfigDir τ η ι) (extension : ExtensionId) (text : String)
    (fate : Fate) : Prop :=
  ((home.extensionFiles[extension]?).any fun written => written.text = some text) = true ∨
    fate.isWorking = true

def WritesAll (format : Formats τ η ι) (home : ConfigDir τ η ι) (settings : Settings τ)
    (fates : Fates) : Prop :=
  ∀ file ∈ home.changed format settings, (fates.file file).isWorking = true

/-- What is left of an extension's file, when the secrets that go with it can't be written. -/
def leftOf (format : Formats τ η ι) (home : ConfigDir τ η ι) (extension : ExtensionId)
    (text : String) (fates : Fates) : Option String :=
  if home.extensions.contains extension then
    match format.writeExtension extension (home.extensionFile extension) with
    | .ok old => if fates.restore.isWorking then some old else some text
    | .error _ => some text
  else if fates.removes then none
  else some text

/-- When an operation leaves everything alone: the core was in step with the directory apart from
what the operation is about; a device that is to be forgotten is there, or nothing is kept of it;
what is written before what can't be is put back and read as it will; and the recorder goes, or its
section is as it was. The directory has just been read. -/
def Clean (format : Formats τ η ι) (home : ConfigDir τ η ι) (core : Running τ η)
    (fates : Fates) : Operation τ η → Prop
  | .edit change => ∀ settings : Settings τ, change home.settings = .ok settings →
      WritesAll format home settings fates →
        settings.askBeforeAdding = true ∧ InTouch [.settings] core home
  | .forgetDevice id =>
      let settings := forget home.settings (· = id) ((core.entityKeys id).getD []).contains
      WritesAll format home settings fates →
        if core.known.contains id then InTouch [.settings] core home
        else home.changed format settings = []
  | .forgetUnpaired id owned =>
      WritesAll format home (forget home.settings (· = id) owned.contains) fates →
        InTouch [.settings] core home
  | .forgetProtocol protocol =>
      let others := (core.installed.filterMap fun id =>
        (Slug.parse "protocol id" id.text).toOption).filter (· ≠ protocol)
      let settings := forget home.settings (broughtInBy · protocol others) (·.protocol = protocol)
      if settings = home.settings then InTouch [] core home
      else WritesAll format home settings fates → InTouch [.settings] core home
  | .editExtension extension change => ∀ (file : Table) (text : String),
      change (home.extensionFile extension) = .ok file →
      format.writeExtension extension file = .ok text →
      WritesExtension home extension text fates.extension → InTouch [.extensions] core home
  | .editSecrets change => ∀ secrets : ExtensionSettings,
      change (home.store .secrets).value = .ok secrets →
      Writes home .secrets (format.write .secrets secrets) (fates.file .secrets) →
        InTouch [.extensions] core home
  | .editExtensionWithSecrets extension change secretsToSet =>
      ∀ (file : Table) (text : String) (secrets : ExtensionSettings),
        change (home.extensionFile extension) = .ok file →
        ConfigDir.setSecrets extension secretsToSet (home.store .secrets).value = .ok secrets →
        format.writeExtension extension file = .ok text →
        WritesExtension home extension text fates.extension →
          (Writes home .secrets (format.write .secrets secrets) (fates.file .secrets) →
            InTouch [.extensions] core home) ∧
          (home.hasText .secrets (format.write .secrets secrets) = false →
            fates.file .secrets = .cantPrepare →
              (home.extensionFiles[extension]?).map (ConfigDir.extensionText format) =
                (leftOf format home extension text fates).map fun text =>
                  (format.readExtension text).toOption)
  | .editHome change => ∀ value : η, change (home.store .home).value = .ok value →
      Writes home .home (format.write .home value) (fates.file .home) → InTouch [.home] core home
  | .editPeople change => ∀ (people : People) (secrets : ExtensionSettings),
      home.store.people.edit change = .ok (people, ()) →
      passwordsOf people (home.store .secrets).value = .ok secrets →
      Writes home .users (format.write .users people.users) (fates.file .users) →
        if secrets == (home.store .secrets).value then InTouch [.people, .extensions] core home
        else
          (Writes home .secrets (format.write .secrets secrets) (fates.file .secrets) →
            InTouch [.people, .extensions] core home) ∧
          (home.hasText .secrets (format.write .secrets secrets) = false →
            fates.file .secrets = .cantPrepare →
              contentsOf format.toFormat home.files .users =
                (format.read .users (format.write .users
                  (if fates.restore.isWorking then (home.store .users).value
                    else people.users))).toOption)
  | .editRecorder part => ∀ existing : String, part.check = .ok () →
      textOf home.files .irori = some existing →
      Writes home .irori (upsertRecorder existing part) (fates.file .irori) →
        if core.recording then InTouch [.recorder] core home
        else home.hasText .irori (upsertRecorder existing part) = true

end

/-! ### Reading again -/

variable {format : Formats τ η ι} {home home' saved : ConfigDir τ η ι} {core core' : Running τ η}
  {fates : Fates} {file : File} {extension : ExtensionId}

structure Reread (format : Formats τ η ι) (home : ConfigDir τ η ι) : Prop where
  file : ∀ file : File, look home.files file = (home.store file).seen ∨
    contentsOf format.toFormat home.files file = none
  extension : home.listable = true → ∀ id : ExtensionId,
    match home.extensionFiles[id]?, home.extensions[id]? with
    | none, part => part = none
    | some written, some part => part.seen = some written.seen ∨
        ConfigDir.extensionText format written = none
    | some written, none => ConfigDir.extensionText format written = none

lemma Reread.reload (h : Reread format home) : home.reload format = home := by
  have hstore : home.store.reload format.toFormat home.files = home.store := by
    funext file
    rcases h.file file with hseen | hnone
    · rw [reload_apply, Store.reloadOne, if_pos hseen]
    · exact reload_unread hnone
  have hextensions : home.reloadExtensions format = home.extensions := by
    unfold ConfigDir.reloadExtensions
    split
    · next hlistable =>
      ext1 id
      have hid := h.extension hlistable id
      rw [Std.ExtTreeMap.getElem?_filterMap']
      split at hid
      · next hfile => rw [hfile, hid, Option.bind_none]
      · next written part hfile hpart =>
        rw [hfile, Option.bind_some, hpart, Option.any_some]
        rcases hid with hseen | hnone
        · rw [if_pos (by simpa using hseen)]
        · rw [hnone]
          exact ite_self _
      · next written hfile hpart =>
        rw [hfile, Option.bind_some, hpart, hid]
        rfl
    · rfl
  unfold ConfigDir.reload
  rw [hstore, hextensions]

lemma settled_reload (format : Formats τ η ι) (home : ConfigDir τ η ι) :
    Reread format (home.reload format) := by
  constructor
  · intro file
    show look home.files file = (home.store.reload format.toFormat home.files file).seen ∨ _
    rw [reload_apply, Store.reloadOne]
    split
    · next hseen => exact .inl hseen
    · cases hcontents : contentsOf format.toFormat home.files file with
      | none => exact .inr hcontents
      | some value =>
        left
        dsimp only
        rw [put_self]
  · intro hlistable id
    have hlistable : home.listable = true := hlistable
    have hget : (home.reload format).extensions = home.reloadExtensions format := rfl
    rw [hget, ConfigDir.reloadExtensions, if_pos hlistable, Std.ExtTreeMap.getElem?_filterMap']
    have hfiles : (home.reload format).extensionFiles[id]? = home.extensionFiles[id]? := rfl
    rw [hfiles]
    cases home.extensionFiles[id]? with
    | none => rfl
    | some written =>
      rw [Option.bind_some]
      cases hpart : home.extensions[id]? with
      | some part =>
        rw [Option.any_some]
        split_ifs with hseen
        · exact .inl (of_decide_eq_true hseen)
        · cases htext : ConfigDir.extensionText format written with
          | some value => exact .inl rfl
          | none => exact .inr htext
      | none =>
        rw [Option.any_none, if_neg Bool.false_ne_true]
        cases htext : ConfigDir.extensionText format written with
        | some value => exact .inl rfl
        | none => exact htext

/-! ### One file -/

lemma replace_ok {text : String} {fate : Fate} {files : Files}
    (h : home.replace file text fate = .ok files) : Writes home file text fate ∧
      (∀ other, other ≠ file → files other = home.files other) ∧
      textOf files file = some text ∧ (home.hasText file text = true → files = home.files) ∧
      (files = home.files → home.hasText file text = true) := by
  unfold ConfigDir.replace at h
  split at h
  · next htext =>
    cases h
    refine ⟨.inl htext, fun _ _ => rfl, ?_, fun _ => rfl, fun _ => htext⟩
    unfold ConfigDir.hasText at htext
    unfold textOf
    cases hfile : home.files file with
    | none =>
      rw [hfile] at htext
      cases htext
    | some written =>
      rw [hfile] at htext
      exact of_decide_eq_true htext
  · next htext =>
    cases fate with
    | works modified =>
      cases h
      refine ⟨.inr rfl, fun other hother => Function.update_of_ne hother .., ?_,
        fun hhas => absurd hhas htext, fun hsame => ?_⟩
      · simp [textOf, Function.update_self, Written.of]
      · unfold ConfigDir.hasText
        rw [← hsame, Function.update_self]
        simp [Written.of]
    | cantPrepare => cases h
    | cantPlace => cases h

lemma replace_error {text : String} {fate : Fate} {stage : IoStage}
    (h : home.replace file text fate = .error stage) : home.hasText file text = false ∧
      (fate = .cantPrepare ∧ stage = .preparing ∨ fate = .cantPlace ∧ stage = .placing) := by
  unfold ConfigDir.replace at h
  split at h
  · cases h
  · next htext =>
    refine ⟨Bool.not_eq_true _ ▸ htext, ?_⟩
    cases fate with
    | works modified => cases h
    | cantPrepare =>
      cases h
      exact .inl ⟨rfl, rfl⟩
    | cantPlace =>
      cases h
      exact .inr ⟨rfl, rfl⟩

lemma not_writes {text : String} {fate : Fate} {stage : IoStage}
    (h : home.replace file text fate = .error stage) : ¬ Writes home file text fate := by
  obtain ⟨hhas, hfate⟩ := replace_error h
  rintro (htext | hworks)
  · rw [hhas] at htext
    cases htext
  · rcases hfate with ⟨rfl, -⟩ | ⟨rfl, -⟩ <;> cases hworks

/-- What a file says once it is saved, and that nothing else is different. -/
structure SavedAs (format : Formats τ η ι) (home saved : ConfigDir τ η ι) (file : File)
    (value : Contents (Kept τ η ι) file) (text : String) : Prop where
  files : ∀ other, other ≠ file → saved.files other = home.files other
  reads : textOf saved.files file = some text
  store : saved.store = home.store.put file ⟨value, look saved.files file⟩
  extensionFiles : saved.extensionFiles = home.extensionFiles
  listable : saved.listable = home.listable
  extensions : saved.extensions = home.extensions
  same : saved.files = home.files ↔ home.hasText file text = true

lemma save_ok {value : Contents (Kept τ η ι) file} {fate : Fate}
    (h : home.save format file value fate = .ok saved) :
    Writes home file (format.write file value) fate ∧
      SavedAs format home saved file value (format.write file value) := by
  unfold ConfigDir.save at h
  split at h
  · next files hreplace =>
    cases h
    obtain ⟨hwrites, hothers, htext, hsame, hhas⟩ := replace_ok hreplace
    exact ⟨hwrites, hothers, htext, rfl, rfl, rfl, rfl, hhas, hsame⟩
  · cases h

lemma save_error {value : Contents (Kept τ η ι) file} {fate : Fate} {stage : IoStage}
    (h : home.save format file value fate = .error stage) :
    home.replace file (format.write file value) fate = .error stage := by
  unfold ConfigDir.save at h
  split at h
  · cases h
  · next stage' hreplace =>
    cases h
    exact hreplace

lemma SavedAs.settled {value : Contents (Kept τ η ι) file} {text : String}
    (h : SavedAs format home saved file value text) (hsettled : Reread format home) :
    Reread format saved := by
  constructor
  · intro other
    by_cases hother : other = file
    · subst hother
      rw [h.store, put_self]
      exact .inl rfl
    · rw [h.store, put_of_ne _ hother]
      have hfile := h.files other hother
      rcases hsettled.file other with hseen | hnone
      · left
        rw [look, hfile]
        exact hseen
      · right
        rw [contentsOf, textOf, hfile]
        exact hnone
  · rw [h.listable, h.extensionFiles, h.extensions]
    exact hsettled.extension

lemma SavedAs.contentsOf_self {value : Contents (Kept τ η ι) file} {text : String}
    (h : SavedAs format home saved file value text) :
    contentsOf format.toFormat saved.files file = (format.read file text).toOption := by
  rw [contentsOf, h.reads]
  rfl

lemma SavedAs.store_self {value : Contents (Kept τ η ι) file} {text : String}
    (h : SavedAs format home saved file value text) : (saved.store file).value = value := by
  rw [h.store, put_self]

lemma SavedAs.store_other {value : Contents (Kept τ η ι) file} {text : String}
    (h : SavedAs format home saved file value text) {other : File} (hother : other ≠ file) :
    saved.store other = home.store other := by
  rw [h.store, put_of_ne _ hother]

lemma contentsOf_same {files files' : Files} (h : files' file = files file) :
    contentsOf format.toFormat files' file = contentsOf format.toFormat files file := by
  rw [contentsOf, contentsOf, textOf, textOf, h]

/-! ### Settings -/

lemma mem_changed {settings : Settings τ} : file ∈ home.changed format settings ↔
    file ∈ File.settings ∧
      home.hasText file (format.write file (home.contents settings file)) = false := by
  unfold ConfigDir.changed
  rw [List.mem_filter, Bool.not_eq_true']

lemma place_ok {text : File → String} {fate : File → Fate} {changed : List File}
    {files files' : Files} (h : ConfigDir.place text fate changed files = (files', true)) :
    (∀ file ∈ changed, (fate file).isWorking = true) ∧
      ∀ file, file ∉ changed → files' file = files file := by
  induction changed generalizing files with
  | nil =>
    cases h
    exact ⟨(fun _ hfile => nomatch hfile), fun _ _ => rfl⟩
  | cons first rest ih =>
    cases hfate : fate first with
    | works modified =>
      simp only [ConfigDir.place, hfate] at h
      obtain ⟨hworks, hothers⟩ := ih h
      refine ⟨fun file hfile => ?_, fun file hfile => ?_⟩
      · rcases List.mem_cons.mp hfile with rfl | hfile
        · rw [hfate]
          rfl
        · exact hworks file hfile
      · rw [List.mem_cons, not_or] at hfile
        exact (hothers file hfile.2).trans (Function.update_of_ne hfile.1 ..)
    | _ => simp [ConfigDir.place, hfate] at h

lemma place_not {text : File → String} {fate : File → Fate} {changed : List File}
    {files files' : Files} (h : ConfigDir.place text fate changed files = (files', false)) :
    ∃ file ∈ changed, (fate file).isWorking = false := by
  induction changed generalizing files with
  | nil => cases h
  | cons first rest ih =>
    cases hfate : fate first with
    | works modified =>
      simp only [ConfigDir.place, hfate] at h
      obtain ⟨file, hfile, hnot⟩ := ih h
      exact ⟨file, List.mem_cons_of_mem _ hfile, hnot⟩
    | _ => exact ⟨first, List.mem_cons_self, by rw [hfate]; rfl⟩

lemma place_same {text : File → String} {fate : File → Fate} {changed : List File}
    {files files' : Files} (hnodup : changed.Nodup)
    (hnot : ∀ file ∈ changed, textOf files file ≠ some (text file) ∨ files file = none)
    (h : ConfigDir.place text fate changed files = (files', true)) (hsame : files' = files) :
    changed = [] := by
  cases changed with
  | nil => rfl
  | cons first rest =>
    exfalso
    cases hfate : fate first with
    | works modified =>
      simp only [ConfigDir.place, hfate] at h
      have hfirst := (place_ok h).2 first (List.nodup_cons.mp hnodup).1
      rw [hsame, Function.update_self] at hfirst
      rcases hnot first List.mem_cons_self with htext | hnone
      · exact htext (by rw [textOf, hfirst]; rfl)
      · rw [hnone] at hfirst
        cases hfirst
    | _ => simp [ConfigDir.place, hfate] at h

inductive SavesTo (format : Formats τ η ι) (home : ConfigDir τ η ι) (settings : Settings τ)
    (fates : Fates) : Except IoStage Unit × ConfigDir τ η ι → Prop
  | ok {saved : ConfigDir τ η ι} (hworks : WritesAll format home settings fates)
      (hsettled : Reread format home → Reread format saved)
      (hheld : saved.held = { home.held with settings := { settings with askBeforeAdding := true } })
      (hfiles : saved.files = home.files ↔ home.changed format settings = [])
      (hextensions : saved.extensionFiles = home.extensionFiles) :
      SavesTo format home settings fates (.ok (), saved)
  | preparing (hworks : ¬ WritesAll format home settings fates) :
      SavesTo format home settings fates (.error .preparing, home)
  | placing {saved : ConfigDir τ η ι} (hworks : ¬ WritesAll format home settings fates) :
      SavesTo format home settings fates (.error .placing, saved)

lemma savesTo (format : Formats τ η ι) (home : ConfigDir τ η ι) (settings : Settings τ)
    (fates : Fates) :
    SavesTo format home settings fates (home.saveSettings format settings fates.file) := by
  unfold ConfigDir.saveSettings
  split
  · next hany =>
    obtain ⟨file, hfile, hfate⟩ := List.any_eq_true.mp hany
    refine .preparing fun hworks => ?_
    have hworking := hworks file hfile
    rw [of_decide_eq_true hfate] at hworking
    cases hworking
  · dsimp only
    cases hplace : ConfigDir.place (fun file => format.write file (home.contents settings file))
        fates.file (home.changed format settings) home.files with
    | mk files placed =>
      cases placed with
      | false =>
        obtain ⟨file, hfile, hnot⟩ := place_not hplace
        refine .placing fun hworks => ?_
        rw [hworks file hfile] at hnot
        cases hnot
      | true =>
        obtain ⟨hworks, hothers⟩ := place_ok hplace
        refine .ok hworks (fun hsettled => ⟨fun file => ?_, hsettled.extension⟩) rfl
          ⟨fun hsame => ?_, fun hnone => ?_⟩ rfl
        · dsimp only
          split_ifs with hfile
          · exact .inl rfl
          · have hchanged : file ∉ home.changed format settings :=
              fun hmem => hfile (mem_changed.mp hmem).1
            have hsame := hothers file hchanged
            rcases hsettled.file file with hseen | hnone
            · left
              rw [look, hsame]
              exact hseen
            · right
              rw [contentsOf_same hsame]
              exact hnone
        · refine place_same (List.Nodup.filter _ (by decide)) (fun file hfile => ?_) hplace hsame
          have htext := (mem_changed.mp hfile).2
          unfold ConfigDir.hasText at htext
          unfold textOf
          cases hwritten : home.files file with
          | none => exact .inr rfl
          | some written =>
            rw [hwritten] at htext
            exact .inl (of_decide_eq_false htext)
        · rw [hnone] at hplace
          cases hplace
          rfl

/-! ### An extension's file -/

/-- What an extension's file says once it is saved, and that nothing else is different. -/
structure SavedExtension (format : Formats τ η ι) (home saved : ConfigDir τ η ι)
    (extension : ExtensionId) (value : Table) (text : String) : Prop where
  reads : ∃ written : Written, written.text = some text ∧
    saved.extensionFiles = home.extensionFiles.insert extension written ∧
    saved.extensions = home.extensions.insert extension ⟨value, some written.seen⟩
  files : saved.files = home.files
  store : saved.store = home.store
  listable : saved.listable = home.listable

lemma saveExtension_cases (format : Formats τ η ι) (home : ConfigDir τ η ι)
    (extension : ExtensionId) (value : Table) (fate : Fate) :
    (∃ text saved, format.writeExtension extension value = .ok text ∧
      home.saveExtension format extension value fate = .ok saved ∧
      WritesExtension home extension text fate ∧
      SavedExtension format home saved extension value text) ∨
    ∃ stage, home.saveExtension format extension value fate = .error stage ∧
      ∀ text, format.writeExtension extension value = .ok text →
        ¬ WritesExtension home extension text fate := by
  cases hwrite : format.writeExtension extension value with
  | error message =>
    right
    refine ⟨.preparing, ?_, fun text htext => by cases htext⟩
    simp only [ConfigDir.saveExtension, hwrite]
  | ok text =>
    -- Whether the file is there decides nothing but whether it has the text already.
    have hreplace : ∀ written : Option Written, home.extensionFiles[extension]? = written →
        written.any (fun written => written.text = some text) = false →
        (∃ saved, home.saveExtension format extension value fate = .ok saved ∧
          fate.isWorking = true ∧ SavedExtension format home saved extension value text) ∨
        ∃ stage, home.saveExtension format extension value fate = .error stage ∧
          fate.isWorking = false := by
      intro written hwritten hnot
      have hsave : home.saveExtension format extension value fate =
          fate.casesOn (fun modified => .ok { home with
            extensionFiles := home.extensionFiles.insert extension (.of text modified)
            extensions := home.extensions.insert extension
              ⟨value, some (Written.of text modified).seen⟩ })
            (.error .preparing) (.error .placing) := by
        unfold ConfigDir.saveExtension
        rw [hwrite]
        dsimp only
        rw [hwritten]
        cases written with
        | none => cases fate <;> rfl
        | some written =>
          have hnot : ¬ written.text = some text := of_decide_eq_false hnot
          cases fate <;> exact if_neg hnot
      rw [hsave]
      cases fate with
      | works modified =>
        exact .inl ⟨_, rfl, rfl, ⟨.of text modified, rfl, rfl, rfl⟩, rfl, rfl, rfl⟩
      | cantPrepare => exact .inr ⟨.preparing, rfl, rfl⟩
      | cantPlace => exact .inr ⟨.placing, rfl, rfl⟩
    cases hany : (home.extensionFiles[extension]?).any fun written => written.text = some text with
    | true =>
      left
      cases hwritten : home.extensionFiles[extension]? with
      | none =>
        rw [hwritten] at hany
        cases hany
      | some written =>
        rw [hwritten] at hany
        have htext : written.text = some text := of_decide_eq_true hany
        refine ⟨text, { home with
            extensionFiles := home.extensionFiles.insert extension written
            extensions := home.extensions.insert extension ⟨value, some written.seen⟩ },
          rfl, ?_, .inl (by rw [hwritten]; exact hany), ⟨written, htext, rfl, rfl⟩, rfl, rfl, rfl⟩
        unfold ConfigDir.saveExtension
        rw [hwrite]
        dsimp only
        rw [hwritten]
        dsimp only
        rw [if_pos htext]
    | false =>
      rcases hreplace _ rfl hany with ⟨saved, hsave, hworks, hsaved⟩ | ⟨stage, hsave, hnot⟩
      · exact .inl ⟨text, saved, rfl, hsave, .inr hworks, hsaved⟩
      · refine .inr ⟨stage, hsave, fun other hother hwrites => ?_⟩
        cases hother
        rcases hwrites with htext | hworks
        · rw [hany] at htext
          cases htext
        · rw [hnot] at hworks
          cases hworks

lemma SavedExtension.reread {value : Table} {text : String}
    (h : SavedExtension format home saved extension value text) (hread : Reread format home) :
    Reread format saved := by
  obtain ⟨written, htext, hfiles, hparts⟩ := h.reads
  constructor
  · rw [h.files, h.store]
    exact hread.file
  · rw [h.listable, hfiles, hparts]
    intro hlistable id
    by_cases hid : extension = id
    · subst hid
      rw [Map.get_insert_self, Map.get_insert_self]
      exact .inl rfl
    · rw [Map.get_insert, if_neg hid, Map.get_insert, if_neg hid]
      exact hread.extension hlistable id

/-! ### What is told -/

lemma SameOf.symm {a b : Held τ η} {aspect : Aspect} (h : SameOf a b aspect) :
    SameOf b a aspect := by
  cases aspect <;> exact Eq.symm h

lemma SameOf.trans {a b c : Held τ η} {aspect : Aspect} (h : SameOf a b aspect)
    (h' : SameOf b c aspect) : SameOf a c aspect := by
  cases aspect <;> exact Eq.trans h h'

lemma held_ext {a b : Held τ η} (h : ∀ aspect : Aspect, SameOf a b aspect) : a = b := by
  obtain ⟨sa, ea, pa, ha, ra, da⟩ := a
  obtain ⟨sb, eb, pb, hb, rb, db⟩ := b
  have hs : sa = sb := h .settings
  have he : ea = eb := h .extensions
  have hp : pa = pb := h .people
  have hh : ha = hb := h .home
  have hr : ra = rb := h .recorder
  have hd : da = db := h .disabled
  rw [hs, he, hp, hh, hr, hd]

lemma told_iff (touched : List Aspect) (hread : Reread format saved)
    (hcore : ∀ aspect, aspect ∉ touched → SameOf core'.held core.held aspect)
    (hhome : ∀ aspect, aspect ∉ touched → SameOf saved.held home.held aspect)
    (htold : ∀ aspect ∈ touched, SameOf core'.held saved.held aspect) :
    Right format home core (.ok, saved, core') ↔ InTouch touched core home := by
  show core'.held = (saved.reload format).held ↔ _
  rw [hread.reload]
  constructor
  · intro heq aspect haspect
    have hsame : SameOf core'.held saved.held aspect := by
      rw [heq]
      cases aspect <;> rfl
    exact ((hcore aspect haspect).symm.trans hsame).trans (hhome aspect haspect)
  · intro hstep
    refine held_ext fun aspect => ?_
    by_cases haspect : aspect ∈ touched
    · exact htold aspect haspect
    · exact ((hcore aspect haspect).trans (hstep aspect haspect)).trans (hhome aspect haspect).symm

lemma readsAs_self (format : Formats τ η ι) (home : ConfigDir τ η ι) : ReadsAs format home home :=
  ⟨fun _ => rfl, fun _ => rfl⟩

lemma right_io (stage : IoStage) : Right format home core (.io stage, home, core') := by
  cases stage with
  | preparing => exact readsAs_self format home
  | placing => trivial

lemma right_refused : Right format home core (.refused, home, core) := ⟨rfl, rfl, rfl⟩

lemma right_tellSettings (hread : Reread format home) (settings : Settings τ) :
    Right format home core (home.tellSettings format core fates settings) ↔
      (WritesAll format home settings fates →
        settings.askBeforeAdding = true ∧ InTouch [.settings] core home) := by
  unfold ConfigDir.tellSettings
  have hsaves := savesTo format home settings fates
  generalize home.saveSettings format settings fates.file = outcome at hsaves
  cases hsaves with
  | preparing hworks => exact iff_of_true (right_io .preparing) fun h => absurd h hworks
  | placing hworks => exact iff_of_true trivial fun h => absurd h hworks
  | ok hworks hsettled hheld hfiles hextensions =>
    next saved =>
    by_cases hask : settings.askBeforeAdding = true
    · have hsame : { settings with askBeforeAdding := true } = settings := by rw [← hask]
      rw [hsame] at hheld
      refine (told_iff [.settings] (hsettled hread) ?_ ?_ ?_).trans
        ⟨fun h _ => ⟨hask, h⟩, fun h => (h hworks).2⟩
      · intro aspect haspect
        cases aspect <;> first | rfl | exact absurd (List.mem_singleton_self _) haspect
      · intro aspect haspect
        rw [hheld]
        cases aspect <;> first | rfl | exact absurd (List.mem_singleton_self _) haspect
      · intro aspect haspect
        rw [List.mem_singleton.mp haspect, hheld]
        rfl
    · refine iff_of_false (fun h => hask ?_) fun h => hask (h hworks).1
      have h : ({ core.held with settings } : Held τ η) = (saved.reload format).held := h
      rw [(hsettled hread).reload, hheld] at h
      exact congrArg (fun held : Held τ η => held.settings.askBeforeAdding) h

lemma right_forgetRows (hread : Reread format home) (id : DeviceId) (owned : List Key)
    (gone : Bool) :
    Right format home core (home.forgetRows format core fates id owned gone) ↔
      (WritesAll format home (forget home.settings (· = id) owned.contains) fates →
        if core.known.contains id || gone then InTouch [.settings] core home
        else home.changed format (forget home.settings (· = id) owned.contains) = []) := by
  by_cases hknown : (core.known.contains id || gone) = true
  · have htell : Right format home core (home.tellSettings format core fates
        (forget home.settings (· = id) owned.contains)) ↔ _ :=
      right_tellSettings hread (forget home.settings (· = id) owned.contains)
    have hsame : home.forgetRows format core fates id owned gone =
        home.tellSettings format core fates (forget home.settings (· = id) owned.contains) := by
      unfold ConfigDir.forgetRows ConfigDir.tellSettings
      dsimp only
      split <;> simp_all
    rw [hsame, htell]
    simp only [if_pos hknown]
    exact ⟨fun h hworks => (h hworks).2, fun h hworks => ⟨rfl, h hworks⟩⟩
  · unfold ConfigDir.forgetRows
    dsimp only
    have hsaves := savesTo format home (forget home.settings (· = id) owned.contains) fates
    generalize home.saveSettings format (forget home.settings (· = id) owned.contains)
      fates.file = outcome at hsaves
    cases hsaves with
    | preparing hworks => exact iff_of_true (right_io .preparing) fun h => absurd h hworks
    | placing hworks => exact iff_of_true trivial fun h => absurd h hworks
    | ok hworks hsettled hheld hfiles hextensions =>
      dsimp only
      rw [if_neg hknown, if_neg hknown]
      exact ⟨fun h _ => hfiles.mp h.1, fun h => ⟨hfiles.mpr (h hworks), hextensions, rfl⟩⟩

lemma SavedAs.held {value : Contents (Kept τ η ι) file} {text : String}
    (h : SavedAs format home saved file value text) :
    saved.held = ({ home with
      store := home.store.put file ⟨value, look saved.files file⟩ } : ConfigDir τ η ι).held := by
  unfold ConfigDir.held ConfigDir.settings ConfigDir.extensionSettings
  rw [h.store, h.extensions]

lemma right_save {value : Contents (Kept τ η ι) file} {fate : Fate} (touched : List Aspect)
    (told : ConfigDir τ η ι → Running τ η)
    (htold : ∀ saved, SavedAs format home saved file value (format.write file value) →
      (Right format home core (.ok, saved, told saved) ↔ InTouch touched core home)) :
    Right format home core
      (match home.save format file value fate with
        | .ok saved => (.ok, saved, told saved)
        | .error stage => (.io stage, home, core)) ↔
      (Writes home file (format.write file value) fate → InTouch touched core home) := by
  cases hsave : home.save format file value fate with
  | error stage =>
    exact iff_of_true (right_io stage) fun hwrites => absurd hwrites (not_writes (save_error hsave))
  | ok saved =>
    obtain ⟨hwrites, hsaved⟩ := save_ok hsave
    exact (htold saved hsaved).trans ⟨fun h _ => h, fun h => h hwrites⟩

lemma SavedExtension.held {value : Table} {text : String}
    (h : SavedExtension format home saved extension value text) {aspect : Aspect}
    (haspect : aspect ∉ [Aspect.extensions]) : SameOf saved.held home.held aspect := by
  cases aspect with
  | extensions => exact absurd (List.mem_singleton_self _) haspect
  | _ =>
    unfold SameOf ConfigDir.held ConfigDir.settings
    rw [h.store]

lemma hasText_same {home' : ConfigDir τ η ι} {text : String}
    (h : home'.files file = home.files file) : home'.hasText file text = home.hasText file text := by
  rw [ConfigDir.hasText, ConfigDir.hasText, h]

lemma save_fails {value : Contents (Kept τ η ι) file} {fate : Fate} {stage : IoStage}
    (h : home.save format file value fate = .error stage) :
    home.hasText file (format.write file value) = false ∧ (stage = .preparing ↔ fate = .cantPrepare) := by
  obtain ⟨hhas, ⟨rfl, rfl⟩ | ⟨rfl, rfl⟩⟩ := replace_error (save_error h)
  · exact ⟨hhas, iff_of_true rfl rfl⟩
  · exact ⟨hhas, iff_of_false nofun nofun⟩

lemma putBack {old new : Contents (Kept τ η ι) file} {restored : ConfigDir τ η ι}
    (hsaved : SavedAs format home saved file new (format.write file new))
    (h : saved.save format file old fates.restore = .ok restored) :
    contentsOf format.toFormat restored.files file =
      (format.read file (format.write file
        (if fates.restore.isWorking then old else new))).toOption := by
  obtain ⟨hwrites, hrestored⟩ := save_ok h
  rw [hrestored.contentsOf_self]
  split_ifs with hworks
  · rfl
  · -- Nothing had to be written: what was saved says the same.
    rcases hwrites with hhas | hworks'
    · have hfiles := hrestored.same.mpr hhas
      have htext := hrestored.reads
      rw [hfiles, hsaved.reads] at htext
      rw [Option.some.inj htext]
    · exact absurd hworks' hworks

lemma notPutBack {old new : Contents (Kept τ η ι) file} {stage : IoStage}
    (hsaved : SavedAs format home saved file new (format.write file new))
    (h : saved.save format file old fates.restore = .error stage) :
    contentsOf format.toFormat saved.files file =
      (format.read file (format.write file
        (if fates.restore.isWorking then old else new))).toOption := by
  have hnot := not_writes (save_error h)
  rw [if_neg fun hworks => hnot (.inr hworks), hsaved.contentsOf_self]

lemma told_people {users : List User} (hread : Reread format saved)
    (husers : (saved.store .users).value = users)
    (hothers : ∀ file : File, file ≠ .users → file ≠ .secrets → saved.store file = home.store file) :
    Right format home core (.ok, saved, { core with held := { core.held with
      extensions := saved.extensionSettings, people := peopleOf users } }) ↔
      InTouch [.people, .extensions] core home := by
  refine told_iff _ hread (fun aspect haspect => ?_) (fun aspect haspect => ?_)
    fun aspect haspect => ?_
  · cases aspect <;> first | rfl | exact absurd (by simp) haspect
  · have hsettings : saved.settings = home.settings := by
      unfold ConfigDir.settings
      rw [hothers .areas nofun nofun, hothers .floorplan nofun nofun, hothers .devices nofun nofun,
        hothers .entities nofun nofun]
    cases aspect with
    | settings => exact hsettings
    | home => exact congrArg Part.value (hothers .home nofun nofun)
    | recorder =>
      exact congrArg (fun part => part.value.recorder) (hothers .irori nofun nofun)
    | disabled => exact congrArg (fun part => part.value.disabled) (hothers .irori nofun nofun)
    | people | extensions => exact absurd (by simp) haspect
  · rcases List.mem_cons.mp haspect with rfl | haspect
    · exact congrArg peopleOf husers.symm
    · rw [List.mem_singleton.mp haspect]
      rfl

lemma right_saveUsersAndSecrets (hread : Reread format home) (users : List User)
    (secrets : ExtensionSettings) :
    Right format home core
      (match home.saveUsersAndSecrets format users secrets fates with
        | (.ok (), saved) => (.ok, saved, { core with held := { core.held with
            extensions := saved.extensionSettings, people := peopleOf users } })
        | (.error stage, saved) => (.io stage, saved, core)) ↔
      (Writes home .users (format.write .users users) (fates.file .users) →
        (Writes home .secrets (format.write .secrets secrets) (fates.file .secrets) →
          InTouch [.people, .extensions] core home) ∧
        (home.hasText .secrets (format.write .secrets secrets) = false →
          fates.file .secrets = .cantPrepare →
            contentsOf format.toFormat home.files .users =
              (format.read .users (format.write .users
                (if fates.restore.isWorking then (home.store .users).value else users))).toOption)) := by
  unfold ConfigDir.saveUsersAndSecrets
  cases husers : home.save format .users users (fates.file .users) with
  | error stage =>
    exact iff_of_true (right_io stage) fun hwrites => absurd hwrites (not_writes (save_error husers))
  | ok saved =>
    obtain ⟨hwrites, hsaved⟩ := save_ok husers
    have hhas (text : String) : saved.hasText .secrets text = home.hasText .secrets text :=
      hasText_same (hsaved.files .secrets nofun)
    dsimp only
    cases hsecrets : saved.save format .secrets secrets (fates.file .secrets) with
    | ok saved' =>
      obtain ⟨hwrites', hsaved'⟩ := save_ok hsecrets
      unfold Writes at hwrites'
      rw [hhas] at hwrites'
      refine (told_people (hsaved'.settled (hsaved.settled hread)) ?_ ?_).trans
        ⟨fun h _ => ⟨fun _ => h, fun hnot hfate => ?_⟩, fun h => (h hwrites).1 hwrites'⟩
      · have hother : saved'.store .users = saved.store .users := hsaved'.store_other (by decide)
        exact (congrArg Part.value hother).trans hsaved.store_self
      · intro file hnot hnot'
        exact (hsaved'.store_other hnot').trans (hsaved.store_other hnot)
      · rw [hnot, hfate] at hwrites'
        rcases hwrites' with h | h <;> cases h
    | error stage =>
      obtain ⟨hnot, hstage⟩ := save_fails hsecrets
      have hnotWrites := not_writes (save_error hsecrets)
      unfold Writes at hnotWrites
      rw [hhas] at hnot hnotWrites
      -- Whatever was put back, only the people's file can read as something else.
      have hreads : ∀ left : ConfigDir τ η ι, left.extensionFiles = home.extensionFiles →
          (∀ file, file ≠ .users → left.files file = home.files file) →
          contentsOf format.toFormat left.files .users = (format.read .users (format.write .users
            (if fates.restore.isWorking then (home.store .users).value else users))).toOption →
          (Right format home core (.io stage, left, core) ↔
            (Writes home .users (format.write .users users) (fates.file .users) →
              (Writes home .secrets (format.write .secrets secrets) (fates.file .secrets) →
                InTouch [.people, .extensions] core home) ∧
              (home.hasText .secrets (format.write .secrets secrets) = false →
                fates.file .secrets = .cantPrepare →
                  contentsOf format.toFormat home.files .users =
                    (format.read .users (format.write .users
                      (if fates.restore.isWorking then (home.store .users).value
                        else users))).toOption))) := by
        intro left hextensions hfiles hcontents
        cases stage with
        | placing =>
          refine iff_of_true trivial fun _ => ⟨fun h => absurd h hnotWrites, fun _ hfate => ?_⟩
          cases hstage.mpr hfate
        | preparing =>
          constructor
          · intro hright _
            exact ⟨fun h => absurd h hnotWrites, fun _ _ => (hright.1 .users).symm.trans hcontents⟩
          · intro h
            have hold := (h hwrites).2 hnot (hstage.mp rfl)
            refine ⟨fun file => ?_, fun id => by rw [hextensions]⟩
            by_cases hfile : file = .users
            · rw [hfile, hcontents, hold]
            · exact contentsOf_same (hfiles file hfile)
      cases hrestore : saved.save format .users (home.store .users).value fates.restore with
      | ok restored =>
        have hrestored := (save_ok hrestore).2
        exact hreads restored (hrestored.extensionFiles.trans hsaved.extensionFiles)
          (fun file hfile => (hrestored.files file hfile).trans (hsaved.files file hfile))
          (putBack hsaved hrestore)
      | error _ =>
        exact hreads saved hsaved.extensionFiles hsaved.files (notPutBack hsaved hrestore)

lemma SavedExtension.text {value : Table} {text : String}
    (h : SavedExtension format home saved extension value text) :
    (saved.extensionFiles[extension]?).map (ConfigDir.extensionText format) =
      some (format.readExtension text).toOption := by
  obtain ⟨written, htext, hfiles, -⟩ := h.reads
  rw [hfiles, Map.get_insert_self, Option.map_some, ConfigDir.extensionText, htext]
  rfl

lemma SavedExtension.others {value : Table} {text : String}
    (h : SavedExtension format home saved extension value text) {id : ExtensionId}
    (hid : extension ≠ id) : saved.extensionFiles[id]? = home.extensionFiles[id]? := by
  obtain ⟨written, -, hfiles, -⟩ := h.reads
  rw [hfiles, Map.get_insert, if_neg hid]

/-- What an extension's file holds once the secrets that go with it couldn't be written. -/
structure LeftExtension (format : Formats τ η ι) (home left : ConfigDir τ η ι)
    (extension : ExtensionId) (text : String) (fates : Fates) : Prop where
  files : left.files = home.files
  others : ∀ id : ExtensionId, extension ≠ id → left.extensionFiles[id]? = home.extensionFiles[id]?
  reads : (left.extensionFiles[extension]?).map (ConfigDir.extensionText format) =
    (leftOf format home extension text fates).map fun text => (format.readExtension text).toOption

inductive SavesBoth (format : Formats τ η ι) (home : ConfigDir τ η ι) (extension : ExtensionId)
    (file : Table) (secrets : ExtensionSettings) (fates : Fates) :
    Except IoStage Unit × ConfigDir τ η ι → Prop
  | unwritten (stage : IoStage)
      (h : ∀ text, format.writeExtension extension file = .ok text →
        ¬ WritesExtension home extension text fates.extension) :
      SavesBoth format home extension file secrets fates (.error stage, home)
  | ok {saved saved' : ConfigDir τ η ι} {text : String}
      (htext : format.writeExtension extension file = .ok text)
      (hwrites : WritesExtension home extension text fates.extension)
      (hsecrets : Writes home .secrets (format.write .secrets secrets) (fates.file .secrets))
      (hsaved : SavedExtension format home saved extension file text)
      (hsaved' : SavedAs format saved saved' .secrets secrets (format.write .secrets secrets)) :
      SavesBoth format home extension file secrets fates (.ok (), saved')
  | left {left : ConfigDir τ η ι} {text : String} {stage : IoStage}
      (htext : format.writeExtension extension file = .ok text)
      (hwrites : WritesExtension home extension text fates.extension)
      (hnot : home.hasText .secrets (format.write .secrets secrets) = false)
      (hnotWrites : ¬ Writes home .secrets (format.write .secrets secrets) (fates.file .secrets))
      (hstage : stage = .preparing ↔ fates.file .secrets = .cantPrepare)
      (hleft : LeftExtension format home left extension text fates) :
      SavesBoth format home extension file secrets fates (.error stage, left)

lemma savesBoth (format : Formats τ η ι) (home : ConfigDir τ η ι) (extension : ExtensionId)
    (file : Table) (secrets : ExtensionSettings) (fates : Fates) :
    SavesBoth format home extension file secrets fates
      (home.saveExtensionAndSecrets format extension file secrets fates) := by
  unfold ConfigDir.saveExtensionAndSecrets
  rcases saveExtension_cases format home extension file fates.extension with
    ⟨text, saved, htext, hsave, hwrites, hsaved⟩ | ⟨stage, hsave, hnot⟩
  · rw [hsave]
    have hhas (text : String) : saved.hasText .secrets text = home.hasText .secrets text :=
      hasText_same (congrFun hsaved.files _)
    dsimp only
    cases hsecrets : saved.save format .secrets secrets (fates.file .secrets) with
    | ok saved' =>
      obtain ⟨hwrites', hsaved'⟩ := save_ok hsecrets
      unfold Writes at hwrites'
      rw [hhas] at hwrites'
      exact .ok htext hwrites hwrites' hsaved hsaved'
    | error stage =>
      obtain ⟨hnot, hstage⟩ := save_fails hsecrets
      have hnotWrites := not_writes (save_error hsecrets)
      unfold Writes at hnotWrites
      rw [hhas] at hnot hnotWrites
      dsimp only
      split_ifs with hhad hremoves
      · rcases saveExtension_cases format saved extension (home.extensionFile extension)
          fates.restore with ⟨old, restored, hold, hrestore, hwritten, hrestored⟩ | ⟨_, hrestore, hcant⟩
        · rw [hrestore]
          refine .left htext hwrites hnot hnotWrites hstage
            ⟨hrestored.files.trans hsaved.files,
              fun id hid => (hrestored.others hid).trans (hsaved.others hid), ?_⟩
          rw [hrestored.text, leftOf, if_pos hhad, hold]
          dsimp only
          split_ifs with hworks
          · rfl
          · -- Nothing had to be written: what was saved says the same.
            rcases hwritten with hsame | hworks'
            · obtain ⟨written, hwritten, hfiles, -⟩ := hsaved.reads
              rw [hfiles, Map.get_insert_self, Option.any_some, hwritten] at hsame
              rw [Option.some.inj (of_decide_eq_true hsame)]
              rfl
            · exact absurd hworks' hworks
        · rw [hrestore]
          refine .left htext hwrites hnot hnotWrites hstage
            ⟨hsaved.files, fun id hid => hsaved.others hid, ?_⟩
          rw [hsaved.text, leftOf, if_pos hhad]
          cases hold : format.writeExtension extension (home.extensionFile extension) with
          | error message => rfl
          | ok old =>
            dsimp only
            rw [if_neg fun hworks => hcant old hold (.inr hworks)]
            rfl
      · refine .left htext hwrites hnot hnotWrites hstage ⟨hsaved.files, fun id hid => ?_, ?_⟩
        · dsimp only
          rw [Map.get_erase, if_neg hid, hsaved.others hid]
        · rw [leftOf, if_neg hhad, if_pos hremoves]
          dsimp only
          rw [Map.get_erase, if_pos rfl]
          rfl
      · refine .left htext hwrites hnot hnotWrites hstage
          ⟨hsaved.files, fun id hid => hsaved.others hid, ?_⟩
        rw [leftOf, if_neg hhad, if_neg hremoves]
        exact hsaved.text
  · rw [hsave]
    exact .unwritten stage hnot

lemma right_reload (outcome : ConfigDir.Outcome τ η ι) :
    Right format (home.reload format) core outcome ↔ Right format home core outcome := by
  obtain ⟨answer, home', core'⟩ := outcome
  cases answer with
  | ok => exact Iff.rfl
  | refused => exact Iff.rfl
  | io stage => cases stage <;> exact Iff.rfl

section

variable [DecidableEq τ]

/-- Once the files have been read again, an operation leaves everything alone exactly if it is
clean. -/
def Decides (format : Formats τ η ι) (home : ConfigDir τ η ι) (core : Running τ η) (fates : Fates)
    (op : Operation τ η) : Prop :=
  Right format home core (home.perform format core fates op) ↔ Clean format home core fates op

lemma decides_editSecrets (hread : Reread format home)
    (change : ExtensionSettings → Except String ExtensionSettings) :
    Decides format home core fates (.editSecrets change) := by
  dsimp only [Decides, ConfigDir.perform, Clean]
  cases hchange : change (home.store .secrets).value with
  | error message => exact iff_of_true right_refused (fun _ h => nomatch h)
  | ok secrets =>
    refine (right_save [.extensions] (ConfigDir.tellExtensions core) ?_).trans
      ⟨fun h other hother => by cases hother; exact h, fun h => h secrets rfl⟩
    intro saved hsaved
    refine told_iff _ (hsaved.settled hread) (fun aspect haspect => ?_) (fun aspect haspect => ?_)
      fun aspect haspect => ?_
    · cases aspect <;> first | rfl | exact absurd (List.mem_singleton_self _) haspect
    · rw [hsaved.held]
      cases aspect <;> first | rfl | exact absurd (List.mem_singleton_self _) haspect
    · rw [List.mem_singleton.mp haspect]
      rfl

lemma decides_editHome (hread : Reread format home) (change : η → Except String η) :
    Decides format home core fates (.editHome change) := by
  dsimp only [Decides, ConfigDir.perform, Clean]
  cases hchange : change (home.store .home).value with
  | error message => exact iff_of_true right_refused (fun _ h => nomatch h)
  | ok value =>
    refine (right_save [.home] (fun _ => { core with held := { core.held with home := value } })
      ?_).trans ⟨fun h other hother => by cases hother; exact h, fun h => h value rfl⟩
    intro saved hsaved
    refine told_iff _ (hsaved.settled hread) (fun aspect haspect => ?_) (fun aspect haspect => ?_)
      fun aspect haspect => ?_
    · cases aspect <;> first | rfl | exact absurd (List.mem_singleton_self _) haspect
    · rw [hsaved.held]
      cases aspect <;> first | rfl | exact absurd (List.mem_singleton_self _) haspect
    · rw [List.mem_singleton.mp haspect, hsaved.held]
      rfl

lemma decides_edit (hread : Reread format home)
    (change : Settings τ → Except String (Settings τ)) :
    Decides format home core fates (.edit change) := by
  dsimp only [Decides, ConfigDir.perform, Clean]
  cases hchange : change home.settings with
  | error message => exact iff_of_true right_refused (fun _ h => nomatch h)
  | ok settings =>
    exact (right_tellSettings hread settings).trans
      ⟨fun h other hother => by cases hother; exact h, fun h => h settings rfl⟩

lemma decides_forgetDevice (hread : Reread format home) (id : DeviceId) :
    Decides format home core fates (.forgetDevice id) := by
  dsimp only [Decides, ConfigDir.perform, Clean]
  rw [right_forgetRows hread, Bool.or_false]

lemma decides_forgetUnpaired (hread : Reread format home) (id : DeviceId) (owned : List Key) :
    Decides format home core fates (.forgetUnpaired id owned) := by
  dsimp only [Decides, ConfigDir.perform, Clean]
  rw [right_forgetRows hread, Bool.or_true]
  simp only [if_true]

lemma decides_forgetProtocol (hread : Reread format home) (protocol : ProtocolId) :
    Decides format home core fates (.forgetProtocol protocol) := by
  dsimp only [Decides, ConfigDir.perform, Clean]
  split_ifs with hsame
  · exact told_iff [] hread (fun _ _ => by cases ‹Aspect› <;> rfl)
      (fun _ _ => by cases ‹Aspect› <;> rfl) (fun _ h => nomatch h)
  · rw [right_tellSettings hread]
    exact ⟨fun h hworks => (h hworks).2, fun h hworks => ⟨rfl, h hworks⟩⟩

lemma decides_editExtension (hread : Reread format home) (extension : ExtensionId)
    (change : Table → Except String Table) :
    Decides format home core fates (.editExtension extension change) := by
  dsimp only [Decides, ConfigDir.perform, Clean]
  cases hchange : change (home.extensionFile extension) with
  | error message => exact iff_of_true right_refused (fun _ _ h => nomatch h)
  | ok file =>
    dsimp only
    rcases saveExtension_cases format home extension file fates.extension with
      ⟨text, saved, hwrite, hsave, hwrites, hsaved⟩ | ⟨stage, hsave, hnot⟩
    · rw [hsave]
      refine (told_iff [.extensions] (hsaved.reread hread) (fun aspect haspect => ?_)
        (fun aspect haspect => hsaved.held haspect) fun aspect haspect => ?_).trans
        ⟨fun h other text hother _ _ => h, fun h => h file text rfl hwrite hwrites⟩
      · cases aspect <;> first | rfl | exact absurd (List.mem_singleton_self _) haspect
      · rw [List.mem_singleton.mp haspect]
        rfl
    · rw [hsave]
      refine iff_of_true (right_io stage) fun other text hother htext hwrites => ?_
      cases hother
      exact absurd hwrites (hnot text htext)

lemma decides_editPeople (hread : Reread format home)
    (change : People → Except String (People × Unit)) :
    Decides format home core fates (.editPeople change) := by
  dsimp only [Decides, ConfigDir.perform, Clean]
  cases hchange : home.store.people.edit change with
  | error message => exact iff_of_true right_refused (fun _ _ h => nomatch h)
  | ok made =>
    obtain ⟨people, -⟩ := made
    dsimp only
    cases hpasswords : passwordsOf people (home.store .secrets).value with
    | error message =>
      refine iff_of_true right_refused fun other secrets hother hsecrets => ?_
      cases hother
      rw [hpasswords] at hsecrets
      cases hsecrets
    | ok secrets =>
      dsimp only
      by_cases hsecrets : (secrets == (home.store .secrets).value) = true
      · rw [if_pos hsecrets]
        refine (right_save [.people, .extensions] (fun saved =>
          { core with held := { core.held with
              extensions := saved.extensionSettings, people := peopleOf people.users } })
          fun saved hsaved => told_people (hsaved.settled hread) ?_ ?_).trans
          ⟨fun h other secrets' hother hsecrets' hwrites => ?_, fun h hwrites => ?_⟩
        · exact hsaved.store_self
        · exact fun file hnot _ => hsaved.store_other hnot
        · cases hother
          cases hpasswords.symm.trans hsecrets'
          rw [if_pos hsecrets]
          exact h hwrites
        · have hclean := h people secrets rfl hpasswords hwrites
          rwa [if_pos hsecrets] at hclean
      · rw [if_neg hsecrets]
        refine (right_saveUsersAndSecrets hread people.users secrets).trans
          ⟨fun h other secrets' hother hsecrets' hwrites => ?_, fun h hwrites => ?_⟩
        · cases hother
          cases hpasswords.symm.trans hsecrets'
          rw [if_neg hsecrets]
          exact h hwrites
        · have hclean := h people secrets rfl hpasswords hwrites
          rwa [if_neg hsecrets] at hclean

lemma decides_editExtensionWithSecrets (hread : Reread format home) (extension : ExtensionId)
    (change : Table → Except String Table) (toSet : List (String × String)) :
    Decides format home core fates (.editExtensionWithSecrets extension change toSet) := by
  dsimp only [Decides, ConfigDir.perform, Clean]
  cases hchange : change (home.extensionFile extension) with
  | error message => exact iff_of_true right_refused (fun _ _ _ h => nomatch h)
  | ok file =>
    dsimp only
    cases hset : ConfigDir.setSecrets extension toSet (home.store .secrets).value with
    | error message => exact iff_of_true right_refused (fun _ _ _ _ h => nomatch h)
    | ok secrets =>
      dsimp only
      have hsaves := savesBoth format home extension file secrets fates
      generalize home.saveExtensionAndSecrets format extension file secrets fates = outcome
        at hsaves
      cases hsaves with
      | unwritten stage hnot =>
        refine iff_of_true (right_io stage) fun other text secrets' hother _ htext hwrites => ?_
        cases hother
        exact absurd hwrites (hnot text htext)
      | ok htext hwrites hsecrets hsaved hsaved' =>
        next saved saved' text =>
        refine (told_iff [.extensions] (hsaved'.settled (hsaved.reread hread))
          (fun aspect haspect => ?_) (fun aspect haspect => ?_) fun aspect haspect => ?_).trans
          ⟨fun h other text' secrets' hother hsecrets' htext' _ => ?_,
            fun h => (h file text secrets rfl rfl htext hwrites).1 hsecrets⟩
        · cases aspect <;> first | rfl | exact absurd (List.mem_singleton_self _) haspect
        · refine SameOf.trans (b := saved.held) ?_ (hsaved.held haspect)
          rw [hsaved'.held]
          cases aspect <;> first | rfl | exact absurd (List.mem_singleton_self _) haspect
        · rw [List.mem_singleton.mp haspect]
          rfl
        · cases hother
          cases hsecrets'
          refine ⟨fun _ => h, fun hnot hfate => ?_⟩
          unfold Writes at hsecrets
          rw [hnot, hfate] at hsecrets
          rcases hsecrets with h | h <;> cases h
      | left htext hwrites hnot hnotWrites hstage hleft =>
        next left text stage =>
        cases stage with
        | placing =>
          refine iff_of_true trivial fun other text' secrets' hother hsecrets' htext' _ => ?_
          cases hother
          cases hsecrets'
          exact ⟨fun h => absurd h hnotWrites, fun _ hfate => nomatch hstage.mpr hfate⟩
        | preparing =>
          constructor
          · intro hright other text' secrets' hother hsecrets' htext' _
            cases hother
            cases hsecrets'
            cases htext.symm.trans htext'
            exact ⟨fun h => absurd h hnotWrites,
              fun _ _ => (hright.2 extension).symm.trans hleft.reads⟩
          · intro h
            have hold := (h file text secrets rfl rfl htext hwrites).2 hnot (hstage.mp rfl)
            refine ⟨fun file => by rw [hleft.files], fun id => ?_⟩
            by_cases hid : extension = id
            · rw [← hid, hold, hleft.reads]
            · rw [hleft.others id hid]

lemma decides_editRecorder (hread : Reread format home) (part : RecorderSection)
    (hcheck : part.check = .ok ()) : Decides format home core fates (.editRecorder part) := by
  dsimp only [Decides, ConfigDir.perform, Clean]
  unfold ConfigDir.saveRecorder
  cases hexisting : textOf home.files .irori with
  | none => exact iff_of_true (right_io .preparing) (fun _ _ h => nomatch h)
  | some existing =>
    dsimp only
    cases hreplace : home.replace .irori (upsertRecorder existing part) (fates.file .irori) with
    | error stage =>
      refine iff_of_true (right_io stage) fun other _ hother hwrites => ?_
      cases hother
      exact absurd hwrites (not_writes hreplace)
    | ok files =>
      dsimp only
      obtain ⟨hwrites, hothers, htext, hsame, hhas⟩ := replace_ok hreplace
      have hsaved : SavedAs format home { home with
          files, store := home.store.put .irori
            ⟨{ (home.store .irori).value with recorder := part }, look files .irori⟩ }
          .irori { (home.store .irori).value with recorder := part }
          (upsertRecorder existing part) :=
        ⟨hothers, htext, rfl, rfl, rfl, rfl, hhas, hsame⟩
      split_ifs with hrecording
      · refine (told_iff [.recorder] (hsaved.settled hread) (fun aspect haspect => ?_)
          (fun aspect haspect => ?_) fun aspect haspect => ?_).trans
          ⟨fun h other _ hother _ => ?_, fun h => ?_⟩
        · cases aspect <;> first | rfl | exact absurd (List.mem_singleton_self _) haspect
        · cases aspect <;> first | rfl | exact absurd (List.mem_singleton_self _) haspect
        · rw [List.mem_singleton.mp haspect]
          rfl
        · exact h
        · exact h existing hcheck rfl hwrites
      · constructor
        · intro hright other _ hother _
          cases hother
          exact hhas hright.1
        · exact fun h => ⟨hsame (h existing hcheck rfl hwrites), rfl, rfl⟩

lemma decides (hread : Reread format home) (op : Operation τ η)
    (hcheck : ∀ part, op = .editRecorder part → part.check = .ok ()) :
    Decides format home core fates op := by
  cases op with
  | edit change => exact decides_edit hread change
  | forgetDevice id => exact decides_forgetDevice hread id
  | forgetUnpaired id owned => exact decides_forgetUnpaired hread id owned
  | forgetProtocol protocol => exact decides_forgetProtocol hread protocol
  | editExtension extension change => exact decides_editExtension hread extension change
  | editSecrets change => exact decides_editSecrets hread change
  | editExtensionWithSecrets extension change toSet =>
    exact decides_editExtensionWithSecrets hread extension change toSet
  | editHome change => exact decides_editHome hread change
  | editPeople change => exact decides_editPeople hread change
  | editRecorder part => exact decides_editRecorder hread part (hcheck part rfl)

/-- A refused edit leaves everything alone exactly where the operation is clean. -/
theorem leavesAlone_iff (format : Formats τ η ι) (home : ConfigDir τ η ι) (core : Running τ η)
    (fates : Fates) (op : Operation τ η) :
    LeavesAlone format home core fates op ↔ Clean format (home.reload format) core fates op := by
  have hread := settled_reload format home
  unfold LeavesAlone
  rw [← right_reload]
  by_cases hrun : home.run format core fates op = (home.reload format).perform format core fates op ∧
      ∀ part, op = .editRecorder part → part.check = .ok ()
  · rw [hrun.1]
    exact decides hread op hrun.2
  · cases op with
    | editRecorder part =>
      unfold ConfigDir.run at hrun ⊢
      dsimp only at hrun ⊢
      cases hcheck : part.check with
      | error message =>
        refine iff_of_true ⟨rfl, rfl, rfl⟩ fun _ hok => ?_
        rw [hcheck] at hok
        cases hok
      | ok _ =>
        rw [hcheck] at hrun
        exact absurd ⟨rfl, fun other hother => by cases hother; exact hcheck⟩ hrun
    | _ => exact absurd ⟨rfl, fun _ h => nomatch h⟩ hrun

/-- A clean operation that is refused, or can't be prepared, leaves everything alone, and one that is
done is told. -/
theorem leavesAlone_of_clean (format : Formats τ η ι) (home : ConfigDir τ η ι)
    (core : Running τ η) (fates : Fates) (op : Operation τ η)
    (h : Clean format (home.reload format) core fates op) :
    LeavesAlone format home core fates op :=
  (leavesAlone_iff format home core fates op).mpr h

end

/-! ### An attic with a lamp -/

namespace Attic

def lamp : DeviceId := ⟨"lamp", by decide⟩

def formats : Formats Unit Unit Unit where
  read
    | .users, _ => .ok []
    | .secrets, _ => .ok (∅ : ExtensionSettings)
    | .irori, _ => .ok ⟨⟨10, none⟩, [], ()⟩
    | .areas, _ => .ok ([], [])
    | .floorplan, _ => .ok (∅ : Floorplan Unit)
    | .devices, text =>
      let none_ : Map DeviceId Core.DeviceSettings := ∅
      .ok (if text = "lamp" then none_.insert lamp ⟨none, none, .unsaid, true⟩ else none_)
    | .entities, _ => .ok (∅ : Map Key Core.EntitySettings)
    | .home, _ => .ok ()
  write
    | .devices, devices =>
      let devices : Map DeviceId Core.DeviceSettings := devices
      if devices.isEmpty then "" else "lamp"
    | _, _ => ""
  default_
    | .irori => ⟨⟨10, none⟩, [], ()⟩
    | .areas => ([], [])
    | .floorplan => (∅ : Floorplan Unit)
    | .devices => (∅ : Map DeviceId Core.DeviceSettings)
    | .entities => (∅ : Map Key Core.EntitySettings)
    | .home => ()
    | .secrets => ()
    | .users => ()
  readExtension _ := .ok []
  writeExtension _ _ := .ok ""

def attic : ConfigDir Unit Unit Unit where
  files
    | .devices => some (.of "lamp" none)
    | _ => some (.of "" none)
  extensionFiles := ∅
  listable := true
  store := Store.new formats.toFormat
  extensions := ∅

def running : Running Unit Unit where
  held := (attic.reload formats).held
  known := []
  entityKeys _ := none
  installed := []
  recording := false

def works : Fates where
  file _ := .works none
  extension := .works none
  restore := .works none
  removes := true

end Attic

open Attic in
/-- A lamp its protocol has unpaired goes from `devices.toml`, and the core is told. -/
theorem leavesAlone_attic : LeavesAlone formats attic running works (.forgetUnpaired lamp []) :=
  leavesAlone_of_clean formats attic running works (.forgetUnpaired lamp [])
    fun _ aspect _ => by cases aspect <;> rfl

open Attic in
/-- The recorder has stopped: its section is refused, once `irori.toml` has been written. -/
theorem not_leavesAlone_attic :
    ¬ LeavesAlone formats attic running works (.editRecorder ⟨10, none⟩) := by
  have hrun : (attic.run formats running works (.editRecorder ⟨10, none⟩)).1 = .refused ∧
      (attic.run formats running works (.editRecorder ⟨10, none⟩)).2.1.files .irori =
        some (.of "[recorder]\nretain_days = 10\n" none) := by
    decide
  intro h
  unfold LeavesAlone at h
  generalize attic.run formats running works (.editRecorder ⟨10, none⟩) = outcome at h hrun
  obtain ⟨answer, home, core⟩ := outcome
  cases hrun.1
  have hsame := (congrFun h.1 .irori).symm.trans hrun.2
  exact absurd hsame (by decide)

end Irori.Proofs
