import Irori.Config.Store

/-!
# A locked home stays locked

Whether the home asks who is there follows the last look at which both files could be read, as
long as no start and no edit meets a file that can't be, and a reload that meets one finds that the
other is as it was.
-/

namespace Irori.Config

variable {κ : File → Type} (format : Format κ)

def told (files : Files) : Option People :=
  match contentsOf format files .users, contentsOf format files .secrets with
  | some users, some secrets => some (.of users secrets)
  | _, _ => none

def ReadsBack (file : File) (value : Contents κ file) : Prop :=
  format.read file (format.write file value) = .ok value

inductive HomeEvent
  | start
  | reload
  | editPeople (change : People → Except String (People × Unit)) (first second third : Stamp)
  | editSecrets (change : ExtensionSettings → Except String ExtensionSettings) (stamp : Stamp)
  | outside (file : File) (written : Option Written)

/-- The directory after something happened. -/
def Directory.after (home : Directory κ) : HomeEvent → Directory κ
  | .start => home.start format
  | .reload => home.reload format
  | .editPeople change first second third => home.editPeople format change first second third
  | .editSecrets change stamp => home.editSecrets format change stamp
  | .outside file written => { home with files := Function.update home.files file written }

/-- A directory with what its files told: at the last look at which both could be read, and whether
they ever told of somebody with a password. -/
structure Watch (κ : File → Type) where
  home : Directory κ
  found : Option People
  said : Bool

namespace Watch

variable (w : Watch κ)

def after (event : HomeEvent) : Watch κ :=
  let home := w.home.after format event
  { home := home
    found := match event with
      | .outside .. => w.found
      | _ => (told format home.files).or w.found
    said := w.said || (told format home.files).any People.locked }

def unread (files : Files) : Watch κ :=
  ⟨⟨files, Store.new format⟩, none, (told format files).any People.locked⟩

def afterAll (files : Files) (events : List HomeEvent) : Watch κ :=
  (HomeEvent.start :: events).foldl (fun w event => w.after format event) (unread format files)

/-- Once somebody had a password, the home asks nobody only if that is what the files told when
both were last read, and likewise with owners. -/
structure FailsClosed (w : Watch κ) : Prop where
  locked : w.said = true → w.home.store.people.locked = false →
    ∃ people, w.found = some people ∧ people.locked = false
  owned : w.said = true → w.home.store.people.owned = false →
    ∃ people, w.found = some people ∧ people.owned = false

/-- A start and an edit find both files readable, and a reload finds that one is as it was, when the
other isn't. An edit writes what reads back, and a change from outside gives its file a new look. -/
def Legible : HomeEvent → Prop
  | .start => (told format w.home.files).isSome
  | .reload => (told format w.home.files).isSome ∨
    (∀ users, contentsOf format w.home.files .users = some users →
      users = (w.home.store .users).value) ∧
    (∀ secrets, contentsOf format w.home.files .secrets = some secrets →
      secrets = (w.home.store .secrets).value)
  | .editPeople change .. => (told format w.home.files).isSome ∧
    (ReadsBack format .users ((w.home.reload format).store .users).value) ∧
    ∀ people made, (w.home.reload format).store.people.edit change = .ok (people, made) →
      ReadsBack format .users people.users ∧
      ∀ secrets, passwordsOf people ((w.home.reload format).store .secrets).value = .ok secrets →
        ReadsBack format .secrets secrets
  | .editSecrets change _ => (told format w.home.files).isSome ∧
    ∀ secrets, change ((w.home.reload format).store .secrets).value = .ok secrets →
      ReadsBack format .secrets secrets
  | .outside file written => written = w.home.files file ∨
    written.map Written.seen ≠ (w.home.store file).seen

/-- A run whose every step is so. -/
def All (p : Watch κ → HomeEvent → Prop) (w : Watch κ) : List HomeEvent → Prop
  | [] => True
  | event :: events => p w event ∧ All p (w.after format event) events

end Watch

end Irori.Config

namespace Irori.Proofs
open Irori Config

variable {κ : File → Type} {format : Format κ} {home : Directory κ} {w : Watch κ} {file : File}
  {store : Store κ} {files : Files}

lemma put_self (part : Config.Part (Contents κ file)) : store.put file part file = part :=
  Function.update_self ..

lemma put_of_ne {other : File} (part : Config.Part (Contents κ file)) (h : other ≠ file) :
    store.put file part other = store other :=
  Function.update_of_ne h ..

/-- What a part holds is what its file says, if the file looks as it did when it was read. -/
def Current (format : Format κ) (files : Files) (store : Store κ) (file : File) : Prop :=
  look files file = (store file).seen → contentsOf format files file = some (store file).value

def Fresh (format : Format κ) (files : Files) (store : Store κ) (file : File) : Prop :=
  contentsOf format files file = some (store file).value

lemma fresh_put {value : Contents κ file} {seen : Option Seen}
    (h : contentsOf format files file = some value) :
    Fresh format files (store.put file ⟨value, seen⟩) file := by
  rw [Fresh, put_self]
  exact h

lemma reloadOne_of_ne {other : File} (h : other ≠ file) :
    store.reloadOne format files file other = store other := by
  unfold Store.reloadOne
  split
  · rfl
  · cases contentsOf format files file with
    | none => rfl
    | some value => exact put_of_ne _ h

lemma reloadOne_congr {store' : Store κ} (h : store file = store' file) :
    store.reloadOne format files file file = store'.reloadOne format files file file := by
  unfold Store.reloadOne
  rw [h]
  split
  · exact h
  · cases contentsOf format files file with
    | none => exact h
    | some value => exact (put_self _).trans (put_self _).symm

lemma reload_apply (file : File) :
    store.reload format files file = store.reloadOne format files file file := by
  have hfold : ∀ (all : List File) (store : Store κ), all.Nodup →
      all.foldl (fun store file => store.reloadOne format files file) store file =
        if file ∈ all then store.reloadOne format files file file else store file := by
    intro all
    induction all with
    | nil => intro store _; rfl
    | cons other all ih =>
      intro store hnodup
      obtain ⟨hother, hall⟩ := List.nodup_cons.1 hnodup
      rw [List.foldl_cons, ih _ hall]
      by_cases hfile : file = other
      · subst hfile
        rw [if_neg hother, if_pos List.mem_cons_self]
      · rw [reloadOne_congr (reloadOne_of_ne hfile), reloadOne_of_ne hfile]
        simp only [List.mem_cons, hfile, false_or]
  rw [Store.reload, hfold File.all store (by decide), if_pos]
  cases file <;> decide

lemma reload_fresh (h : Current format files store file)
    (hreads : (contentsOf format files file).isSome) :
    Fresh format files (store.reload format files) file := by
  obtain ⟨value, hvalue⟩ := Option.isSome_iff_exists.1 hreads
  rw [Fresh, reload_apply, Store.reloadOne]
  split
  · next hseen => exact h hseen
  · rw [hvalue]
    simp only
    rw [put_self]

lemma reload_unread (h : contentsOf format files file = none) :
    store.reload format files file = store file := by
  rw [reload_apply, Store.reloadOne, h]
  split <;> rfl

lemma reload_current (h : Current format files store file) :
    Current format files (store.reload format files) file := by
  cases hreads : contentsOf format files file with
  | none =>
    intro hseen
    rw [reload_unread hreads] at hseen ⊢
    exact h hseen
  | some value =>
    intro _
    exact reload_fresh h (by rw [hreads]; rfl)

lemma contentsOf_write {value : Contents κ file} {time : Option Nat}
    (hback : ReadsBack format file value) :
    contentsOf format (Function.update files file
      (some (.of (format.write file value) time))) file = some value := by
  simp only [contentsOf, textOf, Function.update_self, Written.of, Option.bind_some]
  rw [hback]
  rfl

lemma save_cases {value : Contents κ file} {stamp : Stamp} {saved : Directory κ}
    (hsave : home.save format file value stamp = some saved)
    (hback : ReadsBack format file value) :
    Fresh format saved.files saved.store file ∧
      ∀ other, other ≠ file → saved.files other = home.files other ∧
        saved.store other = home.store other := by
  unfold Directory.save at hsave
  dsimp only at hsave
  split at hsave
  · next h =>
    cases hsave
    refine ⟨fresh_put ?_, fun other hother => ⟨rfl, put_of_ne _ hother⟩⟩
    rw [contentsOf, h.1, Option.bind_some, hback]
    rfl
  · split at hsave
    · cases hsave
      refine ⟨fresh_put ?_, fun other hother =>
        ⟨Function.update_of_ne hother .., put_of_ne _ hother⟩⟩
      exact contentsOf_write hback
    · cases hsave

def BothFresh (format : Format κ) (home : Directory κ) : Prop :=
  Fresh format home.files home.store .users ∧ Fresh format home.files home.store .secrets

lemma Fresh.current (h : Fresh format files store file) : Current format files store file :=
  fun _ => h

lemma Fresh.congr {other : Directory κ} (h : Fresh format home.files home.store file)
    (hfile : other.files file = home.files file) (hpart : other.store file = home.store file) :
    Fresh format other.files other.store file := by
  rw [Fresh, contentsOf, textOf, hfile, hpart]
  exact h

lemma BothFresh.told (h : BothFresh format home) :
    told format home.files = some home.store.people := by
  rw [Config.told, h.1, h.2]
  rfl

lemma isSome_of_told (h : (told format files).isSome) :
    (contentsOf format files .users).isSome ∧ (contentsOf format files .secrets).isSome := by
  unfold Config.told at h
  split at h
  · next users secrets husers hsecrets => exact ⟨by rw [husers]; rfl, by rw [hsecrets]; rfl⟩
  · cases h

lemma bothFresh_reload (husers : Current format home.files home.store .users)
    (hsecrets : Current format home.files home.store .secrets)
    (h : (told format home.files).isSome) : BothFresh format (home.reload format) :=
  ⟨reload_fresh husers (isSome_of_told h).1, reload_fresh hsecrets (isSome_of_told h).2⟩

lemma BothFresh.save {value : Contents κ file} {stamp : Stamp} {saved : Directory κ}
    (h : BothFresh format home) (hsave : home.save format file value stamp = some saved)
    (hback : ReadsBack format file value) : BothFresh format saved := by
  obtain ⟨hfresh, hother⟩ := save_cases hsave hback
  constructor
  · by_cases hfile : File.users = file
    · subst hfile
      exact hfresh
    · exact h.1.congr (hother _ hfile).1 (hother _ hfile).2
  · by_cases hfile : File.secrets = file
    · subst hfile
      exact hfresh
    · exact h.2.congr (hother _ hfile).1 (hother _ hfile).2

lemma BothFresh.saveOr {value : Contents κ file} {stamp : Stamp} (h : BothFresh format home)
    (hback : ReadsBack format file value) :
    BothFresh format ((home.save format file value stamp).getD home) := by
  cases hsave : home.save format file value stamp with
  | none => exact h
  | some saved => exact h.save hsave hback

lemma BothFresh.saveBoth {users : List User} {secrets : ExtensionSettings}
    {first second third : Stamp} (h : BothFresh format home)
    (husers : ReadsBack format .users users) (hsecrets : ReadsBack format .secrets secrets)
    (hold : ReadsBack format .users (home.store .users).value) :
    BothFresh format (home.saveUsersAndSecrets format users secrets first second third) := by
  unfold Directory.saveUsersAndSecrets
  split
  · exact h
  · next saved hsave =>
    have hsaved := h.save hsave husers
    split
    · next saved' hsave' => exact hsaved.save hsave' hsecrets
    · exact hsaved.saveOr hold

/-- Both parts are current, and hold what the files told when both were last read. -/
structure Heeds (format : Format κ) (w : Watch κ) : Prop where
  users : Current format w.home.files w.home.store .users
  secrets : Current format w.home.files w.home.store .secrets
  found : w.found = some w.home.store.people

lemma heeds_of_bothFresh {event : HomeEvent} (h : BothFresh format (w.after format event).home)
    (hevent : ∀ file written, event ≠ .outside file written) :
    Heeds format (w.after format event) := by
  refine ⟨h.1.current, h.2.current, ?_⟩
  have htold : told format (w.home.after format event).files =
      some (w.home.after format event).store.people := BothFresh.told h
  cases event with
  | outside file written => exact absurd rfl (hevent file written)
  | _ => simp only [Watch.after, htold, Option.some_or]

lemma people_reload_unread
    (husers : ∀ users, contentsOf format home.files .users = some users →
      users = (home.store .users).value)
    (hsecrets : ∀ secrets, contentsOf format home.files .secrets = some secrets →
      secrets = (home.store .secrets).value)
    (hcurrent : Current format home.files home.store .users)
    (hcurrent' : Current format home.files home.store .secrets) :
    (home.reload format).store.people = home.store.people := by
  have hvalue : ∀ file, Current format home.files home.store file →
      (∀ value, contentsOf format home.files file = some value →
        value = (home.store file).value) →
      (home.store.reload format home.files file).value = (home.store file).value := by
    intro file hcurrent hsame
    cases hreads : contentsOf format home.files file with
    | none => rw [reload_unread hreads]
    | some value =>
      have hfresh := reload_fresh hcurrent (by rw [hreads]; rfl)
      rw [Fresh, hreads, Option.some.injEq] at hfresh
      rw [← hfresh, hsame value hreads]
  rw [Directory.reload, Store.people, Store.people, hvalue .users hcurrent husers,
    hvalue .secrets hcurrent' hsecrets]

/-- What an empty file says is what a part holds that was never read. -/
def EmptyIsBlank (format : Format κ) (file : File) : Prop :=
  format.read file "" = .ok (format.blank file)

lemma current_new (h : EmptyIsBlank format file) : Current format files (Store.new format) file := by
  intro hlook
  have hnone : files file = none := by
    simpa [look, Store.new] using hlook
  rw [contentsOf, textOf, hnone, Option.bind_some, h]
  rfl

lemma Current.outside {other : File} {written : Option Written}
    (h : Current format files store file)
    (hlook : written = files other ∨ written.map Written.seen ≠ (store other).seen) :
    Current format (Function.update files other written) store file := by
  intro hseen
  by_cases hfile : file = other
  · subst hfile
    rcases hlook with rfl | hlook
    · rw [Function.update_eq_self] at hseen ⊢
      exact h hseen
    · rw [look, Function.update_self] at hseen
      exact absurd hseen hlook
  · rw [contentsOf, textOf, Function.update_of_ne hfile]
    rw [look, Function.update_of_ne hfile] at hseen
    exact h hseen

lemma bothFresh_start (husers : EmptyIsBlank format .users)
    (hsecrets : EmptyIsBlank format .secrets) (h : (told format home.files).isSome) :
    BothFresh format (home.start format) :=
  ⟨reload_fresh (current_new husers) (isSome_of_told h).1,
    reload_fresh (current_new hsecrets) (isSome_of_told h).2⟩

lemma Heeds.after {event : HomeEvent} (h : Heeds format w) (hlegible : w.Legible format event)
    (husers : EmptyIsBlank format .users) (hsecrets : EmptyIsBlank format .secrets) :
    Heeds format (w.after format event) := by
  cases event with
  | start => exact heeds_of_bothFresh (bothFresh_start husers hsecrets hlegible) (by simp)
  | reload =>
    by_cases htold : (told format w.home.files).isSome
    · exact heeds_of_bothFresh (bothFresh_reload h.users h.secrets htold) (by simp)
    · have hlegible := hlegible.resolve_left htold
      refine ⟨reload_current h.users, reload_current h.secrets, ?_⟩
      have hnone : told format (w.home.reload format).files = none := by
        simpa [Directory.reload] using htold
      simp only [Watch.after, Directory.after, hnone, Option.none_or]
      rw [h.found, people_reload_unread hlegible.1 hlegible.2 h.users h.secrets]
  | editPeople change first second third =>
    obtain ⟨htold, hold, hback⟩ := hlegible
    refine heeds_of_bothFresh ?_ (by simp)
    have hfresh := bothFresh_reload h.users h.secrets htold
    simp only [Watch.after, Directory.after, Directory.editPeople]
    split
    · exact hfresh
    · next people made hedit =>
      obtain ⟨husers, hsecrets⟩ := hback people made hedit
      split
      · exact hfresh
      · next secrets hpasswords =>
        split
        · exact hfresh.saveOr husers
        · exact hfresh.saveBoth husers (hsecrets secrets hpasswords) hold
  | editSecrets change stamp =>
    obtain ⟨htold, hback⟩ := hlegible
    refine heeds_of_bothFresh ?_ (by simp)
    have hfresh := bothFresh_reload h.users h.secrets htold
    simp only [Watch.after, Directory.after, Directory.editSecrets]
    split
    · exact hfresh
    · next secrets hchange => exact hfresh.saveOr (hback secrets hchange)
  | outside file written => exact ⟨h.users.outside hlegible, h.secrets.outside hlegible, h.found⟩

lemma Heeds.afterAll {events : List HomeEvent} (h : Heeds format w)
    (hlegible : w.All format (fun w => w.Legible format) events)
    (husers : EmptyIsBlank format .users) (hsecrets : EmptyIsBlank format .secrets) :
    Heeds format (events.foldl (fun w event => w.after format event) w) := by
  induction events generalizing w with
  | nil => exact h
  | cons event events ih =>
    exact ih (h.after hlegible.1 husers hsecrets) hlegible.2

/-- A locked home fails closed in every run whose steps find its files legible. -/
theorem failsClosed_of_legible {files : Files} {events : List HomeEvent}
    (husers : EmptyIsBlank format .users) (hsecrets : EmptyIsBlank format .secrets)
    (hlegible : (Watch.unread format files).All format (fun w => w.Legible format)
      (.start :: events)) :
    (Watch.afterAll format files events).FailsClosed := by
  have hstart : Heeds format ((Watch.unread format files).after format .start) :=
    heeds_of_bothFresh (bothFresh_start husers hsecrets hlegible.1) (by simp)
  have h : Heeds format (Watch.afterAll format files events) :=
    hstart.afterAll hlegible.2 husers hsecrets
  exact ⟨fun _ hopen => ⟨_, h.found, hopen⟩, fun _ hopen => ⟨_, h.found, hopen⟩⟩

def may : UserId := ⟨"may", by decide⟩

def maysLine : String := "[users.may]\nname = \"May\"\nrole = \"owner\"\n"

def maysHash : String := "[users.passwords]\nmay = \"$argon2id$v=19$m=19456,t=2,p=1$c2FsdA$aGFzaA\"\n"

def maysFormat : Format fun _ => Unit where
  read
    | .users, text =>
      if text = "" then .ok [] else if text = maysLine then .ok [⟨may, "May", .owner⟩]
      else .error "invalid table header"
    | .secrets, text =>
      if text = "" then .ok (∅ : ExtensionSettings)
      else if text = maysHash then
        .ok ((∅ : ExtensionSettings).insert People.table [("passwords", .object
          [("may", .string "$argon2id$v=19$m=19456,t=2,p=1$c2FsdA$aGFzaA")])])
      else .error "isn't valid TOML on line 1: invalid table header"
    | .irori, _ | .areas, _ | .floorplan, _ | .devices, _ | .entities, _ | .home, _ => .ok ()
  write _ _ := ""
  default_ _ := ()

def maysFiles : Files
  | .users => some (.of maysLine (some 1))
  | .secrets => some (.of maysHash (some 1))
  | _ => none

def breaks : HomeEvent := .outside .secrets (some (.of "[users.passwords\n" (some 2)))

def maysBroken : Watch fun _ => Unit :=
  ((Watch.unread maysFormat maysFiles).after maysFormat .start).after maysFormat breaks

theorem failsClosed_reload :
    (Watch.afterAll maysFormat maysFiles [breaks, .reload]).FailsClosed ∧
      (Watch.afterAll maysFormat maysFiles [breaks, .reload]).home.store.people.locked = true := by
  have htold : (told maysFormat maysFiles).isSome = true := by decide
  have hstart : BothFresh maysFormat
      ((⟨maysFiles, Store.new maysFormat⟩ : Directory fun _ => Unit).start maysFormat) :=
    bothFresh_start rfl rfl htold
  have husers : Fresh maysFormat maysBroken.home.files maysBroken.home.store .users :=
    hstart.1.congr rfl rfl
  have hsecrets : (contentsOf maysFormat maysBroken.home.files .secrets).isNone = true := by
    decide
  refine ⟨failsClosed_of_legible rfl rfl ⟨htold, Or.inr (by decide),
    Or.inr ⟨fun users hread => ?_, fun secrets hread => ?_⟩, trivial⟩, by decide⟩
  · exact Option.some.inj (hread.symm.trans husers)
  · rw [Option.isNone_iff_eq_none] at hsecrets
    exact absurd (hread.symm.trans hsecrets) (by simp)

/-- Irori starts again before the line is put right, and takes whoever comes for the owner. -/
theorem not_failsClosed_restart :
    ¬ (Watch.afterAll maysFormat maysFiles [breaks, .start]).FailsClosed := by
  intro h
  obtain ⟨people, hfound, hopen⟩ := h.locked (by decide) (by decide)
  have hlocked : (Watch.afterAll maysFormat maysFiles [breaks, .start]).found.any
      People.locked = true := by decide
  rw [hfound, Option.any_some, hopen] at hlocked
  cases hlocked

end Irori.Proofs
