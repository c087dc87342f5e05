import Irori.Config.Store
import Irori.Lib.Disk

/-!
# Writers of the config directory

Irori's own config has one store, and its edits take turns. A backup opens a store of its own for
each secret it reads or sets. Each is at some stage: a reload looks at one file at a time, and a
save writes a file beside each one it changes, and then renames them into place. An edit of
`irori.toml`, which only splices a section into its text, is left out.
-/

namespace Irori.Config

/-- A file of the directory, or the one written beside it. -/
inductive Filename
  | file (file : File)
  | writing (file : File)
  deriving DecidableEq

def filesOf (d : Disk Filename) : Files := fun file =>
  (d.content (.file file)).map fun inode => .of (String.ofList inode.text) (some inode.modified)

abbrev Values (κ : File → Type) := (file : File) → Contents κ file

variable {κ : File → Type}

/-- A change of what some files hold, with the groups of files it saves, one after the other. -/
structure Edit (κ : File → Type) where
  rewrites : List File
  change : Values κ → Except String (Values κ × List (List File))
  inside : ∀ values goal groups, change values = .ok (goal, groups) →
    groups.flatten.Nodup ∧ ∀ file ∈ groups.flatten, file ∈ rewrites

def Values.secrets (values : Values κ) : ExtensionSettings := values .secrets

def Values.users (values : Values κ) : List User := values .users

def Values.withSecrets (values : Values κ) (secrets : ExtensionSettings) : Values κ :=
  Function.update values .secrets secrets

def Values.withUsers (values : Values κ) (users : List User) : Values κ :=
  Function.update values .users users

namespace Edit

/-- An edit of the settings saves all their files, the ones it doesn't change too. -/
def settings (change : Values κ → Except String (Values κ)) : Edit κ where
  rewrites := File.settings
  change values := (change values).map fun goal => (goal, [File.settings])
  inside values goal groups h := by
    cases hchange : change values with
    | error e => simp [hchange, Except.map] at h
    | ok goal' =>
      simp only [hchange, Except.map, Except.ok.injEq, Prod.mk.injEq] at h
      rw [← h.2]
      decide

def one (file : File) (change : Values κ → Except String (Contents κ file)) : Edit κ where
  rewrites := [file]
  change values := (change values).map fun value => (Function.update values file value, [[file]])
  inside values goal groups h := by
    cases hchange : change values with
    | error e => simp [hchange, Except.map] at h
    | ok value =>
      simp only [hchange, Except.map, Except.ok.injEq, Prod.mk.injEq] at h
      rw [← h.2]
      simp

def home (change : Contents κ .home → Except String (Contents κ .home)) : Edit κ :=
  one .home fun values => change (values .home)

def secrets (change : ExtensionSettings → Except String ExtensionSettings) : Edit κ :=
  one .secrets fun values => change values.secrets

/-- Secrets of one extension, set together with its settings. Its own file, which is left out, is
written first, and may be refused. -/
def extensionWithSecrets (extension : ExtensionId) (file : Except String Unit)
    (toSet : List (String × String)) : Edit κ :=
  secrets fun settings =>
    match file with
    | .error message => .error message
    | .ok _ => toSet.foldlM (fun settings secret => settings.set extension [secret.1] secret.2)
      settings

/-- What an edit of the people makes of what is held. The secrets are only saved if they change. -/
def peopleGoal (change : People → Except String (People × Unit)) (values : Values κ) :
    Except String (Values κ × List (List File)) :=
  match (People.of values.users values.secrets).edit change with
  | .error message => .error message
  | .ok (people, _) =>
    match passwordsOf people values.secrets with
    | .error message => .error message
    | .ok secrets =>
      if secrets == values.secrets then .ok (values.withUsers people.users, [[.users]])
      else .ok ((values.withUsers people.users).withSecrets secrets, [[.users], [.secrets]])

def people (change : People → Except String (People × Unit)) : Edit κ where
  rewrites := [.users, .secrets]
  change := peopleGoal change
  inside values goal groups h := by
    unfold peopleGoal at h
    split at h
    · cases h
    · split at h
      · cases h
      · split at h <;>
        · cases h
          decide

end Edit

namespace Backup

def table : ExtensionId := ⟨"backup", by decide⟩

def key : String := "key"

def secret (name : String) (settings : ExtensionSettings) : Option String :=
  match (settings.of table).get? name with
  | some (.string text) => if text = "" then none else some text
  | _ => none

def setSecret (name value : String) : Edit κ :=
  Edit.secrets fun settings => settings.set table [name] value

end Backup

inductive Op (κ : File → Type)
  | reload
  | edit (edit : Edit κ)
  /-- The recovery key is looked up, to be made if there is none. -/
  | keyOrMake (fresh : String)
  /-- The recovery key, which wasn't there, is set. -/
  | make (fresh : String)

namespace Op

def rewrites : Op κ → List File
  | reload => []
  | edit e => e.rewrites
  | keyOrMake _ => [.secrets]
  | make _ => [.secrets]

def edits : Op κ → Option (Edit κ)
  | edit e => some e
  | make fresh => some (Backup.setSecret Backup.key fresh)
  | _ => none

end Op

/-- What is being saved: to what, from what, the group of files that is being saved, the groups
after it, and the files saved before it. -/
structure Saving (κ : File → Type) where
  goal : Values κ
  base : Values κ
  group : List File
  later : List (List File)
  done : List File

def Saving.files (s : Saving κ) : List File := s.done ++ s.group ++ s.later.flatten

inductive Stage (κ : File → Type)
  | idle
  | looking (files : List File)
  /-- A file that looked different is to be read. -/
  | reading (file : File) (now : Option Seen) (files : List File)
  | comparing (s : Saving κ) (todo prepared : List File)
  | opening (s : Saving κ) (file : File) (todo prepared : List File)
  | writing (s : Saving κ) (file : File) (i : Nat) (written rest : List Char)
      (todo prepared : List File)
  | placing (s : Saving κ) (todo prepared : List File)
  | settling (s : Saving κ) (todo : List File)

structure Worker (κ : File → Type) where
  store : Store κ
  op : Op κ
  stage : Stage κ

/-- What a step meets: whether it works, the time, and how many characters go at once. -/
structure Chance where
  works : Bool
  time : Nat
  size : Nat
  deriving DecidableEq

variable (format : Format κ)

def Saving.text (s : Saving κ) (file : File) : List Char := (format.write file (s.goal file)).toList

def discard (d : Disk Filename) (prepared : List File) : Disk Filename :=
  prepared.foldl (fun d file => d.remove (.writing file)) d

namespace Worker

variable (w : Worker κ)

def values : Values κ := fun file => (w.store file).value

def at_ (stage : Stage κ) : Worker κ := { w with stage := stage }

def failed (s : Saving κ) : Worker κ :=
  if s.done = [] then w.at_ .idle
  else w.at_ (.comparing ⟨s.base, s.base, s.done, [], []⟩ s.done [])

def holdGoal (s : Saving κ) : Worker κ :=
  { w with store := fun file =>
      if file ∈ s.group then ⟨s.goal file, (w.store file).seen⟩ else w.store file }

/-- Saves what an edit makes of what is held, or refuses. -/
def begin_ (e : Edit κ) : Worker κ :=
  match e.change w.values with
  | .ok (goal, group :: later) =>
    w.at_ (.comparing ⟨goal, w.values, group, later, []⟩ group [])
  | _ => w.at_ .idle

def reloaded : Worker κ :=
  match w.op with
  | .reload => w.at_ .idle
  | .edit e => w.begin_ e
  | .make fresh => w.begin_ (Backup.setSecret Backup.key fresh)
  | .keyOrMake fresh =>
    if (Backup.secret Backup.key w.values.secrets).isSome then w.at_ .idle
    else ⟨Store.new format, .make fresh, .looking File.all⟩

/-- The next step of a worker, and what it leaves on the disk. -/
def go (d : Disk Filename) (chance : Chance) : Disk Filename × Worker κ :=
  match w.stage with
  | .idle => (d, w)
  | .looking [] => (d, w.reloaded format)
  | .looking (file :: files) =>
    let now := look (filesOf d) file
    if now = (w.store file).seen then (d, w.at_ (.looking files))
    else (d, w.at_ (.reading file now files))
  | .reading file now files =>
    match if chance.works then contentsOf format (filesOf d) file else none with
    | some value => (d, ⟨w.store.put file ⟨value, now⟩, w.op, .looking files⟩)
    | none => (d, w.at_ (.looking files))
  | .comparing s [] prepared => (d, w.at_ (.placing s prepared prepared))
  | .comparing s (file :: todo) prepared =>
    if (d.content (.file file)).map Inode.text = some (s.text format file) then
      (d, w.at_ (.comparing s todo prepared))
    else (d, w.at_ (.opening s file todo prepared))
  | .opening s file todo prepared =>
    if chance.works then
      (d.create (.writing file) chance.time, w.at_ (.writing s file (d.opened (.writing file)) []
        (s.text format file) todo prepared))
    else (discard d prepared, w.failed s)
  | .writing s file _ _ [] todo prepared =>
    (d, w.at_ (.comparing s todo (prepared ++ [file])))
  | .writing s file i written rest todo prepared =>
    if chance.works then
      let piece := rest.take (chance.size + 1)
      (d.write i written.length piece chance.time,
        w.at_ (.writing s file i (written ++ piece) (rest.drop (chance.size + 1)) todo prepared))
    else (discard d (file :: prepared), w.failed s)
  | .placing s [] _ => (d, (w.holdGoal s).at_ (.settling s s.group))
  | .placing s (file :: todo) prepared =>
    if chance.works && (d.names (.writing file)).isSome then
      (d.rename (.writing file) (.file file), w.at_ (.placing s todo prepared))
    else (discard d prepared, w.failed s)
  | .settling s (file :: todo) =>
    (d, ⟨w.store.put file ⟨(w.store file).value, look (filesOf d) file⟩, w.op,
      .settling s todo⟩)
  | .settling s [] =>
    match s.later with
    | [] => (d, w.at_ .idle)
    | group :: later =>
      (d, w.at_ (.comparing { s with group, later, done := s.done ++ s.group } group []))

end Worker

structure World (κ : File → Type) where
  disk : Disk Filename
  workers : Map Nat (Worker κ)

inductive WorldEvent (κ : File → Type)
  | ask (n : Nat) (op : Op κ)
  | go (n : Nat) (chance : Chance)
  | outside (file : File) (inode : Inode)
  | restart

namespace World

variable (x : World κ)

def start (d : Disk Filename) : World κ :=
  ⟨d, (∅ : Map Nat (Worker κ)).insert 0 ⟨Store.new format, .reload, .looking File.all⟩⟩

def isIdle : Stage κ → Bool
  | .idle => true
  | _ => false

/-- A worker as it is from here on. A backup's store is dropped when it is done. -/
def settle (n : Nat) (w : Worker κ) : Map Nat (Worker κ) :=
  if isIdle w.stage && n != 0 then x.workers.erase n else x.workers.insert n w

def ask (n : Nat) (op : Op κ) : World κ :=
  match x.workers[n]? with
  | none => { x with workers := x.workers.insert n ⟨Store.new format, op, .looking File.all⟩ }
  | some w =>
    if isIdle w.stage then
      { x with workers := x.workers.insert n ⟨w.store, op, .looking File.all⟩ }
    else x

def after : WorldEvent κ → World κ
  | .ask n op => x.ask format n op
  | .go n chance =>
    match x.workers[n]? with
    | none => x
    | some w => ⟨(w.go format x.disk chance).1, x.settle n (w.go format x.disk chance).2⟩
  | .outside file inode => { x with disk := x.disk.replace (.file file) inode }
  | .restart => start format x.disk

end World

end Irori.Config
