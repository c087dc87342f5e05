import Mathlib.Data.Finset.Basic
import Mathlib.Data.List.Sort
import Irori.Home.System

/-!
# What one person can see and use

The answer for a person held to some rooms is a set of the things in them, worked out once per list
and revision of the home. Changes of the home and questions run side by side: each goes on by one
look at what they share, or one change of it.
-/

namespace Irori.Core

variable {κ σ : Type}

def Placement.area : Placement → Option AreaId
  | .within area => some area
  | .unsaid | .nowhere => none

structure Rooms where
  areas : Finset AreaId
  floors : Finset FloorId
  devices : Finset DeviceId
  entities : Finset EntityId
  deriving DecidableEq

namespace Rooms

/-- The areas of `wanted` that are there. A room that isn't there is skipped. -/
def areasOf (settings : Settings) (wanted : List AreaId) : List AreaId :=
  wanted.filter fun id => (settings.area id).isSome

def devicesIn (home : Home κ σ) (areas : Finset AreaId) : Finset DeviceId :=
  (((Map.vals home.devices).filter fun device =>
    ((home.settings.devices[device.id]?).bind fun saved => saved.area.area).any (· ∈ areas)).map
      Device.id).toFinset

/-- What is in `wanted` right now. An entity a person put in a room of its own is there; any other is
where its device is. -/
def of (home : Home κ σ) (wanted : List AreaId) : Rooms :=
  let there := areasOf home.settings wanted
  let areas := there.toFinset
  let devices := devicesIn home areas
  { areas
    floors := (there.filterMap fun id => (home.settings.area id).bind Area.floorId).toFinset
    devices
    entities := (((Map.vals home.entities).filter fun entity =>
      match entity.areaId with
      | some room => decide (room ∈ areas)
      | none => entity.deviceId.any (· ∈ devices)).map Entity.id).toFinset }

end Rooms

/-- Whether an event means the registry, or what was said about it, changed. -/
def Event.counts : Event κ σ → Bool
  | .deviceAdded _ | .deviceUpdated _ | .deviceRemoved _ | .entityAdded _ | .entityUpdated _
  | .entityRemoved _ | .settingsChanged => true
  | .stateChanged .. | .foundChanged => false

inductive Question
  | asked (wanted : List AreaId)
  /-- It looked up the revision. -/
  | began (wanted : List AreaId) (revision : Nat)
  | looking (wanted : List AreaId) (revision : Nat)
  /-- It has worked the answer out, and still has the lock. -/
  | keeping (wanted : List AreaId) (revision : Nat) (held : Rooms)
  | answered (wanted : List AreaId) (held : Rooms)
  deriving DecidableEq

/-- A change of the home that is being published: the events left, whether any of all it has counts,
and the lists whose rooms it changed. -/
structure Publishing (κ σ : Type) where
  left : List (Event κ σ)
  counts : Bool
  changed : List AreaId → Bool

/-- What changes and questions share, and how far each of them is. The rest only notes what happened:
every home there was, and for each list and each question which of them was there when the last
change that matters to it was published. -/
structure Shared (κ σ : Type) where
  home : Home κ σ
  revision : Nat
  /-- What is kept for each list: the revision it was worked out at, and the answer. -/
  reaches : List AreaId → Option (Nat × Rooms)
  /-- The question that has the lock of what is kept. -/
  lock : Option Nat
  changes : Nat → Option (Publishing κ σ)
  questions : Nat → Option Question
  homes : List (Home κ σ)
  published : List AreaId → Nat
  since : Nat → Nat

inductive SharedEvent (κ σ : Type)
  | change (writer : Nat) (op : HomeOp κ σ)
  | publish (writer : Nat)
  /-- Something other than the home changed that counts, such as the people in it. -/
  | count
  | ask (question : Nat) (rooms : List AreaId)
  | go (question : Nat)

namespace Shared

def start : Shared κ σ where
  home := Home.new
  revision := 0
  reaches _ := none
  lock := none
  changes _ := none
  questions _ := none
  homes := [Home.new]
  published _ := 0
  since _ := 0

variable (s : Shared κ σ)

def now : Nat := s.homes.length - 1

def tidied (rooms : List AreaId) : List AreaId := (rooms.insertionSort (· ≤ ·)).dedup

def proceed (n : Nat) (question : Question) : Shared κ σ :=
  { s with questions := Function.update s.questions n (some question) }

def answer (n : Nat) (wanted : List AreaId) (held : Rooms) : Shared κ σ :=
  { s.proceed n (.answered wanted held) with lock := none }

def counted : Shared κ σ := { s with revision := s.revision + 1 }

def keep (wanted : List AreaId) (revision : Nat) (held : Rooms) : Shared κ σ :=
  { s with
    reaches := Function.update
      (fun list => (s.reaches list).filter fun entry => entry.1 == revision) wanted
      (some (revision, held)) }

def changed (n : Nat) (result : Except Rejected (List (Event κ σ))) (next : Home κ σ) :
    Shared κ σ :=
  { s with
    home := next
    homes := s.homes ++ [next]
    changes := Function.update s.changes n (some
      { left := result.toOption.getD []
        counts := (result.toOption.getD []).any Event.counts
        changed := fun wanted => decide (Rooms.of next wanted ≠ Rooms.of s.home wanted) }) }

/-- Whether a change is published once its event `event` is: that is the last of those that count,
or the last of all where none does. -/
def Publishing.done (event : Event κ σ) (rest : List (Event κ σ)) (counts : Bool) : Bool :=
  if counts then event.counts && !rest.any Event.counts else rest.isEmpty

def told (n : Nat) (change : Publishing κ σ) (event : Event κ σ) (rest : List (Event κ σ)) :
    Shared κ σ :=
  { s with
    revision := if event.counts then s.revision + 1 else s.revision
    changes := Function.update s.changes n (some { change with left := rest })
    published := fun wanted =>
      if Publishing.done event rest change.counts && (change.counts || change.changed wanted) then
        s.now
      else s.published wanted }

def goOn (n : Nat) : Question → Shared κ σ
  | .asked wanted => s.proceed n (.began wanted s.revision)
  | .began wanted revision =>
    match s.lock with
    | none => { s.proceed n (.looking wanted revision) with lock := some n }
    | some _ => s
  | .looking wanted revision =>
    match s.reaches wanted with
    | some (at_, held) =>
      if at_ = revision then s.answer n wanted held
      else s.proceed n (.keeping wanted revision (Rooms.of s.home wanted))
    | none => s.proceed n (.keeping wanted revision (Rooms.of s.home wanted))
  | .keeping wanted revision held => (s.keep wanted revision held).answer n wanted held
  | .answered .. => s

section Steps

variable [DecidableEq κ] [DecidableEq σ]

/-- What is shared after something happened. An operation that panics changes nothing. -/
def after (kinds : Kinds κ σ) : SharedEvent κ σ → Shared κ σ
  | .change n op =>
    if (s.changes n).any fun change => !change.left.isEmpty then s
    else
      match s.home.perform kinds op with
      | some (result, next) => s.changed n result next
      | none => s
  | .publish n =>
    match s.changes n with
    | some change =>
      match change.left with
      | event :: rest => s.told n change event rest
      | [] => s
    | none => s
  | .count => s.counted
  | .ask n rooms =>
    match s.questions n with
    | some _ => s
    | none =>
      { s.proceed n (.asked (tidied rooms)) with
        since := Function.update s.since n (s.published (tidied rooms)) }
  | .go n =>
    match s.questions n with
    | some question => s.goOn n question
    | none => s

def afterAll (kinds : Kinds κ σ) (events : List (SharedEvent κ σ)) : Shared κ σ :=
  events.foldl (fun s event => s.after kinds event) start

end Steps

end Shared

end Irori.Core
