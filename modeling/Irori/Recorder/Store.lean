import Irori.Home.Types
import Irori.Recorder.Stats

/-!
# The recorder's tables

What is on disk: the changes of each entity, the five-minute and the hourly rows, the entities that
are summarized, and those whose readings were converted. Rows of an entity are kept in the order of
the index on them, by time and then by when they were stored.
-/

namespace Irori.Recorder

variable {σ : Type}

/-- What the recorder needs to know of a state: the number in it, and the state with its number
scaled and moved, where it holds one. -/
structure Numbers (σ : Type) where
  primary : Core.State σ → Option ℚ
  scaled : (scale offset : ℚ) → Core.State σ → Option (Core.State σ)

def numberOf (numbers : Numbers σ) (state : Core.EntityState σ) : Option ℚ :=
  if state.availability ≠ .available then none else state.state.bind numbers.primary

abbrev Row (σ : Type) := Int × Core.EntityState σ

structure Rows (σ : Type) where
  list : List (Row σ)
  sorted : list.Pairwise fun a b => a.1 ≤ b.1

namespace Rows

def empty : Rows σ := ⟨[], List.Pairwise.nil⟩

lemma sorted_insert {rows : List (Row σ)} (h : rows.Pairwise fun a b => a.1 ≤ b.1)
    (row : Row σ) :
    (rows.takeWhile (fun r => r.1 ≤ row.1) ++ row :: rows.dropWhile (fun r => r.1 ≤ row.1)).Pairwise
      fun a b => a.1 ≤ b.1 := by
  induction rows with
  | nil => simp
  | cons r rows ih =>
    obtain ⟨hr, hrows⟩ := List.pairwise_cons.1 h
    by_cases hle : r.1 ≤ row.1
    · simp only [List.takeWhile_cons, List.dropWhile_cons, hle, decide_true, if_true,
        List.cons_append, List.pairwise_cons]
      refine ⟨fun x hx => ?_, ih hrows⟩
      rcases List.mem_append.1 hx with hx | hx
      · exact hr x ((List.takeWhile_sublist _).mem hx)
      · rcases List.mem_cons.1 hx with rfl | hx
        · exact hle
        · exact hr x ((List.dropWhile_sublist _).mem hx)
    · simp only [List.takeWhile_cons, List.dropWhile_cons, hle, decide_false, Bool.false_eq_true,
        if_false, List.nil_append, List.pairwise_cons]
      refine ⟨fun x hx => ?_, hr, hrows⟩
      rcases List.mem_cons.1 hx with rfl | hx
      · exact (not_le.1 hle).le
      · exact (not_le.1 hle).le.trans (hr x hx)

def insert (rows : Rows σ) (row : Row σ) : Rows σ :=
  ⟨_, sorted_insert rows.sorted row⟩

def filter (p : Row σ → Bool) (rows : Rows σ) : Rows σ :=
  ⟨rows.list.filter p, rows.sorted.filter p⟩

def mapStates (f : Row σ → Core.EntityState σ) (rows : Rows σ) : Rows σ :=
  ⟨rows.list.map fun row => (row.1, f row), List.pairwise_map.2 rows.sorted⟩

end Rows

structure Tracked where
  kind : StateClass
  compiledUntil : Int
  deriving DecidableEq

abbrev Summaries := Map Int Stat

structure Store (σ : Type) where
  stateHistory : Map EntityId (Rows σ)
  convertedUnits : Map EntityId String
  statisticEntities : Map EntityId Tracked
  statisticsShortTerm : Map EntityId Summaries
  statistics : Map EntityId Summaries

namespace Store

def empty : Store σ := ⟨∅, ∅, ∅, ∅, ∅⟩

variable (store : Store σ)

def rows (id : EntityId) : Rows σ := (store.stateHistory[id]?).getD .empty

def shortTerm (id : EntityId) : Summaries := (store.statisticsShortTerm[id]?).getD ∅

def hourly (id : EntityId) : Summaries := (store.statistics[id]?).getD ∅

end Store

def nanos (timestamp : Int) : Option Int :=
  if -2 ^ 63 ≤ timestamp ∧ timestamp < 2 ^ 63 then some timestamp else none

/-- So many days before the clock, where a span and a timestamp reach that far. -/
def cutoffNs (clock : Timestamp) (retainDays : Nat) : Option Int :=
  if retainDays * 24 ≤ 175307616 then
    let cutoff := clock - retainDays * 24 * hour
    if Timestamp.least ≤ cutoff ∧ cutoff ≤ Timestamp.greatest then nanos cutoff else none
  else none

namespace Store

variable (store : Store σ)

/-- Remembers that an entity is summarized. The first class sticks. Compilation starts at the
oldest stored change, or at the current period when nothing is stored yet. -/
def noteClass (id : EntityId) (kind : StateClass) (nowNs : Int) : Store σ :=
  if store.statisticEntities.contains id then store
  else
    let oldest := (store.rows id).list.head?.map Prod.fst
    { store with
      statisticEntities := store.statisticEntities.insert id
        ⟨kind, alignDown (oldest.getD nowNs) fiveMin⟩ }

def insertShortTerm (id : EntityId) (start : Int) : Option Stat → Store σ
  | none => store
  | some stat =>
    { store with
      statisticsShortTerm := store.statisticsShortTerm.insert id
        ((store.shortTerm id).insert start stat) }

def insertHourly (id : EntityId) (start : Int) : Option Stat → Store σ
  | none => store
  | some stat =>
    { store with
      statistics := store.statistics.insert id ((store.hourly id).insert start stat) }

end Store

def hourParts (summaries : Summaries) (start stop : Int) : List Stat :=
  (summaries.toList.filter fun row => start ≤ row.1 && row.1 < stop).map Prod.snd

def compiledLast (summaries : Summaries) (before : Int) : Option ℚ :=
  (summaries.toList.filter fun row => row.1 < before && row.2.last.isSome).getLast?.bind
    fun row => row.2.last

/-- The hour that ends at `stop`, if one does, made of its five-minute rows. -/
def Store.finishHour (store : Store σ) (id : EntityId) (stop : Int) : Store σ :=
  if stop % hour = 0 then
    store.insertHourly id (stop - hour) (rollup (hourParts (store.shortTerm id) (stop - hour) stop))
  else store

section Compiling

variable (numbers : Numbers σ)

def latestNumeric (rows : Rows σ) (before : Int) : Option ℚ :=
  (rows.list.filter fun row => row.1 < before).reverse.findSome? fun row => numberOf numbers row.2

def valuesBetween (rows : Rows σ) (start stop : Int) : List Sample :=
  (rows.list.filter fun row => start ≤ row.1 && row.1 < stop).filterMap fun row =>
    (numberOf numbers row.2).map fun value => (row.1, value)

/-- The value a period carries in. Once retention has deleted the raw rows, the last value stored on
a summary is that value. -/
def valueBefore (store : Store σ) (id : EntityId) (before : Int) : Option ℚ :=
  ((latestNumeric numbers (store.rows id) before).or
    (compiledLast (store.shortTerm id) before)).or (compiledLast (store.hourly id) before)

/-- Some periods compiled one after another, and the hours they finish. -/
def compilePeriods (id : EntityId) (kind : StateClass) :
    Nat → Int → Option ℚ → List Sample → Store σ → Store σ
  | 0, _, _, _, store => store
  | count + 1, cursor, carried, samples, store =>
    let stop := cursor + fiveMin
    let inside := samples.takeWhile fun sample => sample.1 < stop
    let store :=
      (store.insertShortTerm id cursor (period kind cursor carried inside)).finishHour id stop
    compilePeriods id kind count stop ((inside.getLast?.map Prod.snd).or carried)
      (samples.dropWhile fun sample => sample.1 < stop) store

def periodsToCompile (compiledUntil : Int) (budget : Nat) (nowNs : Int) : Nat :=
  let available := (alignDown nowNs fiveMin - alignDown compiledUntil fiveMin) / fiveMin
  Nat.min available.toNat budget

/-- Compiles up to `budget` closed periods of an entity: the store after it, and how many. -/
def compileEntity (store : Store σ) (id : EntityId) (tracked : Tracked) (budget : Nat)
    (nowNs : Int) : Store σ × Nat :=
  let cursor := alignDown tracked.compiledUntil fiveMin
  let count := periodsToCompile tracked.compiledUntil budget nowNs
  if count = 0 then (store, 0)
  else
    let windowEnd := cursor + count * fiveMin
    let carry := valueBefore numbers store id cursor
    let samples := valuesBetween numbers (store.rows id) cursor windowEnd
    let store := compilePeriods id tracked.kind count cursor carry samples store
    ({ store with
        statisticEntities := store.statisticEntities.insert id
          { tracked with compiledUntil := windowEnd } }, count)

/-- The tracked entities compiled in the order of their ids until the budget is used up or one
fails, and whether none did. -/
def compileAll (nowNs : Int) (fails : EntityId → Bool) :
    List (EntityId × Tracked) → Nat → Store σ → Store σ × Bool
  | [], _, store => (store, true)
  | (id, tracked) :: rest, left, store =>
    if left = 0 then (store, true)
    else if fails id then (store, false)
    else
      let (store, used) := compileEntity numbers store id tracked left nowNs
      compileAll nowNs fails rest (left - used) store

/-- Compiles up to `budget` closed five-minute periods, and the hours those periods finish, of one
entity or of every one that is summarized. -/
def compile (store : Store σ) (budget : Nat) (only : Option EntityId) (nowNs : Int)
    (fails : EntityId → Bool) : Store σ × Bool :=
  let tracked := store.statisticEntities.toList.filter fun entry =>
    match only with
    | none => true
    | some id => entry.1 == id
  compileAll numbers nowNs fails tracked budget store

end Compiling

/-- How long history is kept: the changes and the five-minute summaries, and the hourly ones. -/
structure Retention where
  retainDays : Nat
  summaryDays : Option Nat
  retainDays_pos : 1 ≤ retainDays
  summaryDays_ge : ∀ days ∈ summaryDays, retainDays ≤ days

namespace Retention

lemma one_le_of_not {days : Nat} (h : ¬ days = 0) : 1 ≤ days := by omega

lemma none_ge (days : Nat) : ∀ n ∈ (none : Option Nat), days ≤ n := by simp

lemma some_ge {days n : Nat} (h : ¬ n < days) : ∀ m ∈ some n, days ≤ m := by simpa using h

def new (retainDays : Nat) (summaryDays : Option Nat) : Except String Retention :=
  if h : retainDays = 0 then .error "retain_days must be at least 1"
  else
    match summaryDays with
    | none => .ok ⟨retainDays, none, one_le_of_not h, none_ge retainDays⟩
    | some days =>
      if days = 0 then
        .error "summary_days must be at least 1, or be left unset to keep hourly summaries"
      else if h' : days < retainDays then
        .error ("summary_days must be at least retain_days. Leave it unset to keep hourly " ++
          "summaries")
      else .ok ⟨retainDays, some days, one_le_of_not h, some_ge h'⟩

end Retention

namespace Store

variable (store : Store σ)

def behind (id : EntityId) (cutoff : Int) : Bool :=
  (store.statisticEntities[id]?).any fun tracked => tracked.compiledUntil < cutoff

def settled (id : EntityId) (start : Int) : Bool :=
  (store.statisticEntities[id]?).all fun tracked =>
    start < tracked.compiledUntil - tracked.compiledUntil.tmod hour

/-- Deletes rows older than `cutoff`, but not those still to be summarized, and the hourly rows
older than `summaryCutoff` where there is one. -/
def pruneBefore (cutoff : Int) (summaryCutoff : Option Int) : Store σ :=
  { store with
    stateHistory := store.stateHistory.map fun id rows =>
      rows.filter fun row => !(row.1 < cutoff && !store.behind id cutoff)
    statisticsShortTerm := store.statisticsShortTerm.map fun id summaries =>
      summaries.filter fun start _ => !(start < cutoff && store.settled id start)
    statistics :=
      match summaryCutoff with
      | none => store.statistics
      | some summaryCutoff => store.statistics.map fun _ summaries =>
        summaries.filter fun start _ => !(start < summaryCutoff) }

/-- Deletes what is older than a home keeps. A span that doesn't fit keeps the rows. -/
def prune (retention : Retention) (clock : Timestamp) : Store σ :=
  match cutoffNs clock retention.retainDays with
  | none => store
  | some cutoff => store.pruneBefore cutoff (retention.summaryDays.bind (cutoffNs clock))

def append (state : Core.EntityState σ) : Store σ :=
  match nanos state.lastUpdated with
  | none => store
  | some updated =>
    { store with
      stateHistory := store.stateHistory.insert state.entityId
        ((store.rows state.entityId).insert (updated, state)) }

inductive Table
  | stateHistory
  | shortTerm
  | hourly
  | statisticEntities
  | convertedUnits

def deleteEntity (id : EntityId) : Table → Store σ
  | .stateHistory => { store with stateHistory := store.stateHistory.erase id }
  | .shortTerm => { store with statisticsShortTerm := store.statisticsShortTerm.erase id }
  | .hourly => { store with statistics := store.statistics.erase id }
  | .statisticEntities => { store with statisticEntities := store.statisticEntities.erase id }
  | .convertedUnits => { store with convertedUnits := store.convertedUnits.erase id }

/-- Deletes the rows of every entity that isn't in `live` from one table. -/
def deleteMissing (live : List EntityId) : Table → Store σ
  | .stateHistory =>
    { store with stateHistory := store.stateHistory.filter fun id _ => live.contains id }
  | .shortTerm =>
    { store with
      statisticsShortTerm := store.statisticsShortTerm.filter fun id _ => live.contains id }
  | .hourly => { store with statistics := store.statistics.filter fun id _ => live.contains id }
  | .statisticEntities =>
    { store with
      statisticEntities := store.statisticEntities.filter fun id _ => live.contains id }
  | .convertedUnits =>
    { store with convertedUnits := store.convertedUnits.filter fun id _ => live.contains id }

/-- An entity forgotten, table by table: `done` of the deletions go through, all of them if there
is no more to do. -/
def forget (id : EntityId) (done : Nat) : Store σ :=
  ((([.stateHistory, .shortTerm, .hourly, .statisticEntities, .convertedUnits] :
    List Table)).take done).foldl (fun store table => store.deleteEntity id table) store

/-- Every entity that isn't in `live` forgotten. The deletions are one transaction, except that
with nothing live they go through one by one. -/
def forgetMissing (live : List EntityId) (done : Nat) : Store σ :=
  let tables : List Table := [.stateHistory, .shortTerm, .hourly, .statisticEntities]
  if live.isEmpty then
    (tables.take done).foldl (fun store table => store.deleteMissing live table) store
  else if done < tables.length then store
  else tables.foldl (fun store table => store.deleteMissing live table) store

def rounded (value : ℚ) : ℚ :=
  (if 0 ≤ value then ⌊value * 100 + 1 / 2⌋ else ⌈value * 100 - 1 / 2⌉) / 100

/-- The readings of a summary, converted. Its sum is for sensors that count. -/
def convertStat (scale offset : ℚ) (stat : Stat) : Stat :=
  let moved (value : ℚ) : ℚ := rounded (value * scale + offset)
  { stat with
    mean := stat.mean.map moved, min := stat.min.map moved
    max := stat.max.map moved, last := stat.last.map moved }

def convertOnce (numbers : Numbers σ) (id : EntityId) (fromUnit : String) (scale offset : ℚ)
    (before : Int) : Store σ :=
  if store.convertedUnits.contains id then store
  else
    let converted (row : Row σ) : Core.EntityState σ :=
      if row.1 < before then
        match row.2.state.bind (numbers.scaled scale offset) with
        | some state => { row.2 with state := some state }
        | none => row.2
      else row.2
    let moved (start : Int) (stat : Stat) : Stat :=
      if start < before then convertStat scale offset stat else stat
    { store with
      stateHistory := store.stateHistory.alter id (Option.map (Rows.mapStates converted))
      statisticsShortTerm := store.statisticsShortTerm.alter id
        (Option.map fun summaries => summaries.map moved)
      statistics := store.statistics.alter id (Option.map fun summaries => summaries.map moved)
      convertedUnits := store.convertedUnits.insert id fromUnit }

end Store

end Irori.Recorder
