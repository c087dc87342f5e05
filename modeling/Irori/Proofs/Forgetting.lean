import Irori.Recorder.Writer

/-!
# Forgotten means forgotten

Two jobs take an entity out of the recorder. What each leaves of it in the tables and in the batch,
and what can bring it back.
-/

namespace Irori.Proofs
open Irori Recorder

variable {σ : Type}

structure Absent (e : EntityId) (store : Store σ) : Prop where
  stateHistory : store.stateHistory[e]? = none
  shortTerm : store.statisticsShortTerm[e]? = none
  hourly : store.statistics[e]? = none
  statisticEntities : store.statisticEntities[e]? = none
  convertedUnits : store.convertedUnits[e]? = none

structure Unrecorded (e : EntityId) (store : Store σ) : Prop where
  stateHistory : store.stateHistory[e]? = none
  shortTerm : store.statisticsShortTerm[e]? = none
  hourly : store.statistics[e]? = none
  statisticEntities : store.statisticEntities[e]? = none

structure SameAt (e : EntityId) (a b : Store σ) : Prop where
  stateHistory : b.stateHistory[e]? = a.stateHistory[e]?
  shortTerm : b.statisticsShortTerm[e]? = a.statisticsShortTerm[e]?
  hourly : b.statistics[e]? = a.statistics[e]?
  statisticEntities : b.statisticEntities[e]? = a.statisticEntities[e]?
  convertedUnits : b.convertedUnits[e]? = a.convertedUnits[e]?

section Stores

variable {e id : EntityId} {a b c store : Store σ}

lemma SameAt.refl (e : EntityId) (a : Store σ) : SameAt e a a := ⟨rfl, rfl, rfl, rfl, rfl⟩

lemma SameAt.trans (hab : SameAt e a b) (hbc : SameAt e b c) : SameAt e a c :=
  ⟨hbc.stateHistory.trans hab.stateHistory, hbc.shortTerm.trans hab.shortTerm,
    hbc.hourly.trans hab.hourly, hbc.statisticEntities.trans hab.statisticEntities,
    hbc.convertedUnits.trans hab.convertedUnits⟩

lemma SameAt.symm (hab : SameAt e a b) : SameAt e b a :=
  ⟨hab.stateHistory.symm, hab.shortTerm.symm, hab.hourly.symm, hab.statisticEntities.symm,
    hab.convertedUnits.symm⟩

lemma Absent.sameAt (h : Absent e a) (hab : SameAt e a b) : Absent e b :=
  ⟨hab.stateHistory.trans h.stateHistory, hab.shortTerm.trans h.shortTerm,
    hab.hourly.trans h.hourly, hab.statisticEntities.trans h.statisticEntities,
    hab.convertedUnits.trans h.convertedUnits⟩

lemma absent_iff : Absent e store ↔ Unrecorded e store ∧ store.convertedUnits[e]? = none :=
  ⟨fun h => ⟨⟨h.stateHistory, h.shortTerm, h.hourly, h.statisticEntities⟩, h.convertedUnits⟩,
    fun h => ⟨h.1.stateHistory, h.1.shortTerm, h.1.hourly, h.1.statisticEntities, h.2⟩⟩

lemma get_insert_other {β : Type} {m : Map EntityId β} (hne : id ≠ e) (v : β) :
    (m.insert id v)[e]? = m[e]? := by
  rw [Map.get_insert, if_neg hne]

lemma append_sameAt {state : Core.EntityState σ} (hne : state.entityId ≠ e) :
    SameAt e store (store.append state) := by
  unfold Store.append
  split
  · exact .refl e store
  · exact ⟨get_insert_other hne _, rfl, rfl, rfl, rfl⟩

lemma noteClass_sameAt (hne : id ≠ e) (kind : StateClass) (now : Int) :
    SameAt e store (store.noteClass id kind now) := by
  unfold Store.noteClass
  split
  · exact .refl e store
  · exact ⟨rfl, rfl, rfl, get_insert_other hne _, rfl⟩

lemma insertShortTerm_sameAt (hne : id ≠ e) (start : Int) (stat : Option Stat) :
    SameAt e store (store.insertShortTerm id start stat) := by
  cases stat with
  | none => exact .refl e store
  | some stat => exact ⟨rfl, get_insert_other hne _, rfl, rfl, rfl⟩

lemma finishHour_sameAt (hne : id ≠ e) (stop : Int) :
    SameAt e store (store.finishHour id stop) := by
  unfold Store.finishHour
  split
  · unfold Store.insertHourly
    split
    · exact .refl e store
    · exact ⟨rfl, rfl, get_insert_other hne _, rfl, rfl⟩
  · exact .refl e store

lemma compilePeriods_sameAt (hne : id ≠ e) (kind : StateClass) (count : ℕ) (cursor : Int)
    (carried : Option ℚ) (samples : List Sample) :
    SameAt e store (compilePeriods id kind count cursor carried samples store) := by
  induction count generalizing cursor carried samples store with
  | zero => exact .refl e store
  | succ count ih =>
    rw [compilePeriods]
    exact ((insertShortTerm_sameAt hne _ _).trans (finishHour_sameAt hne _)).trans (ih _ _ _)

lemma setTracked_sameAt (hne : id ≠ e) (tracked : Tracked) :
    SameAt e store { store with
      statisticEntities := store.statisticEntities.insert id tracked } :=
  ⟨rfl, rfl, rfl, get_insert_other hne _, rfl⟩

lemma compileEntity_sameAt (numbers : Numbers σ) (hne : id ≠ e) (tracked : Tracked)
    (budget : ℕ) (now : Int) :
    SameAt e store (compileEntity numbers store id tracked budget now).1 := by
  unfold compileEntity
  dsimp only
  split
  · exact .refl e store
  · exact (compilePeriods_sameAt hne tracked.kind _ _ _ _).trans (setTracked_sameAt hne _)

lemma compileAll_sameAt (numbers : Numbers σ) (now : Int) (fails : EntityId → Bool)
    {entries : List (EntityId × Tracked)} (hne : ∀ entry ∈ entries, entry.1 ≠ e) (left : ℕ) :
    SameAt e store (compileAll numbers now fails entries left store).1 := by
  induction entries generalizing left store with
  | nil => exact .refl e store
  | cons entry entries ih =>
    rw [compileAll]
    split
    · exact .refl e store
    · split
      · exact .refl e store
      · exact (compileEntity_sameAt numbers (hne entry List.mem_cons_self) entry.2 left now).trans
          (ih (fun entry' hentry' => hne entry' (List.mem_cons_of_mem _ hentry')) _)

lemma compile_sameAt (numbers : Numbers σ) (h : store.statisticEntities[e]? = none) (budget : ℕ)
    (only : Option EntityId) (now : Int) (fails : EntityId → Bool) :
    SameAt e store (compile numbers store budget only now fails).1 := by
  refine compileAll_sameAt numbers now fails (fun entry hentry heq => ?_) budget
  have hmem := Std.ExtTreeMap.mem_toList_iff_getElem?_eq_some.mp (List.mem_of_mem_filter hentry)
  rw [heq, h] at hmem
  cases hmem

lemma pruneBefore_absent (h : Absent e store) (cutoff : Int) (summaryCutoff : Option Int) :
    Absent e (store.pruneBefore cutoff summaryCutoff) := by
  refine ⟨?_, ?_, ?_, h.statisticEntities, h.convertedUnits⟩
  · simp [Store.pruneBefore, h.stateHistory]
  · simp [Store.pruneBefore, h.shortTerm]
  · unfold Store.pruneBefore
    dsimp only
    split
    · exact h.hourly
    · simp [h.hourly]

lemma prune_absent (h : Absent e store) (retention : Retention) (clock : Timestamp) :
    Absent e (store.prune retention clock) := by
  unfold Store.prune
  split
  · exact h
  · exact pruneBefore_absent h _ _

lemma convertOnce_sameAt (numbers : Numbers σ) (hne : id ≠ e) (unit : String)
    (scale offset : ℚ) (before : Int) :
    SameAt e store (store.convertOnce numbers id unit scale offset before) := by
  unfold Store.convertOnce
  split
  · exact .refl e store
  · refine ⟨?_, ?_, ?_, rfl, get_insert_other hne _⟩ <;>
      simp [Std.ExtTreeMap.getElem?_alter, hne]

lemma foldl_sameAt {β : Type} {f : Store σ → β → Store σ} {xs : List β}
    (hf : ∀ x ∈ xs, ∀ store, SameAt e store (f store x)) : SameAt e store (xs.foldl f store) := by
  induction xs generalizing store with
  | nil => exact .refl e store
  | cons x xs ih =>
    exact (hf x List.mem_cons_self store).trans
      (ih fun y hy => hf y (List.mem_cons_of_mem _ hy))

lemma insertMany_sameAt {changes : List (Change σ)}
    (hne : ∀ change ∈ changes, change.state.entityId ≠ e) (clock : Timestamp) :
    SameAt e store (insertMany store changes clock) := by
  unfold insertMany
  dsimp only
  have hrows : SameAt e store
      (changes.foldl (fun store change => store.append change.state) store) :=
    foldl_sameAt fun change hchange store => append_sameAt (hne change hchange)
  split
  · exact hrows
  · refine hrows.trans (foldl_sameAt fun change hchange store => ?_)
    split
    · exact noteClass_sameAt (hne change hchange) _ _
    · exact .refl e store

end Stores

inductive Deed (σ : Type)
  | job (job : Job σ) (luck : Luck)
  | write (luck : Luck)
  | compile (budget : ℕ) (only : Option EntityId) (luck : Luck)
  | prune (luck : Luck)

def done (numbers : Numbers σ) (writer : Writer σ) : Deed σ → Writer σ
  | .job job luck => (writer.apply numbers luck job).1
  | .write luck => writer.writeBatch luck
  | .compile budget only luck => writer.noteCompile numbers budget only luck
  | .prune luck => writer.notePrune luck

def allDone (numbers : Numbers σ) (writer : Writer σ) (doings : List (Deed σ)) : Writer σ :=
  doings.foldl (done numbers) writer

structure Gone (e : EntityId) (writer : Writer σ) : Prop where
  absent : Absent e writer.store
  batch : ∀ change ∈ writer.batch, change.state.entityId ≠ e

def Forgets (e : EntityId) : Job σ → Prop
  | .forget id => id = e
  | .forgetMissing live => e ∉ live
  | _ => False

def Accepts (e : EntityId) : Deed σ → Prop
  | .job (.append change) _ => change.state.entityId = e
  | .job (.notice id _) _ => id = e
  | _ => False

/-- The readings of the entity are converted, and that goes through. -/
def Converts (e : EntityId) : Deed σ → Prop
  | .job (.convert id _ _ _ before) luck => id = e ∧ luck.commits = true ∧ nanos before ≠ none
  | _ => False

section Doings

variable {e : EntityId} {numbers : Numbers σ} {writer : Writer σ}

lemma writeBatch_cases (writer : Writer σ) (luck : Luck) :
    (writer.writeBatch luck).batch = writer.batch ∧
        (writer.writeBatch luck).store = writer.store ∨
      (writer.writeBatch luck).batch = [] ∧
        (writer.writeBatch luck).store = insertMany writer.store writer.batch luck.clock := by
  unfold Writer.writeBatch
  split
  · exact Or.inl ⟨rfl, rfl⟩
  · split
    · exact Or.inr ⟨rfl, rfl⟩
    · exact Or.inl ⟨rfl, rfl⟩

lemma writeBatch_sameAt (hbatch : ∀ change ∈ writer.batch, change.state.entityId ≠ e)
    (luck : Luck) : SameAt e writer.store (writer.writeBatch luck).store ∧
      ∀ change ∈ (writer.writeBatch luck).batch, change.state.entityId ≠ e := by
  rcases writeBatch_cases writer luck with ⟨hb, hs⟩ | ⟨hb, hs⟩
  · rw [hb, hs]
    exact ⟨.refl e _, hbatch⟩
  · rw [hb, hs]
    exact ⟨insertMany_sameAt hbatch luck.clock, by simp⟩

lemma Gone.writeBatch (h : Gone e writer) (luck : Luck) : Gone e (writer.writeBatch luck) := by
  obtain ⟨hsame, hbatch⟩ := writeBatch_sameAt h.batch luck
  exact ⟨h.absent.sameAt hsame, hbatch⟩

lemma Gone.noteCompile (h : Gone e writer) (budget : ℕ) (only : Option EntityId) (luck : Luck) :
    Gone e (writer.noteCompile numbers budget only luck) := by
  unfold Writer.noteCompile
  split
  · exact h
  · exact ⟨h.absent.sameAt (compile_sameAt numbers h.absent.statisticEntities _ _ _ _), h.batch⟩

lemma Gone.notePrune (h : Gone e writer) (luck : Luck) : Gone e (writer.notePrune luck) := by
  unfold Writer.notePrune
  split
  · exact ⟨prune_absent h.absent _ _, h.batch⟩
  · exact ⟨h.absent, h.batch⟩

lemma deleteEntity_absent {store : Store σ} (h : Absent e store) (id : EntityId)
    (table : Store.Table) : Absent e (store.deleteEntity id table) := by
  have herase : ∀ {β : Type} {m : Map EntityId β}, m[e]? = none → (m.erase id)[e]? = none := by
    intro β m hm
    rw [Map.get_erase]
    split
    · rfl
    · exact hm
  cases table with
  | stateHistory => exact { h with stateHistory := herase h.stateHistory }
  | shortTerm => exact { h with shortTerm := herase h.shortTerm }
  | hourly => exact { h with hourly := herase h.hourly }
  | statisticEntities => exact { h with statisticEntities := herase h.statisticEntities }
  | convertedUnits => exact { h with convertedUnits := herase h.convertedUnits }

lemma get_filter_live {β : Type} (m : Map EntityId β) (live : List EntityId) :
    (m.filter fun id _ => live.contains id)[e]? = if e ∈ live then m[e]? else none := by
  rw [Std.ExtTreeMap.getElem?_filter']
  by_cases he : e ∈ live
  · cases hm : m[e]? <;> simp [he]
  · simp [he]

lemma deleteMissing_absent {store : Store σ} (h : Absent e store) (live : List EntityId)
    (table : Store.Table) : Absent e (store.deleteMissing live table) := by
  have hfilter : ∀ {β : Type} {m : Map EntityId β}, m[e]? = none →
      (m.filter fun id _ => live.contains id)[e]? = none := by
    intro β m hm
    rw [get_filter_live, hm, ite_self]
  cases table with
  | stateHistory => exact { h with stateHistory := hfilter h.stateHistory }
  | shortTerm => exact { h with shortTerm := hfilter h.shortTerm }
  | hourly => exact { h with hourly := hfilter h.hourly }
  | statisticEntities => exact { h with statisticEntities := hfilter h.statisticEntities }
  | convertedUnits => exact { h with convertedUnits := hfilter h.convertedUnits }

lemma foldl_absent {β : Type} {f : Store σ → β → Store σ} (xs : List β) {store : Store σ}
    (h : Absent e store) (hf : ∀ x store, Absent e store → Absent e (f store x)) :
    Absent e (xs.foldl f store) := by
  induction xs generalizing store with
  | nil => exact h
  | cons x xs ih => exact ih (hf x store h)

lemma forget_absent {store : Store σ} (h : Absent e store) (id : EntityId) (deletes : ℕ) :
    Absent e (store.forget id deletes) :=
  foldl_absent _ h fun table _ h => deleteEntity_absent h id table

lemma forgetMissing_absent {store : Store σ} (h : Absent e store) (live : List EntityId)
    (deletes : ℕ) : Absent e (store.forgetMissing live deletes) := by
  unfold Store.forgetMissing
  dsimp only
  split
  · exact foldl_absent _ h fun table _ h => deleteMissing_absent h live table
  · split
    · exact h
    · exact foldl_absent _ h fun table _ h => deleteMissing_absent h live table

lemma Gone.done (h : Gone e writer) {doing : Deed σ} (hquiet : ¬ Accepts e doing)
    (hconvert : ¬ Converts e doing) : Gone e (done numbers writer doing) := by
  cases doing with
  | write luck => exact h.writeBatch luck
  | compile budget only luck => exact h.noteCompile budget only luck
  | prune luck => exact h.notePrune luck
  | job job luck =>
    cases job with
    | append change =>
      refine ⟨h.absent, fun other hother => ?_⟩
      rcases List.mem_append.1 hother with hother | hother
      · exact h.batch other hother
      · rw [List.mem_singleton.1 hother]
        exact hquiet
    | notice id kind =>
      unfold Proofs.done Writer.apply
      dsimp only
      split
      · exact h
      · split
        · exact ⟨h.absent.sameAt (noteClass_sameAt hquiet _ _), h.batch⟩
        · exact ⟨h.absent, h.batch⟩
    | forget id =>
      have hkept : Gone e { writer with
          batch := writer.batch.filter fun change => change.state.entityId != id } :=
        ⟨h.absent, fun change hchange => h.batch change (List.mem_of_mem_filter hchange)⟩
      have hwritten := hkept.writeBatch luck
      exact ⟨forget_absent hwritten.absent id _, hwritten.batch⟩
    | forgetMissing live =>
      have hkept : Gone e { writer with
          batch := writer.batch.filter fun change => live.contains change.state.entityId } :=
        ⟨h.absent, fun change hchange => h.batch change (List.mem_of_mem_filter hchange)⟩
      have hwritten := hkept.writeBatch luck
      exact ⟨forgetMissing_absent hwritten.absent live _, hwritten.batch⟩
    | convert id unit scale offset before =>
      have hwritten := h.writeBatch luck
      unfold Proofs.done Writer.apply
      dsimp only
      split
      · exact ⟨hwritten.absent, hwritten.batch⟩
      · next before' hbefore =>
        split
        · next hcommits =>
          have hne : id ≠ e := fun heq => hconvert ⟨heq, hcommits, by rw [hbefore]; simp⟩
          exact ⟨hwritten.absent.sameAt (convertOnce_sameAt numbers hne _ _ _ _),
            hwritten.batch⟩
        · exact ⟨hwritten.absent, hwritten.batch⟩
    | query id since => exact h.writeBatch luck
    | summaries id since =>
      show Gone e ((writer.writeBatch luck).noteCompile numbers summaryBudget (some id) luck)
      exact (h.writeBatch luck).noteCompile _ _ luck
    | configure retention =>
      have hkept : Gone e { writer with retention } := ⟨h.absent, h.batch⟩
      exact ((hkept.writeBatch luck).noteCompile _ _ luck).notePrune luck
    | check => exact h

/-- What a job that makes entities forgotten is to leave: nothing of the entity, from then on, and
of every other the same as a write of the batch alone leaves. -/
structure Forgotten (numbers : Numbers σ) (writer : Writer σ) (luck : Luck) (job : Job σ)
    (e : EntityId) (doings : List (Deed σ)) : Prop where
  gone : ∀ before after, doings = before ++ after →
    Gone e (allDone numbers (writer.apply numbers luck job).1 before)
  spared : ∀ f, ¬ Forgets f job →
    SameAt f (writer.writeBatch luck).store (writer.apply numbers luck job).1.store ∧
      (writer.apply numbers luck job).1.batch.filter (·.state.entityId == f) =
        (writer.writeBatch luck).batch.filter (·.state.entityId == f)

lemma append_congr {f : EntityId} {a b : Store σ} (h : SameAt f a b)
    (state : Core.EntityState σ) : SameAt f (a.append state) (b.append state) := by
  by_cases hid : state.entityId = f
  · subst hid
    unfold Store.append
    split
    · exact h
    · exact { h with
        stateHistory := by
          simp [Store.rows, h.stateHistory] }
  · exact ((append_sameAt hid).symm.trans h).trans (append_sameAt hid)

lemma noteClass_congr {f : EntityId} {a b : Store σ} (h : SameAt f a b) (id : EntityId)
    (kind : StateClass) (now : Int) :
    SameAt f (a.noteClass id kind now) (b.noteClass id kind now) := by
  by_cases hid : id = f
  · subst hid
    have hcontains : b.statisticEntities.contains id = a.statisticEntities.contains id := by
      rw [Std.ExtTreeMap.contains_eq_isSome_getElem?, h.statisticEntities,
        ← Std.ExtTreeMap.contains_eq_isSome_getElem?]
    have hrows : b.rows id = a.rows id := by
      unfold Store.rows
      rw [h.stateHistory]
    unfold Store.noteClass
    rw [hcontains, hrows]
    split
    · exact h
    · exact { h with
        statisticEntities := by simp }
  · exact ((noteClass_sameAt hid kind now).symm.trans h).trans (noteClass_sameAt hid kind now)

lemma foldl_filter {f : EntityId} {β : Type} {step : Store σ → β → Store σ} {p : β → Bool}
    (hstep : ∀ x a b, SameAt f a b → SameAt f (step a x) (step b x))
    (hskip : ∀ x, p x = false → ∀ a, SameAt f a (step a x)) (xs : List β) {a b : Store σ}
    (h : SameAt f a b) : SameAt f (xs.foldl step a) ((xs.filter p).foldl step b) := by
  induction xs generalizing a b with
  | nil => exact h
  | cons x xs ih =>
    rw [List.foldl_cons]
    cases hx : p x with
    | true =>
      rw [List.filter_cons_of_pos hx, List.foldl_cons]
      exact ih (hstep x a b h)
    | false =>
      rw [List.filter_cons_of_neg (by simp [hx])]
      exact ih ((hskip x hx a).symm.trans h)

lemma insertMany_filter {f : EntityId} {p : EntityId → Bool} (hp : p f = true)
    (store : Store σ) (changes : List (Change σ)) (clock : Timestamp) :
    SameAt f (insertMany store changes clock)
      (insertMany store (changes.filter fun change => p change.state.entityId) clock) := by
  have hother : ∀ change : Change σ, p change.state.entityId = false →
      change.state.entityId ≠ f := by
    intro change hchange heq
    rw [heq, hp] at hchange
    cases hchange
  have hrows : SameAt f (changes.foldl (fun store change => store.append change.state) store)
      ((changes.filter fun change => p change.state.entityId).foldl
        (fun store change => store.append change.state) store) :=
    foldl_filter (fun change a b h => append_congr h change.state)
      (fun change hchange a => append_sameAt (hother change hchange)) changes (.refl f store)
  unfold insertMany
  dsimp only
  split
  · exact hrows
  · refine foldl_filter (fun change a b h => ?_) (fun change hchange a => ?_) changes hrows
    · split
      · exact noteClass_congr h _ _ _
      · exact h
    · split
      · exact noteClass_sameAt (hother change hchange) _ _
      · exact .refl f a

lemma writeBatch_filter {f : EntityId} {p : EntityId → Bool} (hp : p f = true) (luck : Luck) :
    let kept := { writer with
      batch := writer.batch.filter fun change => p change.state.entityId }
    SameAt f (writer.writeBatch luck).store (kept.writeBatch luck).store ∧
      (kept.writeBatch luck).batch.filter (·.state.entityId == f) =
        (writer.writeBatch luck).batch.filter (·.state.entityId == f) := by
  have hfilter : (writer.batch.filter fun change => p change.state.entityId).filter
      (·.state.entityId == f) = writer.batch.filter (·.state.entityId == f) := by
    rw [List.filter_filter]
    refine List.filter_congr fun change _ => ?_
    by_cases hid : change.state.entityId = f
    · simp [hid, hp]
    · simp [hid]
  have hinsert := insertMany_filter hp writer.store writer.batch luck.clock
  dsimp only
  by_cases hempty : writer.batch.isEmpty
  · have hnil : writer.batch = [] := List.isEmpty_iff.1 hempty
    simp [Writer.writeBatch, hnil, SameAt.refl]
  · by_cases hwrites : luck.writes
    · by_cases hkept : (writer.batch.filter fun change => p change.state.entityId).isEmpty
      · rw [List.isEmpty_iff] at hkept
        rw [hkept] at hinsert
        have hnone : insertMany writer.store ([] : List (Change σ)) luck.clock = writer.store := by
          unfold insertMany
          dsimp only [List.foldl_nil]
          split <;> rfl
        rw [hnone] at hinsert
        simpa [Writer.writeBatch, hempty, hwrites, hkept] using hinsert
      · simpa [Writer.writeBatch, hempty, hwrites, hkept] using hinsert
    · simp only [Writer.writeBatch, hempty, hwrites, Bool.false_eq_true, if_false]
      split
      · exact ⟨.refl f _, hfilter⟩
      · exact ⟨.refl f _, hfilter⟩

lemma forget_all (store : Store σ) (id : EntityId) {deletes : ℕ} (h : 5 ≤ deletes) :
    Absent id (store.forget id deletes) ∧
      ∀ f, id ≠ f → SameAt f store (store.forget id deletes) := by
  unfold Store.forget
  rw [List.take_of_length_le (by simpa using h)]
  simp only [List.foldl_cons, List.foldl_nil, Store.deleteEntity]
  constructor
  · constructor <;> simp
  · intro f hne
    constructor <;> simp [Map.get_erase, hne]

lemma forgetMissing_all (store : Store σ) (live : List EntityId) {deletes : ℕ}
    (h : 4 ≤ deletes) :
    (∀ e, e ∉ live → Unrecorded e (store.forgetMissing live deletes)) ∧
      (∀ f, f ∈ live → SameAt f store (store.forgetMissing live deletes)) ∧
      (store.forgetMissing live deletes).convertedUnits = store.convertedUnits := by
  have hall : store.forgetMissing live deletes =
      ([.stateHistory, .shortTerm, .hourly, .statisticEntities] : List Store.Table).foldl
        (fun store table => store.deleteMissing live table) store := by
    unfold Store.forgetMissing
    dsimp only
    split
    · rw [List.take_of_length_le (by simpa using h)]
    · rw [if_neg (by simpa using h)]
  rw [hall]
  simp only [List.foldl_cons, List.foldl_nil, Store.deleteMissing]
  refine ⟨fun e he => ?_, fun f hf => ?_, trivial⟩
  · constructor <;> simp only [get_filter_live, if_neg he]
  · constructor <;> simp only [get_filter_live, if_pos hf]

lemma insertMany_convertedUnits (store : Store σ) (changes : List (Change σ))
    (clock : Timestamp) :
    (insertMany store changes clock).convertedUnits = store.convertedUnits := by
  have hfold : ∀ {β : Type} (step : Store σ → β → Store σ),
      (∀ a x, (step a x).convertedUnits = a.convertedUnits) → ∀ (xs : List β) (a : Store σ),
      (xs.foldl step a).convertedUnits = a.convertedUnits := by
    intro β step hstep xs
    induction xs with
    | nil => exact fun _ => rfl
    | cons x xs ih => exact fun a => (ih _).trans (hstep a x)
  have happend : ∀ (a : Store σ) (change : Change σ),
      (a.append change.state).convertedUnits = a.convertedUnits := by
    intro a change
    unfold Store.append
    split <;> rfl
  unfold insertMany
  dsimp only
  split
  · exact hfold _ happend _ _
  · refine (hfold _ (fun a change => ?_) _ _).trans (hfold _ happend _ _)
    split
    · unfold Store.noteClass
      split <;> rfl
    · rfl

lemma writeBatch_convertedUnits (luck : Luck) :
    (writer.writeBatch luck).store.convertedUnits = writer.store.convertedUnits := by
  rcases writeBatch_cases writer luck with ⟨-, hs⟩ | ⟨-, hs⟩
  · rw [hs]
  · rw [hs, insertMany_convertedUnits]

lemma Converts.marks {doing : Deed σ} (h : Converts e doing) :
    (Proofs.done numbers writer doing).store.convertedUnits[e]? ≠ none := by
  cases doing with
  | job job luck =>
    cases job with
    | convert id unit scale offset before =>
      obtain ⟨rfl, hcommits, hbefore⟩ := h
      obtain ⟨before', hbefore'⟩ := Option.ne_none_iff_exists'.1 hbefore
      simp only [Proofs.done, Writer.apply, hbefore', hcommits, if_true, Writer.noteWrite]
      unfold Store.convertOnce
      split
      · next hcontains =>
        rw [Std.ExtTreeMap.contains_eq_isSome_getElem?] at hcontains
        intro hnone
        rw [hnone] at hcontains
        cases hcontains
      · simp
    | _ => exact h.elim
  | _ => exact h.elim

lemma gone_apply {job : Job σ} {luck : Luck} (hjob : Forgets e job)
    (hok : (writer.apply numbers luck job).2 = true) :
    Gone e (writer.apply numbers luck job).1 ↔
      job = .forget e ∨ writer.store.convertedUnits[e]? = none := by
  cases job with
  | forget id =>
    obtain rfl : id = e := hjob
    have hdeletes : 5 ≤ luck.deletes := of_decide_eq_true hok
    have hbatch := writeBatch_sameAt (fun change
      (hchange : change ∈ { writer with
        batch := writer.batch.filter fun change => change.state.entityId != id }.batch) => by
      simpa using (List.mem_filter.1 hchange).2) luck
    exact ⟨fun _ => Or.inl rfl, fun _ => ⟨(forget_all _ id hdeletes).1, hbatch.2⟩⟩
  | forgetMissing live =>
    have hdeletes : 4 ≤ luck.deletes := of_decide_eq_true hok
    have hbatch := writeBatch_sameAt (e := e) (fun change
      (hchange : change ∈ { writer with
        batch := writer.batch.filter fun change =>
          live.contains change.state.entityId }.batch) heq => by
      have hlive := (List.mem_filter.1 hchange).2
      rw [heq] at hlive
      exact hjob (by simpa using hlive)) luck
    obtain ⟨hunrecorded, -, hconverted⟩ := forgetMissing_all
      ({ writer with
        batch := writer.batch.filter fun change =>
          live.contains change.state.entityId }.writeBatch luck).store live hdeletes
    have hmark : ((writer.apply numbers luck (.forgetMissing live)).1.store.convertedUnits[e]? =
        writer.store.convertedUnits[e]?) := by
      refine (congrArg (fun m : Map EntityId String => m[e]?) hconverted).trans ?_
      rw [writeBatch_convertedUnits]
    constructor
    · exact fun hgone => Or.inr (hmark.symm.trans hgone.absent.convertedUnits)
    · rintro (heq | hnone)
      · cases heq
      · exact ⟨absent_iff.2 ⟨hunrecorded e hjob, hmark.trans hnone⟩, hbatch.2⟩
  | _ => exact hjob.elim

lemma spared_apply {job : Job σ} {luck : Luck} (hjob : Forgets e job)
    (hok : (writer.apply numbers luck job).2 = true) {f : EntityId} (hf : ¬ Forgets f job) :
    SameAt f (writer.writeBatch luck).store (writer.apply numbers luck job).1.store ∧
      (writer.apply numbers luck job).1.batch.filter (·.state.entityId == f) =
        (writer.writeBatch luck).batch.filter (·.state.entityId == f) := by
  cases job with
  | forget id =>
    have hdeletes : 5 ≤ luck.deletes := of_decide_eq_true hok
    obtain ⟨hstore, hbatch⟩ := @writeBatch_filter σ writer f (fun other => other != id)
      (by simpa using Ne.symm hf) luck
    exact ⟨hstore.trans ((forget_all _ id hdeletes).2 f hf), hbatch⟩
  | forgetMissing live =>
    have hdeletes : 4 ≤ luck.deletes := of_decide_eq_true hok
    have hlive : f ∈ live := not_not.1 hf
    obtain ⟨hstore, hbatch⟩ := @writeBatch_filter σ writer f (fun other => live.contains other)
      (by simpa using hlive) luck
    exact ⟨hstore.trans ((forgetMissing_all _ live hdeletes).2.1 f hlive), hbatch⟩
  | _ => exact hjob.elim

lemma Gone.allDone {doings : List (Deed σ)} (h : Gone e writer)
    (hquiet : ∀ doing ∈ doings, ¬ Accepts e doing)
    (hconvert : ∀ doing ∈ doings, ¬ Converts e doing) :
    Gone e (allDone numbers writer doings) := by
  induction doings generalizing writer with
  | nil => exact h
  | cons doing doings ih =>
    have hnext : Gone e (Proofs.done numbers writer doing) :=
      h.done (hquiet doing List.mem_cons_self) (hconvert doing List.mem_cons_self)
    exact ih hnext (fun d hd => hquiet d (List.mem_cons_of_mem _ hd))
      fun d hd => hconvert d (List.mem_cons_of_mem _ hd)

end Doings

def cellar : EntityId := ⟨"sensor.cellar", by decide⟩

def fine : Luck := ⟨0, true, 5, true, fun _ => false⟩

def noNumbers : Numbers Unit := ⟨fun _ => none, fun _ _ _ => none⟩

def opened : Writer Unit := ⟨.empty, [], true, ⟨10, none, by decide, by simp⟩⟩

end Irori.Proofs
