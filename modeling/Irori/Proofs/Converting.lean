import Irori.Proofs.Rows
import Irori.Recorder.History

/-!
# Converted once

What is stored of an entity whose readings are converted: changes and summaries in °C, each as it was
told or converted once, over what is told, removals, restarts and writes that fail.
-/

namespace Irori.Proofs
open Irori Recorder

variable {σ : Type}

/-! ### What is in °C -/

def convertedState (numbers : Numbers σ) (c : Conversion) (state : Core.EntityState σ) :
    Core.EntityState σ :=
  match state.state.bind (numbers.scaled c.linear.1 c.linear.2) with
  | some value => { state with state := some value }
  | none => state

/-- A report that was converted before it was told. -/
def Native (reports : List (Core.EntityState σ)) (state : Core.EntityState σ) : Prop :=
  state ∈ reports ∧ (speaks state).isSome = true

/-- A report that wasn't. -/
def AsTold (reports : List (Core.EntityState σ)) (state : Core.EntityState σ) : Prop :=
  state ∈ reports ∧ speaks state = none

/-- In °C: a converted report as it was told, or another one, converted once. -/
def Celsius (numbers : Numbers σ) (c : Conversion) (reports : List (Core.EntityState σ))
    (state : Core.EntityState σ) : Prop :=
  Native reports state ∨
    ∃ old : Core.EntityState σ, AsTold reports old ∧ state = convertedState numbers c old

/-- A summary of unconverted readings, converted once. -/
def Shifted (numbers : Numbers σ) (c : Conversion) (raw : Core.EntityState σ → Prop)
    (stat : Stat) : Prop :=
  ∃ old : Stat, Made (NumberIn numbers raw) (fun _ => False) old ∧
    stat = Store.convertStat c.linear.1 c.linear.2 old

def AllCelsius (numbers : Numbers σ) (c : Conversion) (e : EntityId)
    (reports : List (Core.EntityState σ)) (store : Store σ) : Prop :=
  StoredAs numbers (Celsius numbers c reports) (Shifted numbers c (AsTold reports)) e store

def reportOf (e : EntityId) : HistoryEvent σ → Option (Core.EntityState σ)
  | .told (.stateChanged state _ _) => if state.entityId = e then some state else none
  | _ => none

/-- From when a converted report of an entity is stored on, all that is stored of it is in °C. -/
def ConvertedOnce (numbers : Numbers σ) (c : Conversion) (e : EntityId) (retention : Retention)
    (events : List (HistoryEvent σ)) : Prop :=
  ∀ earlier later : List (HistoryEvent σ), events = earlier ++ later →
    (∃ row ∈ (((History.start retention).afterAll numbers earlier).diary.writer.store.rows e).list,
      (speaks row.2).isSome = true) →
    AllCelsius numbers c e (events.filterMap (reportOf e))
      ((History.start retention).afterAll numbers events).diary.writer.store

/-! ### Runs of an entity that is converted -/

/-- The device of the entity speaks one unit, which is converted one way, and it is no button. -/
def SpeaksOne (e : EntityId) (c : Conversion) : HistoryEvent σ → Prop
  | .told (.stateChanged state deviceClass _) => state.entityId = e →
      ∀ conversion ∈ conversionOf deviceClass state, conversion = c
  | .told (.pressed state) => state.entityId ≠ e
  | _ => True

/-- Whether an entity will be marked as converted once the jobs that wait are applied. -/
def marking (e : EntityId) : Bool → List (Job σ) → Bool
  | marked, [] => marked
  | marked, .convert id _ _ _ _ :: jobs => marking e (marked || id = e) jobs
  | marked, .forget id :: jobs => marking e (marked && id ≠ e) jobs
  | marked, _ :: jobs => marking e marked jobs

def StoredBefore (e : EntityId) (before : Int) (store : Store σ) : Prop :=
  (∀ row ∈ (store.rows e).list, row.1 < before) ∧
    (∀ entry ∈ (store.shortTerm e).toList, entry.1 < before) ∧
    ∀ entry ∈ (store.hourly e).toList, entry.1 < before

/-- The first conversion of an entity goes through, and finds everything unconverted written and
from before it. -/
def GoesThrough (e : EntityId) (writer : Writer σ) (luck : Luck) : Job σ → Prop
  | .convert id _ _ _ before => id = e → writer.store.convertedUnits.contains e = false →
      luck.commits = true ∧ (writer.writeBatch luck).batch = [] ∧
        match nanos before with
        | some before => StoredBefore e before (writer.writeBatch luck).store
        | none => False
  | _ => True

def AllThrough (numbers : Numbers σ) (e : EntityId) :
    List (Job σ × Luck) → Writer σ → Prop
  | [], _ => True
  | (job, luck) :: rest, writer =>
    GoesThrough e writer luck job ∧ AllThrough numbers e rest (writer.apply numbers luck job).1

/-- A step that goes right: with a converted report the conversion is asked for, unless the entity
is marked, and stays so through what waits. A first conversion goes through. -/
def Converting (numbers : Numbers σ) (e : EntityId) (history : History σ) :
    HistoryEvent σ → Prop
  | .told (.stateChanged state deviceClass _) =>
      state.entityId = e → (speaks state).isSome = true →
        (e ∉ history.converted ∧ (conversionOf deviceClass state).isSome = true) ∨
          marking e (history.diary.writer.store.convertedUnits.contains e)
            history.diary.mailbox.jobs = true
  | .burst lucks => AllThrough numbers e
      ((history.diary.mailbox.recvBurst.1).zipIdx.map fun (job, i) => (job, lucks i))
      history.diary.writer
  | .close lucks _ => AllThrough numbers e
      (history.diary.mailbox.jobs.zipIdx.map fun (job, i) => (job, lucks i)) history.diary.writer
  | _ => True

def AllConverting (numbers : Numbers σ) (e : EntityId) (history : History σ) :
    List (HistoryEvent σ) → Prop
  | [] => True
  | event :: events => Converting numbers e history event ∧
      AllConverting numbers e (history.after numbers event) events

/-! ### The writer -/

section Writing

variable {numbers : Numbers σ} {c : Conversion} {e : EntityId}
  {reports : List (Core.EntityState σ)} {raw : Core.EntityState σ → Prop} {marked : Bool}
  {writer : Writer σ}

/-- What a stored change is, by whether its entity is marked as converted. -/
def UnitOf (numbers : Numbers σ) (c : Conversion) (reports : List (Core.EntityState σ))
    (raw : Core.EntityState σ → Prop) : Bool → Core.EntityState σ → Prop
  | true => Celsius numbers c reports
  | false => raw

def BaseOf (numbers : Numbers σ) (c : Conversion) (reports : List (Core.EntityState σ)) :
    Bool → Stat → Prop
  | true => Shifted numbers c (AsTold reports)
  | false => fun _ => False

def NewOf (reports : List (Core.EntityState σ)) (raw : Core.EntityState σ → Prop) :
    Bool → Core.EntityState σ → Prop
  | true => Native reports
  | false => raw

structure InUnit (numbers : Numbers σ) (c : Conversion) (e : EntityId)
    (reports : List (Core.EntityState σ)) (raw : Core.EntityState σ → Prop) (marked : Bool)
    (writer : Writer σ) : Prop where
  mark : writer.store.convertedUnits.contains e = marked
  stored : StoredAs numbers (UnitOf numbers c reports raw marked) (BaseOf numbers c reports marked) e
    writer.store
  batch : ∀ change ∈ writer.batch, change.state.entityId = e →
    NewOf reports raw marked change.state

/-- The jobs that wait: a converted report only where its entity is surely marked by then, and one
that isn't only where it surely isn't. -/
def Queued (c : Conversion) (e : EntityId) (reports : List (Core.EntityState σ))
    (raw : Core.EntityState σ → Prop) : (surely maybe : Bool) → List (Job σ) → Prop
  | _, _, [] => True
  | surely, maybe, .append change :: jobs =>
    (change.state.entityId = e →
      (surely = true ∧ Native reports change.state) ∨ (maybe = false ∧ raw change.state)) ∧
      Queued c e reports raw surely maybe jobs
  | surely, maybe, .convert id _ scale offset _ :: jobs =>
    (id = e → (scale, offset) = c.linear) ∧
      Queued c e reports raw (surely || id = e) (maybe || id = e) jobs
  | surely, maybe, .forget id :: jobs => Queued c e reports raw (surely && id ≠ e) maybe jobs
  | surely, maybe, _ :: jobs => Queued c e reports raw surely maybe jobs

lemma Queued.mono {surely maybe surely' maybe' : Bool} {jobs : List (Job σ)}
    (h : Queued c e reports raw surely maybe jobs) (hs : surely = true → surely' = true)
    (hm : maybe' = true → maybe = true) : Queued c e reports raw surely' maybe' jobs := by
  induction jobs generalizing surely maybe surely' maybe' with
  | nil => trivial
  | cons job jobs ih =>
    cases job with
    | append change =>
      refine ⟨fun hid => ?_, ih h.2 hs hm⟩
      rcases h.1 hid with ⟨hsurely, hnative⟩ | ⟨hmaybe, hraw⟩
      · exact .inl ⟨hs hsurely, hnative⟩
      · refine .inr ⟨Bool.eq_false_iff.mpr fun htrue => ?_, hraw⟩
        rw [hm htrue] at hmaybe
        cases hmaybe
    | convert id unit scale offset before =>
      refine ⟨h.1, ih h.2 (fun htrue => ?_) fun htrue => ?_⟩
      · rcases Bool.or_eq_true_iff.mp htrue with htrue | htrue
        · rw [hs htrue, Bool.true_or]
        · rw [htrue, Bool.or_true]
      · rcases Bool.or_eq_true_iff.mp htrue with htrue | htrue
        · rw [hm htrue, Bool.true_or]
        · rw [htrue, Bool.or_true]
    | forget id =>
      refine ih h (fun htrue => ?_) hm
      rw [Bool.and_eq_true] at htrue ⊢
      exact ⟨hs htrue.1, htrue.2⟩
    | _ => exact ih h hs hm

lemma NewOf.unitOf {state : Core.EntityState σ} (h : NewOf reports raw marked state) :
    UnitOf numbers c reports raw marked state := by
  cases marked with
  | true => exact .inl h
  | false => exact h

lemma inUnit_empty (retention : Retention) (ok : Bool) :
    InUnit numbers c e reports raw false (⟨.empty, [], ok, retention⟩ : Writer σ) :=
  ⟨by simp [Store.empty], storedAs_empty, fun change hchange => by cases hchange⟩

lemma InUnit.fewer (h : InUnit numbers c e reports raw marked writer) {store : Store σ}
    (hfewer : FewerRows e writer.store store)
    (hmark : store.convertedUnits = writer.store.convertedUnits) (ok : Bool)
    (retention : Retention) :
    InUnit numbers c e reports raw marked
      { writer with store, lastWriteOk := ok, retention } :=
  ⟨(congrArg (fun m : Map EntityId String => m.contains e) hmark).trans h.mark,
    h.stored.fewer hfewer, h.batch⟩

lemma InUnit.writeBatch (h : InUnit numbers c e reports raw marked writer) (luck : Luck) :
    InUnit numbers c e reports raw marked (writer.writeBatch luck) := by
  refine ⟨?_, ?_, ?_⟩
  · rw [writeBatch_convertedUnits]
    exact h.mark
  · rcases writeBatch_cases writer luck with ⟨-, hs⟩ | ⟨-, hs⟩
    · rw [hs]
      exact h.stored
    · rw [hs]
      exact h.stored.insertMany (fun change hchange hid => (h.batch change hchange hid).unitOf) _
  · rcases writeBatch_cases writer luck with ⟨hb, -⟩ | ⟨hb, -⟩
    · rw [hb]
      exact h.batch
    · rw [hb]
      exact fun change hchange => by cases hchange

lemma InUnit.filter (h : InUnit numbers c e reports raw marked writer) (p : Change σ → Bool) :
    InUnit numbers c e reports raw marked { writer with batch := writer.batch.filter p } :=
  ⟨h.mark, h.stored, fun change hchange => h.batch change (List.mem_of_mem_filter hchange)⟩

lemma InUnit.noteCompile (h : InUnit numbers c e reports raw marked writer) (budget : ℕ)
    (only : Option EntityId) (luck : Luck) :
    InUnit numbers c e reports raw marked (writer.noteCompile numbers budget only luck) := by
  unfold Writer.noteCompile
  split
  · exact h
  · refine ⟨?_, h.stored.compile _ _ _ _, h.batch⟩
    dsimp only
    rw [compile_convertedUnits]
    exact h.mark

lemma InUnit.notePrune (h : InUnit numbers c e reports raw marked writer) (luck : Luck) :
    InUnit numbers c e reports raw marked (writer.notePrune luck) := by
  have hmark : (writer.store.prune writer.retention luck.clock).convertedUnits =
      writer.store.convertedUnits := by
    unfold Store.prune
    split <;> rfl
  unfold Writer.notePrune
  split
  · exact h.fewer (prune_fewer _ _ _) hmark _ _
  · exact ⟨h.mark, h.stored, h.batch⟩

/-! ### Jobs -/

lemma StoredAs.convertOnce {store : Store σ}
    (h : StoredAs numbers raw (fun _ => False) e store)
    (hraw : ∀ state, raw state → AsTold reports state)
    (hmark : store.convertedUnits.contains e = false) {before : Int}
    (hbefore : StoredBefore e before store) (unit : String) :
    AllCelsius numbers c e reports
      (store.convertOnce numbers e unit c.linear.1 c.linear.2 before) := by
  have hmoved : ∀ {stat : Stat}, Made (NumberIn numbers raw) (fun _ => False) stat →
      Made (NumberIn numbers (Celsius numbers c reports)) (Shifted numbers c (AsTold reports))
        (Store.convertStat c.linear.1 c.linear.2 stat) := by
    intro stat hstat
    refine .base ⟨stat, hstat.mono (fun v hv => ?_) (fun _ hfalse => hfalse), rfl⟩
    obtain ⟨state, hstate, hnumber⟩ := hv
    exact ⟨state, hraw state hstate, hnumber⟩
  have hsummaries : ∀ {m : Map EntityId Summaries} {start : Int} {stat : Stat},
      (∀ entry ∈ ((m[e]?).getD ∅).toList, entry.1 < before) →
      (∀ (start : Int) (stat : Stat), ((m[e]?).getD ∅)[start]? = some stat →
        Made (NumberIn numbers raw) (fun _ => False) stat) →
      (((m.alter e (Option.map fun summaries : Summaries => summaries.map fun start stat =>
        if start < before then Store.convertStat c.linear.1 c.linear.2 stat else stat))[e]?).getD
          ∅)[start]? = some stat →
      Made (NumberIn numbers (Celsius numbers c reports)) (Shifted numbers c (AsTold reports))
        stat := by
    intro m start stat hold hmade hfound
    rw [Std.ExtTreeMap.getElem?_alter_self] at hfound
    cases hm : m[e]? with
    | none => simp [hm] at hfound
    | some summaries =>
      rw [hm] at hfound hold hmade
      simp only [Option.map_some, Option.getD_some] at hfound hold hmade
      rw [Std.ExtTreeMap.getElem?_map] at hfound
      obtain ⟨old, hsome, hstat⟩ := Option.map_eq_some_iff.mp hfound
      rw [if_pos (hold (start, old) (Std.ExtTreeMap.mem_toList_iff_getElem?_eq_some.mpr hsome))]
        at hstat
      rw [← hstat]
      exact hmoved (hmade start old hsome)
  unfold Store.convertOnce
  rw [hmark, if_neg Bool.false_ne_true]
  refine ⟨fun row hrow => ?_, fun start stat hstat => ?_, fun start stat hstat => ?_⟩
  · simp only [Store.rows, Std.ExtTreeMap.getElem?_alter_self] at hrow
    cases hrows : store.stateHistory[e]? with
    | none => simp [hrows, Rows.empty] at hrow
    | some rows =>
      rw [hrows] at hrow
      obtain ⟨old, hold, rfl⟩ := List.mem_map.mp hrow
      have hmem : old ∈ (store.rows e).list := by
        rw [Store.rows, hrows]
        exact hold
      dsimp only
      rw [if_pos (hbefore.1 old hmem)]
      exact .inr ⟨old.2, hraw _ (h.rows old hmem), rfl⟩
  · exact hsummaries hbefore.2.1 h.shortTerm hstat
  · exact hsummaries hbefore.2.2 h.hourly hstat

lemma InUnit.forget (h : InUnit numbers c e reports raw marked writer) (id : EntityId)
    (luck : Luck) : InUnit numbers c e reports raw marked
        (writer.apply numbers luck (.forget id)).1 ∨
      id = e ∧ InUnit numbers c e reports raw false
        (writer.apply numbers luck (.forget id)).1 := by
  have hwritten := (h.filter fun change => change.state.entityId != id).writeBatch luck
  obtain ⟨hfewer, hmark⟩ := forget_cases (e := e)
    ({ writer with batch := writer.batch.filter fun change =>
      change.state.entityId != id }.writeBatch luck).store id luck.deletes
  rcases hmark with hmark | ⟨habsent, hothers⟩
  · exact .inl (hwritten.fewer hfewer hmark _ _)
  · by_cases hid : id = e
    · subst hid
      refine .inr ⟨rfl, ?_, .absent habsent, fun change hchange hsame => ?_⟩
      · refine (Std.ExtTreeMap.contains_eq_isSome_getElem? ..).trans ?_
        exact (congrArg Option.isSome habsent.convertedUnits)
      · -- Nothing of the entity is left in the batch.
        have hnone : ∀ change ∈ { writer with batch := writer.batch.filter fun change =>
            change.state.entityId != id }.batch, change.state.entityId ≠ id :=
          fun change hchange => by simpa using (List.mem_filter.mp hchange).2
        exact absurd hsame ((writeBatch_sameAt hnone luck).2 change hchange)
    · exact .inl ⟨(contains_congr (hothers e hid)).trans hwritten.mark,
        hwritten.stored.fewer hfewer, hwritten.batch⟩

lemma InUnit.forgetMissing (h : InUnit numbers c e reports raw marked writer)
    (live : List EntityId) (luck : Luck) : InUnit numbers c e reports raw marked
      (writer.apply numbers luck (.forgetMissing live)).1 := by
  have hwritten := (h.filter fun change => live.contains change.state.entityId).writeBatch luck
  obtain ⟨hfewer, hmark⟩ := forgetMissing_fewer (e := e)
    ({ writer with batch := writer.batch.filter fun change =>
      live.contains change.state.entityId }.writeBatch luck).store live luck.deletes
  exact hwritten.fewer hfewer hmark _ _

lemma InUnit.convert (h : InUnit numbers c e reports raw marked writer)
    (hraw : ∀ state, raw state → AsTold reports state) {id : EntityId} {unit : String}
    {scale offset : ℚ} {before : Timestamp} {luck : Luck}
    (hlinear : id = e → (scale, offset) = c.linear)
    (hthrough : GoesThrough e writer luck (.convert id unit scale offset before)) :
    InUnit numbers c e reports raw (marked || id = e)
      (writer.apply numbers luck (.convert id unit scale offset before)).1 := by
  have hwritten := h.writeBatch luck
  by_cases hid : id = e
  · subst hid
    obtain rfl : scale = c.linear.1 := congrArg Prod.fst (hlinear rfl)
    obtain rfl : offset = c.linear.2 := congrArg Prod.snd (hlinear rfl)
    cases marked with
    | true =>
      unfold Writer.apply
      dsimp only
      split
      · exact hwritten.fewer (.refl id _) rfl _ _
      · next before' _ =>
        split
        · have hsame : (writer.writeBatch luck).store.convertOnce numbers id unit c.linear.1
              c.linear.2 before' = (writer.writeBatch luck).store := by
            unfold Store.convertOnce
            rw [if_pos hwritten.mark]
          rw [hsame]
          exact hwritten.fewer (.refl id _) rfl _ _
        · exact hwritten.fewer (.refl id _) rfl _ _
    | false =>
      obtain ⟨hcommits, hbatch, hbefore⟩ := hthrough rfl h.mark
      cases hnanos : nanos before with
      | none =>
        rw [hnanos] at hbefore
        exact hbefore.elim
      | some before' =>
        rw [hnanos] at hbefore
        unfold Writer.apply
        simp only [hnanos, hcommits, if_true, Bool.false_or, decide_true]
        refine ⟨?_, hwritten.stored.convertOnce hraw hwritten.mark hbefore unit, ?_⟩
        · simp only [Writer.noteWrite, Store.convertOnce, hwritten.mark, Bool.false_eq_true,
            if_false]
          simp
        · intro change hchange
          have hchange : change ∈ (writer.writeBatch luck).batch := hchange
          rw [hbatch] at hchange
          cases hchange
  · have hmarked : (marked || decide (id = e)) = marked := by simp [hid]
    rw [hmarked]
    unfold Writer.apply
    dsimp only
    split
    · exact hwritten.fewer (.refl e _) rfl _ _
    · next before' _ =>
      have hsame : SameAt e (writer.writeBatch luck).store ((writer.writeBatch luck).store.convertOnce
          numbers id unit scale offset before') := convertOnce_sameAt numbers hid _ _ _ _
      split
      · exact ⟨(contains_congr hsame).trans hwritten.mark, hwritten.stored.fewer hsame.fewer,
          hwritten.batch⟩
      · exact hwritten.fewer (.refl e _) rfl _ _

def convertsJob (e : EntityId) : Job σ → Bool
  | .convert id _ _ _ _ => id = e
  | _ => false

lemma InUnit.apply (h : InUnit numbers c e reports raw marked writer)
    (hraw : ∀ state, raw state → AsTold reports state) {job : Job σ} {jobs : List (Job σ)}
    {luck : Luck} (hqueued : Queued c e reports raw marked marked (job :: jobs))
    (hthrough : GoesThrough e writer luck job) : ∃ marked' : Bool,
      InUnit numbers c e reports raw marked' (writer.apply numbers luck job).1 ∧
        Queued c e reports raw marked' marked' jobs ∧
          (marked' = true → marked = true ∨ convertsJob e job = true) := by
  cases job with
  | append change =>
    refine ⟨marked, ⟨h.mark, h.stored, fun other hother hid => ?_⟩, hqueued.2, .inl⟩
    rcases List.mem_append.mp hother with hother | hother
    · exact h.batch other hother hid
    · rw [List.mem_singleton.mp hother] at hid ⊢
      rcases hqueued.1 hid with ⟨rfl, hnative⟩ | ⟨rfl, hold⟩
      · exact hnative
      · exact hold
  | forget id =>
    have hqueued : Queued c e reports raw (marked && id ≠ e) marked jobs := hqueued
    rcases h.forget id luck with hkept | ⟨rfl, hgone⟩
    · refine ⟨marked, hkept, hqueued.mono (fun htrue => ?_) fun htrue => htrue, .inl⟩
      exact (Bool.and_eq_true_iff.mp htrue).1
    · refine ⟨false, hgone, hqueued.mono (fun htrue => ?_) (fun hfalse => nomatch hfalse),
        fun hfalse => nomatch hfalse⟩
      simp at htrue
  | forgetMissing live => exact ⟨marked, h.forgetMissing live luck, hqueued, .inl⟩
  | notice id kind =>
    refine ⟨marked, ?_, hqueued, .inl⟩
    unfold Writer.apply
    dsimp only
    split
    · exact h
    · split
      · refine h.fewer (noteClass_fewer id kind _) ?_ _ _
        unfold Store.noteClass
        split <;> rfl
      · exact h.fewer (.refl e _) rfl _ _
  | query id since => exact ⟨marked, h.writeBatch luck, hqueued, .inl⟩
  | summaries id since =>
    exact ⟨marked, (h.writeBatch luck).noteCompile summaryBudget (some id) luck, hqueued, .inl⟩
  | configure retention =>
    have hnext : InUnit numbers c e reports raw marked { writer with retention } :=
      ⟨h.mark, h.stored, h.batch⟩
    exact ⟨marked, ((hnext.writeBatch luck).noteCompile _ _ luck).notePrune luck, hqueued, .inl⟩
  | check => exact ⟨marked, h, hqueued, .inl⟩
  | convert id unit scale offset before =>
    exact ⟨_, h.convert hraw hqueued.1 hthrough, hqueued.2, Bool.or_eq_true_iff.mp⟩

lemma InUnit.applyAll (h : InUnit numbers c e reports raw marked writer)
    (hraw : ∀ state, raw state → AsTold reports state) (pairs : List (Job σ × Luck))
    {jobs : List (Job σ)}
    (hqueued : Queued c e reports raw marked marked (pairs.map Prod.fst ++ jobs))
    (hthrough : AllThrough numbers e pairs writer) : ∃ marked' : Bool,
      InUnit numbers c e reports raw marked' (writer.applyAll numbers pairs) ∧
        Queued c e reports raw marked' marked' jobs ∧
          (marked' = true → marked = true ∨ (pairs.map Prod.fst).any (convertsJob e) = true) := by
  induction pairs generalizing writer marked with
  | nil => exact ⟨marked, h, hqueued, .inl⟩
  | cons pair pairs ih =>
    obtain ⟨job, luck⟩ := pair
    obtain ⟨marked', hnext, hrest, hstep⟩ := h.apply hraw hqueued hthrough.1
    obtain ⟨marked'', hlast, hleft, hsteps⟩ := ih hnext hrest hthrough.2
    refine ⟨marked'', hlast, hleft, fun htrue => ?_⟩
    rw [List.map_cons, List.any_cons, Bool.or_eq_true]
    rcases hsteps htrue with hbefore | hlater
    · exact (hstep hbefore).imp_right .inl
    · exact .inr (.inr hlater)

end Writing

/-! ### What is told -/

section Telling

variable {numbers : Numbers σ} {c : Conversion} {e : EntityId}
  {reports : List (Core.EntityState σ)} {raw : Core.EntityState σ → Prop}
  {history : History σ}

def mayMark (e : EntityId) (marked : Bool) (jobs : List (Job σ)) : Bool :=
  marked || jobs.any (convertsJob e)

def OneUnit (numbers : Numbers σ) (c : Conversion) (e : EntityId)
    (reports : List (Core.EntityState σ)) (raw : Core.EntityState σ → Prop)
    (history : History σ) : Prop :=
  ∃ marked : Bool, InUnit numbers c e reports raw marked history.diary.writer ∧
    Queued c e reports raw marked marked history.diary.mailbox.jobs

/-- The entity is not marked as converted, and no job that waits marks it. -/
def Unasked (e : EntityId) (history : History σ) : Prop :=
  mayMark e (history.diary.writer.store.convertedUnits.contains e) history.diary.mailbox.jobs =
    false

lemma marking_append (marked : Bool) (jobs jobs' : List (Job σ)) :
    marking e marked (jobs ++ jobs') = marking e (marking e marked jobs) jobs' := by
  induction jobs generalizing marked with
  | nil => rfl
  | cons job jobs ih => cases job <;> exact ih _

lemma queued_append {surely maybe : Bool} {jobs jobs' : List (Job σ)} :
    Queued c e reports raw surely maybe (jobs ++ jobs') ↔
      Queued c e reports raw surely maybe jobs ∧
        Queued c e reports raw (marking e surely jobs) (mayMark e maybe jobs) jobs' := by
  induction jobs generalizing surely maybe with
  | nil => simp [Queued, marking, mayMark]
  | cons job jobs ih =>
    cases job with
    | append change =>
      simp only [List.cons_append, Queued, ih, marking, mayMark, List.any_cons, convertsJob,
        Bool.false_or, and_assoc]
    | convert id unit scale offset before =>
      simp only [List.cons_append, Queued, ih, marking, mayMark, List.any_cons, convertsJob,
        Bool.or_assoc, and_assoc]
    | _ =>
      simp only [List.cons_append, Queued, ih, marking, mayMark, List.any_cons, convertsJob,
        Bool.false_or]

lemma send_jobs (mailbox : Mailbox σ) (job : Job σ) :
    (mailbox.send job).jobs = mailbox.jobs ∧ job.isAppend = true ∨
      (mailbox.send job).jobs = mailbox.jobs ++ [job] := by
  unfold Mailbox.send
  split
  · next happend =>
    split
    · exact .inl ⟨rfl, happend⟩
    · exact .inr rfl
  · exact .inr rfl

lemma OneUnit.send (h : OneUnit numbers c e reports raw history) {job : Job σ}
    (hjob : ∀ surely maybe : Bool,
      surely = marking e (history.diary.writer.store.convertedUnits.contains e)
        history.diary.mailbox.jobs →
      maybe = mayMark e (history.diary.writer.store.convertedUnits.contains e)
        history.diary.mailbox.jobs →
      Queued c e reports raw surely maybe [job]) :
    OneUnit numbers c e reports raw (history.send job) := by
  obtain ⟨marked, hunit, hqueued⟩ := h
  refine ⟨marked, hunit, ?_⟩
  show Queued c e reports raw marked marked (history.diary.mailbox.send job).jobs
  rcases send_jobs history.diary.mailbox job with ⟨hsame, -⟩ | hsent
  · rw [hsame]
    exact hqueued
  · rw [hsent, queued_append]
    refine ⟨hqueued, hjob _ _ ?_ ?_⟩
    · rw [hunit.mark]
    · rw [hunit.mark]

lemma Unasked.send (h : Unasked e history) {job : Job σ} (hjob : convertsJob e job = false) :
    Unasked e (history.send job) := by
  show mayMark e _ (history.diary.mailbox.send job).jobs = false
  rcases send_jobs history.diary.mailbox job with ⟨hsame, -⟩ | hsent
  · rw [hsame]
    exact h
  · rw [hsent]
    unfold Unasked mayMark at h
    unfold mayMark
    rw [List.any_append, ← Bool.or_assoc]
    have hlast : [job].any (convertsJob e) = false := by simp [hjob]
    rw [hlast, Bool.or_false]
    exact h

lemma askOnce_cases (history : History σ) (state : Core.EntityState σ)
    (deviceClass : Option SensorClass) :
    history.askOnce state deviceClass = history ∧
        (state.entityId ∈ history.converted ∨ conversionOf deviceClass state = none) ∨
      ∃ conversion : Conversion, conversionOf deviceClass state = some conversion ∧
        (history.askOnce state deviceClass).diary = (history.send (.convert state.entityId
          conversion.unit.symbol conversion.linear.1 conversion.linear.2
            state.lastUpdated)).diary := by
  unfold History.askOnce
  split
  · next hconverted => exact .inl ⟨rfl, .inl (List.contains_iff_mem.mp hconverted)⟩
  · split
    · next hnone => exact .inl ⟨rfl, .inr hnone⟩
    · next conversion hsome => exact .inr ⟨conversion, hsome, rfl⟩

lemma OneUnit.congr {history' : History σ} (h : OneUnit numbers c e reports raw history)
    (hdiary : history'.diary = history.diary) : OneUnit numbers c e reports raw history' := by
  obtain ⟨marked, hunit, hqueued⟩ := h
  refine ⟨marked, ?_, ?_⟩
  · rw [hdiary]
    exact hunit
  · rw [hdiary]
    exact hqueued

lemma OneUnit.askOnce (h : OneUnit numbers c e reports raw history)
    {state : Core.EntityState σ} {deviceClass : Option SensorClass}
    (hone : state.entityId = e → ∀ conversion ∈ conversionOf deviceClass state, conversion = c) :
    OneUnit numbers c e reports raw (history.askOnce state deviceClass) := by
  rcases askOnce_cases history state deviceClass with ⟨hsame, -⟩ | ⟨conversion, hsome, hdiary⟩
  · rw [hsame]
    exact h
  · refine OneUnit.congr (h.send fun surely maybe _ _ => ?_) hdiary
    refine ⟨fun hid => ?_, trivial⟩
    rw [hone hid conversion hsome]

lemma marking_askOnce {state : Core.EntityState σ} {deviceClass : Option SensorClass}
    (h : (state.entityId ∉ history.converted ∧ (conversionOf deviceClass state).isSome = true) ∨
      marking state.entityId (history.diary.writer.store.convertedUnits.contains state.entityId)
        history.diary.mailbox.jobs = true) :
    marking state.entityId ((history.askOnce state
        deviceClass).diary.writer.store.convertedUnits.contains state.entityId)
      (history.askOnce state deviceClass).diary.mailbox.jobs = true := by
  rcases askOnce_cases history state deviceClass with ⟨hsame, hnot⟩ | ⟨conversion, hsome, hdiary⟩
  · rw [hsame]
    rcases h with ⟨hnew, hconversion⟩ | hmarking
    · rcases hnot with hconverted | hnone
      · exact absurd hconverted hnew
      · rw [hnone] at hconversion
        cases hconversion
    · exact hmarking
  · rw [hdiary]
    show marking state.entityId _ (history.diary.mailbox.send (.convert ..)).jobs = true
    rcases send_jobs history.diary.mailbox (.convert state.entityId conversion.unit.symbol
      conversion.linear.1 conversion.linear.2 state.lastUpdated) with ⟨-, hfalse⟩ | hsent
    · cases hfalse
    · rw [hsent, marking_append]
      simp [marking]

lemma OneUnit.record (h : OneUnit numbers c e reports raw history) {told : Told σ}
    (hone : SpeaksOne e c (.told told))
    (hreport : ∀ state ∈ reportOf e (.told told), Native reports state ∨
      raw state ∧ speaks state = none ∧ Unasked e history)
    (ho : Converting numbers e history (.told told)) :
    OneUnit numbers c e reports raw (history.record told) := by
  cases told with
  | stateChanged state deviceClass kind =>
    have hasked : OneUnit numbers c e reports raw (history.askOnce state deviceClass) :=
      h.askOnce hone
    refine hasked.send fun surely maybe hsurely hmaybe => ⟨fun hid => ?_, trivial⟩
    subst hid
    rcases hreport state (by simp [reportOf]) with hnative | ⟨hraw, hspeaks, hunasked⟩
    · refine .inl ⟨?_, hnative⟩
      rw [hsurely]
      exact marking_askOnce (ho rfl hnative.2)
    · have hsame : history.askOnce state deviceClass = history := by
        rcases askOnce_cases history state deviceClass with ⟨hsame, -⟩ | ⟨conversion, hsome, -⟩
        · exact hsame
        · simp [conversionOf, hspeaks] at hsome
      refine .inr ⟨?_, hraw⟩
      rw [hmaybe, hsame]
      exact hunasked
  | entityAdded id kind =>
    cases kind with
    | none => exact h
    | some kind => exact h.send fun _ _ _ _ => trivial
  | entityRemoved id => exact h.send fun _ _ _ _ => trivial
  | pressed state => exact h.send fun _ _ _ _ => ⟨fun hid => absurd hid hone, trivial⟩
  | lagged live => exact h.send fun _ _ _ _ => trivial

lemma map_zipIdx_fst (jobs : List (Job σ)) (lucks : ℕ → Luck) :
    (jobs.zipIdx.map fun (job, i) => (job, lucks i)).map Prod.fst = jobs := by
  rw [List.map_map]
  exact List.zipIdx_map_fst 0 jobs

lemma OneUnit.burst (h : OneUnit numbers c e reports raw history)
    (hraw : ∀ state, raw state → AsTold reports state) {lucks : ℕ → Luck}
    {taken rest : List (Job σ)} (hjobs : history.diary.mailbox.jobs = taken ++ rest)
    (hthrough : AllThrough numbers e (taken.zipIdx.map fun (job, i) => (job, lucks i))
      history.diary.writer) : ∃ marked : Bool,
      InUnit numbers c e reports raw marked (history.diary.writer.applyAll numbers
        (taken.zipIdx.map fun (job, i) => (job, lucks i))) ∧
      Queued c e reports raw marked marked rest ∧
        (marked = true → ¬ Unasked e history) := by
  obtain ⟨marked, hunit, hqueued⟩ := h
  rw [hjobs] at hqueued
  obtain ⟨marked', hunit', hqueued', hmarked⟩ := hunit.applyAll hraw
    (taken.zipIdx.map fun (job, i) => (job, lucks i)) (by rw [map_zipIdx_fst]; exact hqueued)
    hthrough
  refine ⟨marked', hunit', hqueued', fun htrue hunasked => ?_⟩
  rw [map_zipIdx_fst] at hmarked
  unfold Unasked mayMark at hunasked
  rw [hjobs, List.any_append, hunit.mark, Bool.or_eq_false_iff, Bool.or_eq_false_iff] at hunasked
  rcases hmarked htrue with hbefore | hany
  · rw [hbefore] at hunasked
    cases hunasked.1
  · rw [hany] at hunasked
    cases hunasked.2.1

lemma OneUnit.after (h : OneUnit numbers c e reports raw history)
    (hraw : ∀ state, raw state → AsTold reports state) {event : HistoryEvent σ}
    (hone : SpeaksOne e c event)
    (hreport : ∀ state ∈ reportOf e event, Native reports state ∨
      raw state ∧ speaks state = none ∧ Unasked e history)
    (ho : Converting numbers e history event) :
    OneUnit numbers c e reports raw (history.after numbers event) := by
  cases event with
  | told told => exact h.record hone hreport ho
  | ask ask =>
    refine h.send fun _ _ _ _ => ?_
    cases ask <;> trivial
  | burst lucks =>
    obtain ⟨marked, hunit, hqueued, -⟩ := h.burst hraw
      (List.take_append_drop burstLimit history.diary.mailbox.jobs).symm ho
    exact ⟨marked, hunit, hqueued⟩
  | write luck =>
    obtain ⟨marked, hunit, hqueued⟩ := h
    exact ⟨marked, hunit.writeBatch luck, hqueued⟩
  | compile budget only luck =>
    obtain ⟨marked, hunit, hqueued⟩ := h
    exact ⟨marked, hunit.noteCompile budget only luck, hqueued⟩
  | prune luck =>
    obtain ⟨marked, hunit, hqueued⟩ := h
    exact ⟨marked, hunit.notePrune luck, hqueued⟩
  | close lucks luck =>
    obtain ⟨marked, hunit, hqueued, -⟩ := h.burst hraw (List.append_nil _).symm ho
    exact ⟨marked, hunit.writeBatch luck, hqueued⟩
  | open_ retention luck =>
    obtain ⟨marked, hunit, -⟩ := h
    have hopen : InUnit numbers c e reports raw marked
        (⟨history.diary.writer.store, [], true, retention⟩ : Writer σ) :=
      ⟨hunit.mark, hunit.stored, fun change hchange => by cases hchange⟩
    exact ⟨marked, hopen.notePrune luck, trivial⟩

lemma Unasked.after (h : Unasked e history) (hsteady : OneUnit numbers c e reports raw history)
    (hraw : ∀ state, raw state → AsTold reports state) {event : HistoryEvent σ}
    (hreport : ∀ state ∈ reportOf e event, speaks state = none)
    (ho : Converting numbers e history event) : Unasked e (history.after numbers event) := by
  -- What the writer does of itself marks nothing.
  have hwriter : ∀ {marked : Bool} {writer : Writer σ} {jobs : List (Job σ)},
      InUnit numbers c e reports raw marked writer → marked = false →
        jobs.any (convertsJob e) = false →
          mayMark e (writer.store.convertedUnits.contains e) jobs = false := by
    rintro marked writer jobs hunit rfl hjobs
    rw [mayMark, hunit.mark, hjobs]
    rfl
  obtain ⟨hmark, hjobs⟩ := Bool.or_eq_false_iff.mp h
  have hmarked : ∀ {marked : Bool}, InUnit numbers c e reports raw marked history.diary.writer →
      marked = false := fun hunit => hunit.mark.symm.trans hmark
  cases event with
  | told told =>
    cases told with
    | stateChanged state deviceClass kind =>
      refine Unasked.send ?_ rfl
      rcases askOnce_cases history state deviceClass with ⟨hsame, -⟩ | ⟨conversion, hsome, hdiary⟩
      · rw [hsame]
        exact h
      · have hother : state.entityId ≠ e := by
          intro hid
          rw [conversionOf, hreport state (by simp [reportOf, hid])] at hsome
          cases hsome
        have hsend : Unasked e (history.send (.convert state.entityId conversion.unit.symbol
            conversion.linear.1 conversion.linear.2 state.lastUpdated)) :=
          h.send (by simp [convertsJob, hother])
        unfold Unasked at hsend ⊢
        rw [hdiary]
        exact hsend
    | entityAdded id kind =>
      cases kind with
      | none => exact h
      | some kind => exact h.send rfl
    | entityRemoved id => exact h.send rfl
    | pressed state => exact h.send rfl
    | lagged live => exact h.send rfl
  | ask ask => exact h.send (by cases ask <;> rfl)
  | burst lucks =>
    obtain ⟨marked, hunit, -, hnot⟩ := hsteady.burst hraw
      (List.take_append_drop burstLimit history.diary.mailbox.jobs).symm ho
    refine hwriter hunit (Bool.eq_false_iff.mpr fun htrue => hnot htrue h) ?_
    have hsplit := hjobs
    rw [← List.take_append_drop burstLimit history.diary.mailbox.jobs, List.any_append,
      Bool.or_eq_false_iff] at hsplit
    exact hsplit.2
  | write luck =>
    obtain ⟨marked, hunit, -⟩ := hsteady
    exact hwriter (hunit.writeBatch luck) (hmarked hunit) hjobs
  | compile budget only luck =>
    obtain ⟨marked, hunit, -⟩ := hsteady
    exact hwriter (hunit.noteCompile budget only luck) (hmarked hunit) hjobs
  | prune luck =>
    obtain ⟨marked, hunit, -⟩ := hsteady
    exact hwriter (hunit.notePrune luck) (hmarked hunit) hjobs
  | close lucks luck =>
    obtain ⟨marked, hunit, -, hnot⟩ := hsteady.burst hraw (List.append_nil _).symm ho
    exact hwriter (hunit.writeBatch luck) (Bool.eq_false_iff.mpr fun htrue => hnot htrue h) rfl
  | open_ retention luck =>
    obtain ⟨marked, hunit, -⟩ := hsteady
    have hopen : InUnit numbers c e reports raw marked
        (⟨history.diary.writer.store, [], true, retention⟩ : Writer σ) :=
      ⟨hunit.mark, hunit.stored, fun change hchange => by cases hchange⟩
    exact hwriter (hopen.notePrune luck) (hmarked hunit) rfl

/-! ### Whole runs -/

lemma allConverting_append {events events' : List (HistoryEvent σ)} :
    AllConverting numbers e history (events ++ events') ↔
      AllConverting numbers e history events ∧
        AllConverting numbers e (history.afterAll numbers events) events' := by
  induction events generalizing history with
  | nil => simp [AllConverting, History.afterAll]
  | cons event events ih =>
    rw [List.cons_append, AllConverting, ih, AllConverting, and_assoc]
    rfl

lemma OneUnit.before (h : OneUnit numbers c e reports raw history) (hunasked : Unasked e history)
    (hraw : ∀ state, raw state → AsTold reports state) (events : List (HistoryEvent σ))
    (hone : ∀ event ∈ events, SpeaksOne e c event)
    (hreport : ∀ event ∈ events, ∀ state ∈ reportOf e event, raw state ∧ speaks state = none)
    (ho : AllConverting numbers e history events) :
    OneUnit numbers c e reports raw (history.afterAll numbers events) ∧
      Unasked e (history.afterAll numbers events) := by
  induction events generalizing history with
  | nil => exact ⟨h, hunasked⟩
  | cons event events ih =>
    have hevent := hreport event List.mem_cons_self
    have hnext := h.after hraw (hone event List.mem_cons_self)
      (fun state hstate => .inr ⟨(hevent state hstate).1, (hevent state hstate).2, hunasked⟩) ho.1
    exact ih hnext (hunasked.after h hraw (fun state hstate => (hevent state hstate).2) ho.1)
      (fun event hevent => hone event (List.mem_cons_of_mem _ hevent))
      (fun event hevent => hreport event (List.mem_cons_of_mem _ hevent)) ho.2

lemma OneUnit.since (h : OneUnit numbers c e reports raw history)
    (hraw : ∀ state, raw state → AsTold reports state) (events : List (HistoryEvent σ))
    (hone : ∀ event ∈ events, SpeaksOne e c event)
    (hreport : ∀ event ∈ events, ∀ state ∈ reportOf e event, Native reports state)
    (ho : AllConverting numbers e history events) :
    OneUnit numbers c e reports raw (history.afterAll numbers events) := by
  induction events generalizing history with
  | nil => exact h
  | cons event events ih =>
    exact ih (h.after hraw (hone event List.mem_cons_self)
        (fun state hstate => .inl (hreport event List.mem_cons_self state hstate)) ho.1)
      (fun event hevent => hone event (List.mem_cons_of_mem _ hevent))
      (fun event hevent => hreport event (List.mem_cons_of_mem _ hevent)) ho.2

lemma oneUnit_start (retention : Retention) :
    OneUnit numbers c e reports raw (History.start retention) ∧
      Unasked e (History.start retention : History σ) :=
  ⟨⟨false, inUnit_empty retention true, trivial⟩,
    by simp [Unasked, mayMark, History.start, Store.empty]⟩

lemma OneUnit.settled (h : OneUnit numbers c e reports (AsTold reports) history)
    (hrow : ∃ row ∈ (history.diary.writer.store.rows e).list, (speaks row.2).isSome = true) :
    OneUnit numbers c e reports (fun _ => False) history := by
  obtain ⟨marked, hunit, hqueued⟩ := h
  obtain ⟨row, hrow, hspeaks⟩ := hrow
  cases marked with
  | false =>
    have hold : AsTold reports row.2 := hunit.stored.rows row hrow
    rw [hold.2] at hspeaks
    cases hspeaks
  | true =>
    refine ⟨true, ⟨hunit.mark, hunit.stored, hunit.batch⟩, ?_⟩
    have hknown : ∀ (jobs : List (Job σ)) (surely : Bool),
        Queued c e reports (AsTold reports) surely true jobs →
          Queued c e reports (fun _ => False) surely true jobs := by
      intro jobs
      induction jobs with
      | nil => exact fun _ _ => trivial
      | cons job jobs ih =>
        intro surely hjobs
        cases job with
        | append change =>
          refine ⟨fun hid => ?_, ih surely hjobs.2⟩
          rcases hjobs.1 hid with hnative | ⟨hfalse, -⟩
          · exact .inl hnative
          · cases hfalse
        | convert id unit scale offset before =>
          have hrest : Queued c e reports (AsTold reports) (surely || decide (id = e)) true jobs :=
            hjobs.2
          exact ⟨hjobs.1, ih _ hrest⟩
        | forget id => exact ih _ hjobs
        | _ => exact ih surely hjobs
    exact hknown _ _ hqueued

lemma OneUnit.allCelsius (h : OneUnit numbers c e reports (fun _ => False) history) :
    AllCelsius numbers c e reports history.diary.writer.store := by
  obtain ⟨marked, hunit, -⟩ := h
  cases marked with
  | true => exact hunit.stored
  | false =>
    have hnone : ∀ {stat : Stat}, Made (NumberIn numbers fun _ => False) (fun _ => False) stat →
        Made (NumberIn numbers (Celsius numbers c reports)) (Shifted numbers c (AsTold reports))
          stat :=
      fun hstat => hstat.mono (fun v hv => hv.choose_spec.1.elim) fun _ hfalse => hfalse.elim
    exact ⟨fun row hrow => (hunit.stored.rows row hrow).elim,
      fun start stat hstat => hnone (hunit.stored.shortTerm start stat hstat),
      fun start stat hstat => hnone (hunit.stored.hourly start stat hstat)⟩

end Telling

/-- Every reading is converted once and never twice, in a run whose every step goes right. -/
theorem convertedOnce_of_converting {numbers : Numbers σ} {c : Conversion} {e : EntityId}
    {retention : Retention} {first rest : List (HistoryEvent σ)}
    (hone : ∀ event ∈ first ++ rest, SpeaksOne e c event)
    (hfirst : ∀ event ∈ first, ∀ state ∈ reportOf e event, speaks state = none)
    (hrest : ∀ event ∈ rest, ∀ state ∈ reportOf e event, (speaks state).isSome = true)
    (h : AllConverting numbers e (History.start retention) (first ++ rest)) :
    ConvertedOnce numbers c e retention (first ++ rest) := by
  have hmem : ∀ {event : HistoryEvent σ} {state : Core.EntityState σ}, event ∈ first ++ rest →
      state ∈ reportOf e event → state ∈ (first ++ rest).filterMap (reportOf e) :=
    fun hevent hstate => List.mem_filterMap.mpr ⟨_, hevent, hstate⟩
  intro earlier later heq hrow
  obtain ⟨hstart, hunasked⟩ : OneUnit numbers c e ((first ++ rest).filterMap (reportOf e))
      (AsTold ((first ++ rest).filterMap (reportOf e))) (History.start retention) ∧
        Unasked e (History.start retention : History σ) :=
    oneUnit_start retention
  rcases List.append_eq_append_iff.mp heq with ⟨middle, rfl, rfl⟩ | ⟨middle, rfl, rfl⟩
  · obtain ⟨hbegin, hafter⟩ := allConverting_append.mp h
    obtain ⟨hmiddle, hlater⟩ := allConverting_append.mp hafter
    have hcame := hstart.before hunasked (fun _ hraw => hraw) first
      (fun event hevent => hone event (List.mem_append_left _ hevent))
      (fun event hevent state hstate => ⟨⟨hmem (List.mem_append_left _ hevent) hstate,
        hfirst event hevent state hstate⟩, hfirst event hevent state hstate⟩) hbegin
    have hstored := hcame.1.since (fun _ hraw => hraw) middle
      (fun event hevent => hone event (List.mem_append_right _ (List.mem_append_left _ hevent)))
      (fun event hevent state hstate =>
        ⟨hmem (List.mem_append_right _ (List.mem_append_left _ hevent)) hstate,
          hrest event (List.mem_append_left _ hevent) state hstate⟩) hmiddle
    rw [History.afterAll, List.foldl_append] at hrow
    have hlast := (hstored.settled hrow).since (fun _ hfalse => hfalse.elim) later
      (fun event hevent => hone event (List.mem_append_right _ (List.mem_append_right _ hevent)))
      (fun event hevent state hstate =>
        ⟨hmem (List.mem_append_right _ (List.mem_append_right _ hevent)) hstate,
          hrest event (List.mem_append_right _ hevent) state hstate⟩) hlater
    have hall := hlast.allCelsius
    rw [History.afterAll, List.foldl_append, List.foldl_append]
    exact hall
  · -- Nothing converted is stored before anything converted is told.
    rw [List.append_assoc, allConverting_append] at h
    have hcame := hstart.before hunasked (fun _ hraw => hraw) earlier
      (fun event hevent => hone event
        (List.mem_append_left _ (List.mem_append_left _ hevent)))
      (fun event hevent state hstate =>
        ⟨⟨hmem (List.mem_append_left _ (List.mem_append_left _ hevent)) hstate,
          hfirst event (List.mem_append_left _ hevent) state hstate⟩,
          hfirst event (List.mem_append_left _ hevent) state hstate⟩) h.1
    obtain ⟨⟨marked, hunit, -⟩, hnot⟩ := hcame
    obtain ⟨row, hrow, hspeaks⟩ := hrow
    have hmarked : marked = false := hunit.mark.symm.trans (Bool.or_eq_false_iff.mp hnot).1
    subst hmarked
    have hold : AsTold _ row.2 := hunit.stored.rows row hrow
    rw [hold.2] at hspeaks
    cases hspeaks

/-! ### A sensor that speaks °F -/

section Runs

variable {numbers : Numbers σ} {e : EntityId}

instance (c : Conversion) (event : HistoryEvent σ) : Decidable (SpeaksOne e c event) := by
  unfold SpeaksOne
  split <;> infer_instance

instance (before : Int) (store : Store σ) : Decidable (StoredBefore e before store) :=
  inferInstanceAs (Decidable (_ ∧ _ ∧ _))

instance (writer : Writer σ) (luck : Luck) (job : Job σ) :
    Decidable (GoesThrough e writer luck job) := by
  cases job with
  | convert id unit scale offset before =>
    unfold GoesThrough
    dsimp only
    cases nanos before <;> infer_instance
  | _ => exact inferInstanceAs (Decidable True)

instance decidableThrough : (pairs : List (Job σ × Luck)) → (writer : Writer σ) →
    Decidable (AllThrough numbers e pairs writer)
  | [], _ => inferInstanceAs (Decidable True)
  | (job, luck) :: rest, writer =>
    have := decidableThrough rest (writer.apply numbers luck job).1
    inferInstanceAs (Decidable (GoesThrough e writer luck job ∧
      AllThrough numbers e rest (writer.apply numbers luck job).1))

instance (history : History σ) (event : HistoryEvent σ) :
    Decidable (Converting numbers e history event) := by
  unfold Converting
  split <;> infer_instance

instance decidableConverting : (events : List (HistoryEvent σ)) → (history : History σ) →
    Decidable (AllConverting numbers e history events)
  | [], _ => inferInstanceAs (Decidable True)
  | event :: events, history =>
    have := decidableConverting events (history.after numbers event)
    inferInstanceAs (Decidable (Converting numbers e history event ∧
      AllConverting numbers e (history.after numbers event) events))

end Runs

def plainNumbers : Numbers ℚ where
  primary
    | .other value => some value
    | .update _ => none
  scaled scale offset
    | .other value => some (.other (Store.rounded (value * scale + offset)))
    | .update _ => none

def fahrenheit : Conversion := ⟨.fahrenheit, false⟩

/-- A reading of the cellar at a time, in °C where its device's unit is said. -/
def reading (native : Bool) (value : ℚ) (time : Timestamp) : Core.EntityState ℚ where
  entityId := cellar
  availability := .available
  state := some (.other value)
  attributes :=
    if native then Std.ExtTreeMap.empty.insert Conversion.nativeUnit (.string "°F") else ∅
  lastChanged := time
  lastUpdated := time
  lastReported := time
  context := ⟨⟨"01ARZ3NDEKTSV4RRFFQ69G5FAV", by decide +kernel⟩, none, .system⟩

def reports (native : Bool) (value : ℚ) (time : Timestamp) : List (HistoryEvent ℚ) :=
  [.told (.stateChanged (reading native value time) (some .temperature) none),
    .burst fun _ => fine, .write fine]

lemma ten_pos : 1 ≤ 10 := by decide
lemma ten_ge : ∀ days ∈ (none : Option ℕ), 10 ≤ days := by simp

def tenDays : Retention := ⟨10, none, ten_pos, ten_ge⟩

theorem convertedOnce_cellar :
    ConvertedOnce plainNumbers fahrenheit cellar tenDays
        (reports false 70 10 ++ (.open_ tenDays fine :: reports true 21 20)) ∧
      ((((History.start tenDays).afterAll plainNumbers (reports false 70 10 ++
        (.open_ tenDays fine :: reports true 21 20))).diary.writer.store.rows cellar).list.map
          fun row => row.2.state) = [some (.other (2111 / 100)), some (.other 21)] :=
  ⟨convertedOnce_of_converting (by simp only [reports]; decide +kernel)
    (by simp only [reports]; decide +kernel) (by simp only [reports]; decide +kernel)
    (by decide +kernel), by decide +kernel⟩

def returned : List (HistoryEvent ℚ) :=
  reports true 21 10 ++ [.told (.entityRemoved cellar), .burst fun _ => fine] ++
    reports true 20 20 ++ .open_ tenDays fine :: reports true 19 30

/-- What it said before that is converted again. -/
theorem not_convertedOnce_returned :
    ((((History.start tenDays).afterAll plainNumbers returned).diary.writer.store.rows
        cellar).list.map fun row => row.2.state) =
      [some (.other (-667 / 100)), some (.other 19)] ∧
      ¬ ConvertedOnce plainNumbers fahrenheit cellar tenDays returned := by
  refine ⟨by decide +kernel, fun h => ?_⟩
  have hall := h returned [] (List.append_nil _).symm (by decide +kernel)
  have hstored : ∃ row ∈ ((History.start tenDays).afterAll plainNumbers
      returned).diary.writer.store.rows cellar |>.list,
      row.2 ∉ returned.filterMap (reportOf cellar) := by decide +kernel
  obtain ⟨row, hrow, hnot⟩ := hstored
  rcases hall.rows row hrow with hnative | ⟨old, hold, -⟩
  · exact hnot hnative.1
  · have hspeaks : ∀ state ∈ returned.filterMap (reportOf cellar),
        (speaks state).isSome = true := by decide +kernel
    have hsome := hspeaks old hold.1
    rw [hold.2] at hsome
    cases hsome

end Irori.Proofs
