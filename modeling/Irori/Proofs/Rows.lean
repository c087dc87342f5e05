import Irori.Lib.Index
import Irori.Proofs.Forgetting

/-!
# What is stored of an entity

The changes and the summaries of one entity, by what they were made of: what each write, each
compilation and each deletion leaves of that.
-/

namespace Irori.Proofs
open Irori Recorder

variable {σ : Type}

inductive Made (p : ℚ → Prop) (base : Stat → Prop) : Stat → Prop
  | base {stat : Stat} (h : base stat) : Made p base stat
  | period {kind : StateClass} {start : Int} {carry : Option ℚ} {samples : List Sample}
      {stat : Stat} (hcarry : ∀ v ∈ carry, p v) (hsamples : ∀ sample ∈ samples, p sample.2)
      (h : Recorder.period kind start carry samples = some stat) : Made p base stat
  | carried {earlier : Stat} {kind : StateClass} {start : Int} {samples : List Sample}
      {stat : Stat} (hearlier : Made p base earlier) (hsamples : ∀ sample ∈ samples, p sample.2)
      (h : Recorder.period kind start earlier.last samples = some stat) : Made p base stat
  | rolled {parts : List Stat} {stat : Stat} (hparts : ∀ part ∈ parts, Made p base part)
      (h : rollup parts = some stat) : Made p base stat

def NumberIn (numbers : Numbers σ) (P : Core.EntityState σ → Prop) (v : ℚ) : Prop :=
  ∃ state : Core.EntityState σ, P state ∧ numberOf numbers state = some v

/-- Every stored change of an entity has a property, and every summary is made of numbers of states
that have it. -/
structure StoredAs (numbers : Numbers σ) (P : Core.EntityState σ → Prop) (base : Stat → Prop)
    (e : EntityId) (store : Store σ) : Prop where
  rows : ∀ row ∈ (store.rows e).list, P row.2
  shortTerm : ∀ (start : Int) (stat : Stat), (store.shortTerm e)[start]? = some stat →
    Made (NumberIn numbers P) base stat
  hourly : ∀ (start : Int) (stat : Stat), (store.hourly e)[start]? = some stat →
    Made (NumberIn numbers P) base stat

lemma Made.mono {p p' : ℚ → Prop} {base base' : Stat → Prop} {stat : Stat}
    (h : Made p base stat) (hp : ∀ v, p v → p' v) (hbase : ∀ stat, base stat → base' stat) :
    Made p' base' stat := by
  induction h with
  | base h => exact .base (hbase _ h)
  | period hcarry hsamples h =>
    exact .period (fun v hv => hp v (hcarry v hv)) (fun s hs => hp _ (hsamples s hs)) h
  | carried _ hsamples h ih => exact .carried ih (fun s hs => hp _ (hsamples s hs)) h
  | rolled _ h ih => exact .rolled ih h

section Tables

variable {numbers : Numbers σ} {P : Core.EntityState σ → Prop} {base : Stat → Prop}
  {e : EntityId} {store store' : Store σ}

structure FewerRows (e : EntityId) (store store' : Store σ) : Prop where
  rows : ∀ row ∈ (store'.rows e).list, row ∈ (store.rows e).list
  shortTerm : ∀ (start : Int) (stat : Stat), (store'.shortTerm e)[start]? = some stat →
    (store.shortTerm e)[start]? = some stat
  hourly : ∀ (start : Int) (stat : Stat), (store'.hourly e)[start]? = some stat →
    (store.hourly e)[start]? = some stat

lemma FewerRows.refl (e : EntityId) (store : Store σ) : FewerRows e store store :=
  ⟨fun _ h => h, fun _ _ h => h, fun _ _ h => h⟩

lemma FewerRows.trans {store'' : Store σ} (h : FewerRows e store store') (h' : FewerRows e store' store'') :
    FewerRows e store store'' :=
  ⟨fun row hrow => h.rows row (h'.rows row hrow),
    fun start stat hstat => h.shortTerm start stat (h'.shortTerm start stat hstat),
    fun start stat hstat => h.hourly start stat (h'.hourly start stat hstat)⟩

lemma SameAt.fewer (h : SameAt e store store') : FewerRows e store store' := by
  refine ⟨?_, ?_, ?_⟩
  · simp [Store.rows, h.stateHistory]
  · simp [Store.shortTerm, h.shortTerm]
  · simp [Store.hourly, h.hourly]

lemma StoredAs.fewer (h : StoredAs numbers P base e store) (hfewer : FewerRows e store store') :
    StoredAs numbers P base e store' :=
  ⟨fun row hrow => h.rows row (hfewer.rows row hrow),
    fun start stat hstat => h.shortTerm start stat (hfewer.shortTerm start stat hstat),
    fun start stat hstat => h.hourly start stat (hfewer.hourly start stat hstat)⟩

lemma storedAs_empty : StoredAs numbers P base e (.empty : Store σ) :=
  ⟨fun row hrow => by simp [Store.rows, Store.empty, Rows.empty] at hrow,
    fun start stat hstat => by simp [Store.shortTerm, Store.empty] at hstat,
    fun start stat hstat => by simp [Store.hourly, Store.empty] at hstat⟩

lemma mem_rowsInsert {rows : Rows σ} {row new : Row σ} (h : row ∈ (rows.insert new).list) :
    row = new ∨ row ∈ rows.list := by
  rcases List.mem_append.mp h with h | h
  · exact .inr ((List.takeWhile_sublist _).mem h)
  · rcases List.mem_cons.mp h with h | h
    · exact .inl h
    · exact .inr ((List.dropWhile_sublist _).mem h)

lemma StoredAs.append (h : StoredAs numbers P base e store) {state : Core.EntityState σ}
    (hstate : state.entityId = e → P state) : StoredAs numbers P base e (store.append state) := by
  by_cases hid : state.entityId = e
  · unfold Store.append
    split
    · exact h
    · next updated _ =>
      refine ⟨fun row hrow => ?_, h.shortTerm, h.hourly⟩
      subst hid
      simp only [Store.rows, Map.get_insert_self, Option.getD_some] at hrow
      rcases mem_rowsInsert hrow with rfl | hrow
      · exact hstate rfl
      · exact h.rows row hrow
  · exact h.fewer (append_sameAt hid).fewer

lemma noteClass_fewer (id : EntityId) (kind : StateClass) (now : Int) :
    FewerRows e store (store.noteClass id kind now) := by
  unfold Store.noteClass
  split
  · exact .refl e store
  · exact ⟨fun _ h => h, fun _ _ h => h, fun _ _ h => h⟩

lemma StoredAs.insertMany (h : StoredAs numbers P base e store) {changes : List (Change σ)}
    (hchanges : ∀ change ∈ changes, change.state.entityId = e → P change.state)
    (clock : Timestamp) : StoredAs numbers P base e (insertMany store changes clock) := by
  have hrows : ∀ changes : List (Change σ),
      (∀ change ∈ changes, change.state.entityId = e → P change.state) →
        ∀ store : Store σ, StoredAs numbers P base e store → StoredAs numbers P base e
          (changes.foldl (fun store change => store.append change.state) store) := by
    intro changes
    induction changes with
    | nil => exact fun _ store h => h
    | cons change changes ih =>
      intro hchanges store h
      exact ih (fun c hc => hchanges c (List.mem_cons_of_mem _ hc)) _
        (h.append (hchanges change List.mem_cons_self))
  have hclasses : ∀ note : Store σ → Change σ → Store σ,
      (∀ (store : Store σ) (change : Change σ), FewerRows e store (note store change)) →
        ∀ (changes : List (Change σ)) (store : Store σ),
          FewerRows e store (changes.foldl note store) := by
    intro note hnote changes
    induction changes with
    | nil => exact fun store => .refl e store
    | cons change changes ih => exact fun store => (hnote store change).trans (ih _)
  unfold Recorder.insertMany
  dsimp only
  split
  · exact hrows changes hchanges store h
  · refine (hrows changes hchanges store h).fewer (hclasses _ (fun store change => ?_) _ _)
    split
    · exact noteClass_fewer _ _ _
    · exact .refl e store

/-- A value carried into a period is a number with the property, or the last one of a summary. -/
def CarriedIn (p : ℚ → Prop) (base : Stat → Prop) (carry : Option ℚ) : Prop :=
  (∀ v ∈ carry, p v) ∨ ∃ earlier : Stat, Made p base earlier ∧ carry = earlier.last

lemma CarriedIn.made {p : ℚ → Prop} {carry : Option ℚ} (h : CarriedIn p base carry)
    {kind : StateClass} {start : Int} {samples : List Sample} {stat : Stat}
    (hsamples : ∀ sample ∈ samples, p sample.2)
    (hstat : period kind start carry samples = some stat) : Made p base stat := by
  rcases h with hcarry | ⟨earlier, hearlier, rfl⟩
  · exact .period hcarry hsamples hstat
  · exact .carried hearlier hsamples hstat

lemma StoredAs.insertShortTerm (h : StoredAs numbers P base e store) {start : Int}
    {stat : Option Stat} (hstat : ∀ s ∈ stat, Made (NumberIn numbers P) base s) :
    StoredAs numbers P base e (store.insertShortTerm e start stat) := by
  cases stat with
  | none => exact h
  | some stat =>
    refine ⟨h.rows, fun other found hfound => ?_, h.hourly⟩
    simp only [Store.insertShortTerm, Store.shortTerm, Map.get_insert_self,
      Option.getD_some] at hfound
    rcases Map.get_insert_some hfound with ⟨-, rfl⟩ | ⟨-, hfound⟩
    · exact hstat _ rfl
    · exact h.shortTerm other found hfound

lemma StoredAs.insertHourly (h : StoredAs numbers P base e store) {start : Int}
    {stat : Option Stat} (hstat : ∀ s ∈ stat, Made (NumberIn numbers P) base s) :
    StoredAs numbers P base e (store.insertHourly e start stat) := by
  cases stat with
  | none => exact h
  | some stat =>
    refine ⟨h.rows, h.shortTerm, fun other found hfound => ?_⟩
    simp only [Store.insertHourly, Store.hourly, Map.get_insert_self,
      Option.getD_some] at hfound
    rcases Map.get_insert_some hfound with ⟨-, rfl⟩ | ⟨-, hfound⟩
    · exact hstat _ rfl
    · exact h.hourly other found hfound

lemma StoredAs.finishHour (h : StoredAs numbers P base e store) (stop : Int) :
    StoredAs numbers P base e (store.finishHour e stop) := by
  unfold Store.finishHour
  split
  · refine h.insertHourly fun stat hstat => .rolled (fun part hpart => ?_) hstat
    obtain ⟨⟨start, part'⟩, hentry, rfl⟩ := List.mem_map.mp hpart
    exact h.shortTerm start part'
      (Std.ExtTreeMap.mem_toList_iff_getElem?_eq_some.mp (List.mem_of_mem_filter hentry))
  · exact h

lemma compiledLast_carried {summaries : Summaries} {p : ℚ → Prop}
    (h : ∀ (start : Int) (stat : Stat), summaries[start]? = some stat → Made p base stat)
    {before : Int} {v : ℚ} (hv : compiledLast summaries before = some v) :
    ∃ earlier : Stat, Made p base earlier ∧ earlier.last = some v := by
  obtain ⟨⟨start, stat⟩, hlast, hv⟩ := Option.bind_eq_some_iff.mp hv
  have hmem := List.mem_of_mem_filter (List.mem_of_getLast? hlast)
  exact ⟨stat, h start stat (Std.ExtTreeMap.mem_toList_iff_getElem?_eq_some.mp hmem), hv⟩

lemma StoredAs.valueBefore (h : StoredAs numbers P base e store) (before : Int) :
    CarriedIn (NumberIn numbers P) base (valueBefore numbers store e before) := by
  cases hvalue : Recorder.valueBefore numbers store e before with
  | none => exact .inl (fun v hv => nomatch hv)
  | some v =>
    unfold Recorder.valueBefore at hvalue
    rcases Option.or_eq_some_iff.mp hvalue with hvalue | ⟨-, hvalue⟩
    · rcases Option.or_eq_some_iff.mp hvalue with hvalue | ⟨-, hvalue⟩
      · refine .inl fun w hw => ?_
        cases hw
        obtain ⟨row, hrow, hnumber⟩ := List.exists_of_findSome?_eq_some hvalue
        have hmem := List.mem_of_mem_filter (List.mem_reverse.mp hrow)
        exact ⟨row.2, h.rows row hmem, hnumber⟩
      · obtain ⟨earlier, hearlier, hlast⟩ := compiledLast_carried h.shortTerm hvalue
        exact .inr ⟨earlier, hearlier, hlast.symm⟩
    · obtain ⟨earlier, hearlier, hlast⟩ := compiledLast_carried h.hourly hvalue
      exact .inr ⟨earlier, hearlier, hlast.symm⟩

lemma StoredAs.compilePeriods (h : StoredAs numbers P base e store) (kind : StateClass)
    (count : ℕ) (cursor : Int) {carried : Option ℚ} {samples : List Sample}
    (hcarried : CarriedIn (NumberIn numbers P) base carried)
    (hsamples : ∀ sample ∈ samples, NumberIn numbers P sample.2) :
    StoredAs numbers P base e (compilePeriods e kind count cursor carried samples store) := by
  induction count generalizing cursor carried samples store with
  | zero => exact h
  | succ count ih =>
    rw [Recorder.compilePeriods]
    have hinside : ∀ sample ∈ samples.takeWhile fun sample => decide (sample.1 < cursor + fiveMin),
        NumberIn numbers P sample.2 :=
      fun sample hsample => hsamples sample ((List.takeWhile_sublist _).mem hsample)
    refine ih (StoredAs.finishHour (h.insertShortTerm fun stat hstat => ?_) _) _ ?_
      fun sample hsample => hsamples sample ((List.dropWhile_sublist _).mem hsample)
    · exact hcarried.made hinside hstat
    · cases hlast : (samples.takeWhile fun sample =>
          decide (sample.1 < cursor + fiveMin)).getLast? with
      | none => simpa using hcarried
      | some sample =>
        refine .inl fun v hv => ?_
        cases hv
        exact hinside sample (List.mem_of_getLast? hlast)

lemma StoredAs.compileEntity (h : StoredAs numbers P base e store) (tracked : Tracked)
    (budget : ℕ) (now : Int) :
    StoredAs numbers P base e (compileEntity numbers store e tracked budget now).1 := by
  unfold Recorder.compileEntity
  dsimp only
  split
  · exact h
  · have hcompiled := h.compilePeriods tracked.kind
      (periodsToCompile tracked.compiledUntil budget now) (alignDown tracked.compiledUntil fiveMin)
      (h.valueBefore (alignDown tracked.compiledUntil fiveMin))
      fun sample (hsample : sample ∈ valuesBetween numbers (store.rows e)
          (alignDown tracked.compiledUntil fiveMin) (alignDown tracked.compiledUntil fiveMin +
            periodsToCompile tracked.compiledUntil budget now * fiveMin)) => by
        obtain ⟨row, hrow, hnumber⟩ := List.mem_filterMap.mp hsample
        obtain ⟨v, hv, rfl⟩ := Option.map_eq_some_iff.mp hnumber
        exact ⟨row.2, h.rows row (List.mem_of_mem_filter hrow), hv⟩
    exact ⟨hcompiled.rows, hcompiled.shortTerm, hcompiled.hourly⟩

lemma compile_eq (numbers : Numbers σ) (store : Store σ) (budget : ℕ) (only : Option EntityId)
    (now : Int) (fails : EntityId → Bool) :
    ∃ entries : List (EntityId × Tracked), compile numbers store budget only now fails =
      compileAll numbers now fails entries budget store := ⟨_, rfl⟩

lemma StoredAs.compile (h : StoredAs numbers P base e store) (budget : ℕ)
    (only : Option EntityId) (now : Int) (fails : EntityId → Bool) :
    StoredAs numbers P base e (compile numbers store budget only now fails).1 := by
  obtain ⟨entries, hentries⟩ := compile_eq numbers store budget only now fails
  rw [hentries]
  clear hentries
  induction entries generalizing budget store with
  | nil => exact h
  | cons entry entries ih =>
    dsimp only [compileAll]
    split
    · exact h
    · split
      · exact h
      · refine ih ?_ _
        by_cases hid : entry.1 = e
        · rw [hid]
          exact h.compileEntity entry.2 budget now
        · exact h.fewer (compileEntity_sameAt numbers hid entry.2 budget now).fewer

lemma mem_filterRows {p : EntityId → Row σ → Bool} {row : Row σ}
    (h : row ∈ (((store.stateHistory.map fun id rows => rows.filter (p id))[e]?).getD
      Rows.empty).list) : row ∈ (store.rows e).list := by
  rw [Std.ExtTreeMap.getElem?_map] at h
  unfold Store.rows
  cases hrows : store.stateHistory[e]? with
  | none =>
    rw [hrows] at h
    exact h
  | some rows =>
    rw [hrows] at h
    exact List.mem_of_mem_filter h

lemma get_filterSummaries {m : Map EntityId Summaries} {p : EntityId → Int → Stat → Bool}
    {start : Int} {stat : Stat}
    (h : (((m.map fun id summaries => summaries.filter (p id))[e]?).getD ∅)[start]? = some stat) :
    ((m[e]?).getD ∅)[start]? = some stat := by
  rw [Std.ExtTreeMap.getElem?_map] at h
  cases hm : m[e]? with
  | none =>
    rw [hm] at h
    exact h
  | some summaries =>
    rw [hm] at h
    simp only [Option.map_some, Option.getD_some] at h ⊢
    rw [Std.ExtTreeMap.getElem?_filter', Option.filter_eq_some_iff] at h
    exact h.1

lemma prune_fewer (store : Store σ) (retention : Retention) (clock : Timestamp) :
    FewerRows e store (store.prune retention clock) := by
  unfold Store.prune
  split
  · exact .refl e store
  · next cutoff _ =>
    refine ⟨fun row hrow => mem_filterRows hrow, fun start stat hstat => get_filterSummaries hstat,
      fun start stat hstat => ?_⟩
    cases hsummary : retention.summaryDays.bind (cutoffNs clock) with
    | none =>
      rw [hsummary] at hstat
      exact hstat
    | some summaryCutoff =>
      rw [hsummary] at hstat
      exact get_filterSummaries (p := fun _ start _ => !(start < summaryCutoff)) hstat

lemma fewer_of_maps
    (hrows : store'.stateHistory[e]? = store.stateHistory[e]? ∨ store'.stateHistory[e]? = none)
    (hshort : store'.statisticsShortTerm[e]? = store.statisticsShortTerm[e]? ∨
      store'.statisticsShortTerm[e]? = none)
    (hhourly : store'.statistics[e]? = store.statistics[e]? ∨ store'.statistics[e]? = none) :
    FewerRows e store store' := by
  refine ⟨fun row hrow => ?_, fun start stat hstat => ?_, fun start stat hstat => ?_⟩
  · unfold Store.rows at hrow ⊢
    rcases hrows with h | h
    · rwa [h] at hrow
    · simp [h, Rows.empty] at hrow
  · unfold Store.shortTerm at hstat ⊢
    rcases hshort with h | h
    · rwa [h] at hstat
    · simp [h] at hstat
  · unfold Store.hourly at hstat ⊢
    rcases hhourly with h | h
    · rwa [h] at hstat
    · simp [h] at hstat

lemma deleteEntity_fewer (store : Store σ) (id : EntityId) (table : Store.Table) :
    FewerRows e store (store.deleteEntity id table) := by
  have herase : ∀ {β : Type} (m : Map EntityId β),
      (m.erase id)[e]? = m[e]? ∨ (m.erase id)[e]? = none := by
    intro β m
    rw [Map.get_erase]
    split
    · exact .inr rfl
    · exact .inl rfl
  cases table with
  | stateHistory => exact fewer_of_maps (herase _) (.inl rfl) (.inl rfl)
  | shortTerm => exact fewer_of_maps (.inl rfl) (herase _) (.inl rfl)
  | hourly => exact fewer_of_maps (.inl rfl) (.inl rfl) (herase _)
  | statisticEntities => exact fewer_of_maps (.inl rfl) (.inl rfl) (.inl rfl)
  | convertedUnits => exact fewer_of_maps (.inl rfl) (.inl rfl) (.inl rfl)

lemma deleteMissing_fewer (store : Store σ) (live : List EntityId) (table : Store.Table) :
    FewerRows e store (store.deleteMissing live table) := by
  have hfilter : ∀ {β : Type} (m : Map EntityId β),
      (m.filter fun id _ => live.contains id)[e]? = m[e]? ∨
        (m.filter fun id _ => live.contains id)[e]? = none := by
    intro β m
    rw [get_filter_live]
    split
    · exact .inl rfl
    · exact .inr rfl
  cases table with
  | stateHistory => exact fewer_of_maps (hfilter _) (.inl rfl) (.inl rfl)
  | shortTerm => exact fewer_of_maps (.inl rfl) (hfilter _) (.inl rfl)
  | hourly => exact fewer_of_maps (.inl rfl) (.inl rfl) (hfilter _)
  | statisticEntities => exact fewer_of_maps (.inl rfl) (.inl rfl) (.inl rfl)
  | convertedUnits => exact fewer_of_maps (.inl rfl) (.inl rfl) (.inl rfl)

lemma forget_cases (store : Store σ) (id : EntityId) (deletes : ℕ) :
    FewerRows e store (store.forget id deletes) ∧
      ((store.forget id deletes).convertedUnits = store.convertedUnits ∨
        Absent id (store.forget id deletes) ∧
          ∀ f, id ≠ f → SameAt f store (store.forget id deletes)) := by
  constructor
  · unfold Store.forget
    generalize List.take deletes _ = tables
    induction tables generalizing store with
    | nil => exact .refl e store
    | cons table tables ih => exact (deleteEntity_fewer store id table).trans (ih _)
  · by_cases hdeletes : 5 ≤ deletes
    · exact .inr (forget_all store id hdeletes)
    · left
      interval_cases deletes <;> rfl

lemma forgetMissing_fewer (store : Store σ) (live : List EntityId) (deletes : ℕ) :
    FewerRows e store (store.forgetMissing live deletes) ∧
      (store.forgetMissing live deletes).convertedUnits = store.convertedUnits := by
  have hfold : ∀ (tables : List Store.Table) (store : Store σ),
      FewerRows e store (tables.foldl (fun store table => store.deleteMissing live table) store) := by
    intro tables
    induction tables with
    | nil => exact fun store => .refl e store
    | cons table tables ih => exact fun store => (deleteMissing_fewer store live table).trans (ih _)
  unfold Store.forgetMissing
  dsimp only
  split
  · refine ⟨hfold _ _, ?_⟩
    by_cases hdeletes : 4 ≤ deletes
    · rw [List.take_of_length_le (by simpa using hdeletes)]
      rfl
    · interval_cases deletes <;> rfl
  · split
    · exact ⟨.refl e store, rfl⟩
    · exact ⟨hfold _ _, rfl⟩

lemma StoredAs.absent {P : Core.EntityState σ → Prop} {base : Stat → Prop} {store : Store σ}
    (h : Absent e store) : StoredAs numbers P base e store := by
  refine ⟨fun row hrow => ?_, fun start stat hstat => ?_, fun start stat hstat => ?_⟩
  · simp [Store.rows, h.stateHistory, Rows.empty] at hrow
  · simp [Store.shortTerm, h.shortTerm] at hstat
  · simp [Store.hourly, h.hourly] at hstat

lemma contains_congr {a b : Store σ} (h : SameAt e a b) :
    b.convertedUnits.contains e = a.convertedUnits.contains e := by
  rw [Std.ExtTreeMap.contains_eq_isSome_getElem?, h.convertedUnits,
    ← Std.ExtTreeMap.contains_eq_isSome_getElem?]

lemma compile_convertedUnits (store : Store σ) (budget : ℕ) (only : Option EntityId) (now : Int)
    (fails : EntityId → Bool) :
    (compile numbers store budget only now fails).1.convertedUnits = store.convertedUnits := by
  have hshort : ∀ (store : Store σ) (id : EntityId) (start : Int) (stat : Option Stat),
      (store.insertShortTerm id start stat).convertedUnits = store.convertedUnits := by
    intro store id start stat
    cases stat <;> rfl
  have hfinish : ∀ (store : Store σ) (id : EntityId) (stop : Int),
      (store.finishHour id stop).convertedUnits = store.convertedUnits := by
    intro store id stop
    unfold Store.finishHour Store.insertHourly
    split
    · split <;> rfl
    · rfl
  have hperiods : ∀ (id : EntityId) (kind : StateClass) (count : ℕ) (cursor : Int)
      (carried : Option ℚ) (samples : List Sample) (store : Store σ),
      (compilePeriods id kind count cursor carried samples store).convertedUnits =
        store.convertedUnits := by
    intro id kind count
    induction count with
    | zero => exact fun _ _ _ _ => rfl
    | succ count ih =>
      intro cursor carried samples store
      rw [compilePeriods]
      exact (ih _ _ _ _).trans ((hfinish _ _ _).trans (hshort _ _ _ _))
  obtain ⟨entries, hentries⟩ := compile_eq numbers store budget only now fails
  rw [hentries]
  clear hentries
  induction entries generalizing budget store with
  | nil => rfl
  | cons entry entries ih =>
    dsimp only [compileAll]
    split
    · rfl
    · split
      · rfl
      · refine (ih _ _).trans ?_
        unfold compileEntity
        dsimp only
        split
        · rfl
        · exact hperiods _ _ _ _ _ _ _

end Tables

end Irori.Proofs
