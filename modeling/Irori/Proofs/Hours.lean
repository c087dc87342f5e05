import Irori.Lib.Timeline
import Irori.Recorder.Stats

/-!
# An hour of summaries

An hour is summed up from its twelve five-minute rows, and comes to what it would if it were summed
up from its readings. A row knows what held when its five minutes began.
-/

namespace Irori.Recorder

def heldBefore (carry : Option ℚ) (samples : List Sample) (time : ℤ) : Option ℚ :=
  (Timeline.lastBefore samples time).or carry

def valueAt (carry : Option ℚ) (samples : List Sample) (time : ℤ) : ℚ :=
  (heldBefore carry samples (time + 1)).getD 0

/-- The integral of the value over time. Readings come at whole nanoseconds. -/
noncomputable def integral (carry : Option ℚ) (samples : List Sample) (start stop : ℤ) : ℚ :=
  ∑ time ∈ Finset.Ico start stop, valueAt carry samples time

/-- The rows of the first `n` five minutes from `start`: each is carried what held before it. -/
def rows (kind : StateClass) (start : ℤ) (carry : Option ℚ) (samples : List Sample) (n : ℕ) :
    List Stat :=
  (List.range n).filterMap fun i : ℕ =>
    period kind (start + i * fiveMin) (heldBefore carry samples (start + i * fiveMin))
      (Timeline.between samples (start + i * fiveMin) (start + (i + 1 : ℕ) * fiveMin))

def numbersBefore (samples : List Sample) (time : ℤ) : List ℚ :=
  (samples.filter fun sample => sample.1 < time).map Prod.snd

end Irori.Recorder

namespace Irori.Proofs
open Irori Recorder

variable {kind : StateClass} {carry : Option ℚ} {samples : List Sample} {start stop time : ℤ}
  {held : ℚ}

def lastOr (carry : Option ℚ) (values : List ℚ) : Option ℚ := values.getLast?.or carry

lemma lastOr_append (values more : List ℚ) :
    lastOr carry (values ++ more) = lastOr (lastOr carry values) more := by
  rw [lastOr, List.getLast?_append, Option.or_assoc]
  rfl

lemma heldBefore_eq (carry : Option ℚ) (samples : List Sample) (time : ℤ) :
    heldBefore carry samples time = lastOr carry (numbersBefore samples time) := by
  rw [heldBefore, Timeline.lastBefore, lastOr, numbersBefore, List.getLast?_map]

lemma numbersBefore_append (hordered : Timeline.Ordered samples) {a b : ℤ} (hab : a ≤ b) :
    numbersBefore samples b =
      numbersBefore samples a ++ (Timeline.between samples a b).map Prod.snd := by
  rw [numbersBefore, Timeline.before_eq_append hordered hab, List.map_append]
  rfl

lemma numbersBefore_start (hstart : ∀ sample ∈ samples, start ≤ sample.1) (htime : time ≤ start) :
    numbersBefore samples time = [] := by
  rw [numbersBefore, List.map_eq_nil_iff, List.filter_eq_nil_iff]
  intro sample hsample
  simpa using htime.trans (hstart sample hsample)

lemma numbersBefore_stop (hstop : ∀ sample ∈ samples, sample.1 < time) :
    numbersBefore samples time = samples.map Prod.snd := by
  rw [numbersBefore, List.filter_eq_self.2 (by simpa using hstop)]

lemma lastOr_isSome {values : List ℚ} (h : carry.isSome ∨ values ≠ []) :
    ∃ last, lastOr carry values = some last := by
  unfold lastOr
  rcases h with h | h
  · obtain ⟨held, rfl⟩ := Option.isSome_iff_exists.1 h
    cases values.getLast? <;> simp
  · rw [List.getLast?_eq_some_getLast h]
    exact ⟨_, rfl⟩

lemma heldBefore_next (hordered : Timeline.Ordered samples) {a b : ℤ} (hab : a ≤ b) :
    heldBefore carry samples b =
      lastOr (heldBefore carry samples a) ((Timeline.between samples a b).map Prod.snd) := by
  rw [heldBefore_eq, heldBefore_eq, numbersBefore_append hordered hab, lastOr_append]

lemma valueAt_between (hordered : Timeline.Ordered samples) {a b : ℤ}
    (htime : a ≤ time ∧ time < b) :
    valueAt (heldBefore carry samples a) (Timeline.between samples a b) time =
      valueAt carry samples time := by
  have hbefore : numbersBefore (Timeline.between samples a b) (time + 1) =
      (Timeline.between samples a (time + 1)).map Prod.snd := by
    rw [numbersBefore, Timeline.between, List.filter_filter]
    refine congrArg _ (List.filter_congr fun sample _ => ?_)
    rw [Bool.eq_iff_iff]
    simp only [Bool.and_eq_true, decide_eq_true_eq]
    omega
  rw [valueAt, valueAt, heldBefore_eq, heldBefore_eq, heldBefore_eq, hbefore, ← lastOr_append,
    ← numbersBefore_append hordered (by omega)]

lemma integral_between (hordered : Timeline.Ordered samples) {a b : ℤ} :
    integral (heldBefore carry samples a) (Timeline.between samples a b) a b =
      integral carry samples a b :=
  Finset.sum_congr rfl fun _ htime => valueAt_between hordered (Finset.mem_Ico.1 htime)

lemma integral_add {a b c : ℤ} (hab : a ≤ b) (hbc : b ≤ c) :
    integral carry samples a b + integral carry samples b c = integral carry samples a c := by
  rw [integral, integral, integral, ← Finset.Ico_union_Ico_eq_Ico hab hbc,
    Finset.sum_union (Finset.Ico_disjoint_Ico_consecutive a b c)]

lemma integral_last (hsamples : ∀ sample ∈ samples, sample.1 ≤ start) (hstop : start ≤ stop)
    (hheld : lastOr carry (samples.map Prod.snd) = some held) :
    integral carry samples start stop = held * (stop - start : ℤ) := by
  have hall : ∀ time ∈ Finset.Ico start stop, valueAt carry samples time = held := by
    intro time htime
    rw [valueAt, heldBefore_eq, numbersBefore_stop, hheld, Option.getD_some]
    intro sample hsample
    have := hsamples sample hsample
    have := (Finset.mem_Ico.1 htime).1
    omega
  rw [integral, Finset.sum_congr rfl hall, Finset.sum_const, Int.card_Ico, nsmul_eq_mul, mul_comm]
  congr 1
  exact_mod_cast congrArg (Int.cast (R := ℚ)) (Int.toNat_of_nonneg (by omega))

lemma integral_append {sample : Sample} (hstop : stop ≤ sample.1) :
    integral carry (samples ++ [sample]) start stop = integral carry samples start stop := by
  refine Finset.sum_congr rfl fun time htime => ?_
  have hlater : ¬ sample.1 < time + 1 := by
    have := (Finset.mem_Ico.1 htime).2
    omega
  rw [valueAt, valueAt, heldBefore_eq, heldBefore_eq, numbersBefore, numbersBefore,
    List.filter_append, List.filter_cons_of_neg (by simpa using hlater), List.filter_nil,
    List.append_nil]

lemma lastOr_some (values : List ℚ) (held : ℚ) : ∃ last, lastOr (some held) values = some last := by
  unfold lastOr
  cases values.getLast? <;> simp

structure Measured (start : ℤ) (carried : ℚ) (samples : List Sample) (m : Measuring) : Prop where
  current : m.current = lastOr (some carried) (samples.map Prod.snd)
  last : m.last = lastOr (some carried) (samples.map Prod.snd)
  low : m.low = some ((samples.map Prod.snd).foldl Min.min carried)
  high : m.high = some ((samples.map Prod.snd).foldl Max.max carried)
  cursor : m.cursor = start ∨ ∃ sample ∈ samples, sample.1 = m.cursor
  start_le : start ≤ m.cursor
  le_cursor : ∀ sample ∈ samples, sample.1 ≤ m.cursor
  weight : m.weight = (m.cursor - start : ℤ)
  weighted : m.weighted = integral (some carried) samples start m.cursor

lemma holdTo_kept (m : Measuring) (time : ℤ) : (m.holdTo time).current = m.current ∧
    (m.holdTo time).low = m.low ∧ (m.holdTo time).high = m.high ∧
    (m.holdTo time).last = m.last := by
  unfold Measuring.holdTo
  split
  · exact ⟨rfl, rfl, rfl, rfl⟩
  · dsimp only
    split <;> exact ⟨rfl, rfl, rfl, rfl⟩

lemma Measured.holdTo {carried : ℚ} {m : Measuring} (h : Measured start carried samples m)
    (htime : m.cursor ≤ time) : (m.holdTo time).weight = (time - start : ℤ) ∧
      (m.holdTo time).weighted = integral (some carried) samples start time := by
  obtain ⟨held, hheld⟩ := lastOr_some (samples.map Prod.snd) carried
  have hrest : integral (some carried) samples m.cursor time = held * (time - m.cursor : ℤ) :=
    integral_last h.le_cursor htime hheld
  have hall := @integral_add (some carried) samples start m.cursor time h.start_le htime
  have hcurrent : m.current = some held := h.current.trans hheld
  unfold Measuring.holdTo
  simp only [hcurrent]
  split
  · refine ⟨?_, ?_⟩
    · rw [h.weight]
      push_cast
      ring
    · rw [h.weighted, ← hall, hrest]
  · next hspan =>
    obtain rfl : time = m.cursor := by
      have : ¬ 0 < time - m.cursor := by exact_mod_cast hspan
      omega
    exact ⟨h.weight, h.weighted⟩

lemma Measured.take {carried : ℚ} {m : Measuring} {sample : Sample}
    (h : Measured start carried samples m) (hsample : m.cursor ≤ sample.1) :
    Measured start carried (samples ++ [sample]) (m.take sample) := by
  obtain ⟨hweight, hweighted⟩ := h.holdTo hsample
  have hlast : lastOr (some carried) ((samples ++ [sample]).map Prod.snd) = some sample.2 := by
    simp [lastOr]
  refine ⟨hlast.symm, hlast.symm, ?_, ?_, .inr ⟨sample, by simp, rfl⟩, h.start_le.trans hsample,
    ?_, hweight, ?_⟩
  · rw [List.map_append, List.foldl_append]
    exact (congrArg (lowered · sample.2) h.low).trans rfl
  · rw [List.map_append, List.foldl_append]
    exact (congrArg (raised · sample.2) h.high).trans rfl
  · intro other hother
    rcases List.mem_append.1 hother with hother | hother
    · exact (h.le_cursor other hother).trans hsample
    · rw [List.mem_singleton.1 hother]
      exact le_rfl
  · exact hweighted.trans (integral_append le_rfl).symm

lemma Measured.foldl {carried : ℚ} (samples : List Sample) :
    ∀ (taken : List Sample) (m : Measuring),
    Measured start carried taken m → Timeline.Ordered samples →
    (∀ sample ∈ samples, m.cursor ≤ sample.1) →
    Measured start carried (taken ++ samples) (samples.foldl Measuring.take m) := by
  induction samples with
  | nil =>
    intro taken m h _ _
    rw [List.append_nil]
    exact h
  | cons sample samples ih =>
    intro taken m h hordered hcursor
    obtain ⟨hfirst, hrest⟩ := List.pairwise_cons.1 hordered
    rw [List.append_cons]
    exact ih _ _ (h.take (hcursor sample List.mem_cons_self)) hrest hfirst

lemma measurement_eq {carried : ℚ} (hstop : start < stop) (hordered : Timeline.Ordered samples)
    (hwithin : ∀ sample ∈ samples, start ≤ sample.1 ∧ sample.1 < stop) :
    measurement start stop (some carried) samples = some
      { mean := some (integral (some carried) samples start stop / (stop - start : ℤ))
        min := some ((samples.map Prod.snd).foldl Min.min carried)
        max := some ((samples.map Prod.snd).foldl Max.max carried)
        sum := none
        last := lastOr (some carried) (samples.map Prod.snd) } := by
  have hfold : ∀ m, samples.foldl (fun m sample =>
      if sample.1 < start ∨ stop ≤ sample.1 then m else m.take sample) m =
        samples.foldl Measuring.take m := by
    intro m
    refine List.foldl_ext _ _ _ fun m sample hsample => ?_
    have := hwithin sample hsample
    rw [if_neg (by omega)]
  have hfirst : Measured start carried []
      ⟨0, 0, some carried, start, some carried, some carried, some carried⟩ :=
    ⟨rfl, rfl, rfl, rfl, .inl rfl, le_rfl, by simp, by simp, by simp [integral]⟩
  have hmeasured := hfirst.foldl samples [] _ hordered fun sample hsample =>
    (hwithin sample hsample).1
  rw [List.nil_append] at hmeasured
  rw [measurement, if_neg (by omega)]
  dsimp only
  rw [hfold]
  obtain ⟨m, hm⟩ : ∃ m, m = samples.foldl Measuring.take
    ⟨0, 0, some carried, start, some carried, some carried, some carried⟩ := ⟨_, rfl⟩
  rw [← hm] at hmeasured ⊢
  have hcursor : m.cursor ≤ stop := by
    rcases hmeasured.cursor with hcursor | ⟨sample, hsample, hcursor⟩
    · omega
    · have := hwithin sample hsample
      omega
  obtain ⟨hweight, hweighted⟩ := hmeasured.holdTo hcursor
  obtain ⟨-, hlow, hhigh, hlast⟩ := holdTo_kept m stop
  have hpos : (0 : ℚ) < (stop - start : ℤ) := by exact_mod_cast (by omega : 0 < stop - start)
  rw [hweight, hweighted, hlow, hhigh, hlast, hmeasured.low, hmeasured.high, hmeasured.last,
    if_neg (not_le.2 hpos)]

section Absorbing

variable {α : Type} {op : α → α → α} [Std.Associative op] [Std.Commutative op]
  [Std.IdempotentOp op] {a b : α} {l : List α}

lemma foldl_absorbs (hb : b ∈ a :: l) : op (l.foldl op a) b = l.foldl op a := by
  have hcomm : ∀ x y : α, op x y = op y x := Std.Commutative.comm
  have hself : ∀ x y : α, op (op x y) x = op x y := fun x y => by
    have hassoc : op (op x x) y = op x (op x y) := Std.Associative.assoc x x y
    have hidem : op x x = x := Std.IdempotentOp.idempotent x
    rw [hcomm (op x y) x, ← hassoc, hidem]
  induction l generalizing a with
  | nil =>
    rw [List.mem_singleton.1 hb]
    exact Std.IdempotentOp.idempotent a
  | cons c l ih =>
    rw [List.foldl_cons]
    rcases List.mem_cons.1 hb with rfl | hb
    · rw [List.foldl_assoc]
      exact hself _ _
    rcases List.mem_cons.1 hb with rfl | hb
    · rw [hcomm a b, List.foldl_assoc]
      exact hself _ _
    · exact ih (List.mem_cons_of_mem _ hb)

lemma foldl_append_absorbs (hb : b ∈ a :: l) (more : List α) :
    op (l.foldl op a) (more.foldl op b) = (l ++ more).foldl op a := by
  have habsorbs : op (l.foldl op a) b = l.foldl op a := foldl_absorbs hb
  calc op (l.foldl op a) (more.foldl op b)
    _ = more.foldl op (op (l.foldl op a) b) := List.foldl_assoc.symm
    _ = (l ++ more).foldl op a := by rw [habsorbs, List.foldl_append]

end Absorbing

lemma lastOr_mem {values : List ℚ} {carried : ℚ} (h : lastOr (some carried) values = some held) :
    held ∈ carried :: values := by
  unfold lastOr at h
  cases hlast : values.getLast? with
  | none =>
    rw [hlast, Option.none_or, Option.some.injEq] at h
    rw [h]
    exact List.mem_cons_self
  | some last =>
    rw [hlast, Option.some_or, Option.some.injEq] at h
    rw [← h]
    exact List.mem_cons_of_mem _ (List.mem_of_getLast? hlast)

lemma lowered_append {low : Option ℚ} {carried : ℚ} {before : List ℚ}
    (hheld : held ∈ carried :: before)
    (hlow : before = [] ∧ low = none ∨ low = some (before.foldl Min.min carried))
    (more : List ℚ) : lowered low (more.foldl Min.min held) =
      some ((before ++ more).foldl Min.min carried) := by
  rcases hlow with ⟨rfl, rfl⟩ | rfl
  · rw [List.mem_singleton.1 hheld]
    rfl
  · have habsorbs : min (before.foldl Min.min carried) (more.foldl Min.min held) =
        (before ++ more).foldl Min.min carried := foldl_append_absorbs hheld more
    exact congrArg some habsorbs

lemma raised_append {high : Option ℚ} {carried : ℚ} {before : List ℚ}
    (hheld : held ∈ carried :: before)
    (hhigh : before = [] ∧ high = none ∨ high = some (before.foldl Max.max carried))
    (more : List ℚ) : raised high (more.foldl Max.max held) =
      some ((before ++ more).foldl Max.max carried) := by
  rcases hhigh with ⟨rfl, rfl⟩ | rfl
  · rw [List.mem_singleton.1 hheld]
    rfl
  · have habsorbs : max (before.foldl Max.max carried) (more.foldl Max.max held) =
        (before ++ more).foldl Max.max carried := foldl_append_absorbs hheld more
    exact congrArg some habsorbs

/-- What `n` rows of a measurement roll up to. -/
structure Rolled (start : ℤ) (carried : ℚ) (samples : List Sample) (n : ℕ) (r : Rolling) :
    Prop where
  meanSum : r.meanSum = integral (some carried) samples start (start + n * fiveMin) / fiveMin
  meanCount : r.meanCount = n
  low : n = 0 ∧ r.low = none ∨
    r.low = some ((numbersBefore samples (start + n * fiveMin)).foldl Min.min carried)
  high : n = 0 ∧ r.high = none ∨
    r.high = some ((numbersBefore samples (start + n * fiveMin)).foldl Max.max carried)
  sum : r.sum = none
  last : n = 0 ∨ r.last = heldBefore (some carried) samples (start + n * fiveMin)

lemma row_eq {carried : ℚ} (hordered : Timeline.Ordered samples) (a : ℤ)
    (hheld : heldBefore (some carried) samples a = some held) :
    period .measurement a (heldBefore (some carried) samples a)
      (Timeline.between samples a (a + fiveMin)) = some
      { mean := some (integral (some carried) samples a (a + fiveMin) / fiveMin)
        min := some (((Timeline.between samples a (a + fiveMin)).map Prod.snd).foldl Min.min held)
        max := some (((Timeline.between samples a (a + fiveMin)).map Prod.snd).foldl Max.max held)
        sum := none
        last := heldBefore (some carried) samples (a + fiveMin) } := by
  have hpos : a < a + fiveMin := by
    unfold fiveMin
    omega
  rw [period, hheld, measurement_eq hpos (hordered.between _ _)
    fun sample hsample => (Timeline.mem_between.1 hsample).2, ← hheld, integral_between hordered,
    heldBefore_eq, ← lastOr_append, ← numbersBefore_append hordered hpos.le, ← heldBefore_eq,
    add_sub_cancel_left]

lemma rows_succ {n : ℕ} {part : Stat}
    (hpart : period kind (start + n * fiveMin) (heldBefore carry samples (start + n * fiveMin))
      (Timeline.between samples (start + n * fiveMin) (start + (n + 1 : ℕ) * fiveMin)) =
        some part) :
    rows kind start carry samples (n + 1) = rows kind start carry samples n ++ [part] := by
  rw [rows, List.range_succ, List.filterMap_append]
  simp only [List.filterMap_cons, List.filterMap_nil, hpart]
  rfl

lemma rows_none {n : ℕ}
    (hpart : period kind (start + n * fiveMin) (heldBefore carry samples (start + n * fiveMin))
      (Timeline.between samples (start + n * fiveMin) (start + (n + 1 : ℕ) * fiveMin)) = none) :
    rows kind start carry samples (n + 1) = rows kind start carry samples n := by
  rw [rows, List.range_succ, List.filterMap_append]
  simp only [List.filterMap_cons, List.filterMap_nil, hpart, List.append_nil]
  rfl

lemma step_eq (start : ℤ) (n : ℕ) :
    start + (n + 1 : ℕ) * fiveMin = start + n * fiveMin + fiveMin := by
  push_cast
  ring

lemma rolled_rows {carried : ℚ} (hordered : Timeline.Ordered samples)
    (hstart : ∀ sample ∈ samples, start ≤ sample.1) (n : ℕ) :
    (rows .measurement start (some carried) samples n).length = n ∧
    Rolled start carried samples n ((rows .measurement start (some carried) samples n).foldl
      Rolling.take ⟨0, 0, none, none, none, none⟩) := by
  induction n with
  | zero =>
    exact ⟨rfl, by simp [rows, integral], rfl, .inl ⟨rfl, rfl⟩, .inl ⟨rfl, rfl⟩, rfl, .inl rfl⟩
  | succ n ih =>
    obtain ⟨hlength, h⟩ := ih
    obtain ⟨held, hheld⟩ := lastOr_some (numbersBefore samples (start + n * fiveMin)) carried
    have hmem := lastOr_mem hheld
    have hnext := step_eq start n
    obtain ⟨a, ha⟩ : ∃ a, a = start + n * fiveMin := ⟨_, rfl⟩
    rw [← ha] at hheld hmem hnext
    have hpart := row_eq hordered a ((heldBefore_eq _ _ _).trans hheld)
    have hpos : a ≤ a + fiveMin := by
      unfold fiveMin
      omega
    have hnumbers := numbersBefore_append hordered hpos
    have hempty : n = 0 → numbersBefore samples a = [] := by
      rintro rfl
      exact numbersBefore_start hstart (by simp [ha])
    rw [rows_succ (by rw [hnext, ← ha]; exact hpart), List.length_append, hlength,
      List.foldl_append]
    refine ⟨rfl, ?_⟩
    obtain ⟨hmeanSum, hmeanCount, hlow, hhigh, hsum, -⟩ := h
    rw [← ha] at hmeanSum hlow hhigh
    have hstarta : start ≤ a := by
      have : (0 : ℤ) ≤ n * fiveMin := mul_nonneg (by positivity) (by decide)
      omega
    refine ⟨?_, ?_, .inr ?_, .inr ?_, hsum, .inr ?_⟩
    · simp only [List.foldl_cons, List.foldl_nil, Rolling.take, Option.elim_some, hmeanSum, hnext]
      rw [← add_div, integral_add hstarta hpos]
    · simp only [List.foldl_cons, List.foldl_nil, Rolling.take, Option.isSome_some, if_true,
        hmeanCount]
      push_cast
      rfl
    · simp only [List.foldl_cons, List.foldl_nil, Rolling.take, Option.elim_some, hnext, hnumbers]
      exact lowered_append hmem (hlow.imp_left fun h => ⟨hempty h.1, h.2⟩) _
    · simp only [List.foldl_cons, List.foldl_nil, Rolling.take, Option.elim_some, hnext, hnumbers]
      exact raised_append hmem (hhigh.imp_left fun h => ⟨hempty h.1, h.2⟩) _
    · obtain ⟨last, hlast⟩ := lastOr_some (numbersBefore samples (a + fiveMin)) carried
      rw [← heldBefore_eq] at hlast
      simp only [List.foldl_cons, List.foldl_nil, Rolling.take, hnext, hlast, Option.some_or]

lemma integral_bounds {carried low high : ℚ} (hlow : ∀ v ∈ carried :: samples.map Prod.snd, low ≤ v)
    (hhigh : ∀ v ∈ carried :: samples.map Prod.snd, v ≤ high) (hstop : start ≤ stop) :
    low * (stop - start : ℤ) ≤ integral (some carried) samples start stop ∧
      integral (some carried) samples start stop ≤ high * (stop - start : ℤ) := by
  have hvalue : ∀ time, valueAt (some carried) samples time ∈ carried :: samples.map Prod.snd := by
    intro time
    obtain ⟨held, hheld⟩ := lastOr_some (numbersBefore samples (time + 1)) carried
    rw [valueAt, heldBefore_eq, hheld, Option.getD_some]
    refine (List.Sublist.cons_cons _ ?_).mem (lastOr_mem hheld)
    exact List.filter_sublist.map _
  have hcard : ((Finset.Ico start stop).card : ℚ) = (stop - start : ℤ) := by
    rw [Int.card_Ico]
    exact_mod_cast congrArg (Int.cast (R := ℚ)) (Int.toNat_of_nonneg (by omega))
  constructor
  · have := Finset.card_nsmul_le_sum (Finset.Ico start stop) (valueAt (some carried) samples) low
      fun time _ => hlow _ (hvalue time)
    rwa [nsmul_eq_mul, hcard, mul_comm] at this
  · have := Finset.sum_le_card_nsmul (Finset.Ico start stop) (valueAt (some carried) samples) high
      fun time _ => hhigh _ (hvalue time)
    rwa [nsmul_eq_mul, hcard, mul_comm] at this

def gain (kind : StateClass) (before : Option ℚ) (value : ℚ) : ℚ :=
  match before with
  | none => 0
  | some before =>
    if kind = .totalIncreasing ∧ value - before < 0 then value else value - before

def gains (kind : StateClass) : Option ℚ → List ℚ → ℚ
  | _, [] => 0
  | before, value :: values => gain kind before value + gains kind (some value) values

lemma lastOr_cons (value : ℚ) (values : List ℚ) :
    lastOr carry (value :: values) = lastOr (some value) values :=
  lastOr_append [value] values

lemma gains_append (values more : List ℚ) : ∀ before, gains kind before (values ++ more) =
    gains kind before values + gains kind (lastOr before values) more := by
  induction values with
  | nil =>
    intro before
    simp [gains, lastOr]
  | cons value values ih =>
    intro before
    rw [List.cons_append, gains, gains, ih, lastOr_cons, add_assoc]

lemma counting_take (hkind : kind ≠ .measurement) (c : Counting) (sample : Sample) :
    ∃ moved, c.take kind sample =
      some ⟨c.sum + gain kind c.previous sample.2, some sample.2, some sample.2, moved⟩ ∧
      (moved = false → c.moved = false ∧ gain kind c.previous sample.2 = 0) := by
  unfold Counting.take gain
  cases hprevious : c.previous with
  | none => exact ⟨c.moved, by simp, fun h => ⟨h, rfl⟩⟩
  | some before =>
    refine ⟨true, ?_, by simp⟩
    cases kind with
    | measurement => exact absurd rfl hkind
    | total => simp
    | totalIncreasing =>
      by_cases hdelta : 0 ≤ sample.2 - before
      · simp [hdelta, not_lt.2 hdelta]
      · simp [hdelta, not_le.1 hdelta]

lemma counting_foldlM (hkind : kind ≠ .measurement) (samples : List Sample) : ∀ c : Counting,
    (c.moved = false → c.sum = 0) →
    ∃ previous moved, samples.foldlM (Counting.take kind) c =
      some ⟨c.sum + gains kind c.previous (samples.map Prod.snd), previous,
        lastOr c.last (samples.map Prod.snd), moved⟩ ∧
      (moved = false → c.sum + gains kind c.previous (samples.map Prod.snd) = 0) := by
  induction samples with
  | nil =>
    intro c hmoved
    refine ⟨c.previous, c.moved, ?_, fun h => ?_⟩
    · simp [gains, lastOr]
    · simp [gains, hmoved h]
  | cons sample samples ih =>
    intro c hmoved
    obtain ⟨moved, htake, hstill⟩ := counting_take hkind c sample
    obtain ⟨previous, moved', hfold, hzero⟩ := ih
      ⟨c.sum + gain kind c.previous sample.2, some sample.2, some sample.2, moved⟩
      fun h => by simp [hmoved (hstill h).1, (hstill h).2]
    refine ⟨previous, moved', ?_, fun h => ?_⟩
    · rw [List.foldlM_cons, htake, List.map_cons, gains, lastOr_cons, ← add_assoc]
      exact hfold
    · rw [List.map_cons, gains, ← add_assoc]
      exact hzero h

lemma change_eq (hkind : kind ≠ .measurement) (h : carry.isSome ∨ samples ≠ []) :
    ∃ sum : Option ℚ, change kind carry samples =
      some ⟨none, none, none, sum, lastOr carry (samples.map Prod.snd)⟩ ∧
      sum.getD 0 = gains kind carry (samples.map Prod.snd) := by
  obtain ⟨previous, moved, hfold, hzero⟩ :=
    counting_foldlM hkind samples ⟨0, carry, carry, false⟩ fun _ => rfl
  dsimp only at hfold hzero
  rw [zero_add] at hfold hzero
  have hsome : ¬ (carry.isNone ∧ samples.isEmpty) := by
    rintro ⟨hnone, hempty⟩
    rcases h with h | h
    · simp [Option.isNone_iff_eq_none.1 (by simpa using hnone)] at h
    · exact h (by simpa using hempty)
  rw [change, if_neg (by simpa using hsome), hfold]
  refine ⟨_, rfl, ?_⟩
  dsimp only
  split
  · rfl
  · next hmoved =>
    rw [Bool.or_eq_true, not_or, Bool.not_eq_true] at hmoved
    exact (hzero hmoved.1).symm

lemma change_none : change kind none [] = none := by
  rw [change, if_pos (by simp)]

lemma period_total (hkind : kind ≠ .measurement) (start : ℤ) (samples : List Sample) :
    period kind start carry samples = change kind carry samples := by
  cases kind with
  | measurement => exact absurd rfl hkind
  | total => rfl
  | totalIncreasing => rfl

structure RolledTotal (kind : StateClass) (start : ℤ) (carry : Option ℚ) (samples : List Sample)
    (n : ℕ) (r : Rolling) : Prop where
  meanCount : r.meanCount = 0
  sum : r.sum.getD 0 = gains kind carry (numbersBefore samples (start + n * fiveMin))
  last : n = 0 ∧ r.last = none ∨ r.last = heldBefore carry samples (start + n * fiveMin)

lemma rolled_totals (hkind : kind ≠ .measurement) (hordered : Timeline.Ordered samples)
    (hstart : ∀ sample ∈ samples, start ≤ sample.1) (n : ℕ) :
    RolledTotal kind start carry samples n ((rows kind start carry samples n).foldl
      Rolling.take ⟨0, 0, none, none, none, none⟩) := by
  induction n with
  | zero =>
    refine ⟨rfl, ?_, .inl ⟨rfl, rfl⟩⟩
    rw [numbersBefore_start hstart (by simp)]
    rfl
  | succ n ih =>
    have hnext := step_eq start n
    obtain ⟨a, ha⟩ : ∃ a, a = start + n * fiveMin := ⟨_, rfl⟩
    rw [← ha] at hnext
    have hpos : a ≤ a + fiveMin := by
      unfold fiveMin
      omega
    have hnumbers := numbersBefore_append hordered hpos
    obtain ⟨hmeanCount, hsum, hlast⟩ := ih
    rw [← ha] at hsum hlast
    by_cases hsome : (heldBefore carry samples a).isSome ∨
        Timeline.between samples a (a + fiveMin) ≠ []
    · obtain ⟨sum, hchange, hgains⟩ := change_eq hkind hsome
      rw [rows_succ (by rw [hnext, ← ha, period_total hkind]; exact hchange), List.foldl_append]
      refine ⟨hmeanCount, ?_, .inr ?_⟩
      · rw [hnext, hnumbers, gains_append, ← hsum, ← heldBefore_eq, ← hgains]
        cases sum <;> simp [Rolling.take]
      · obtain ⟨last, hrow⟩ := lastOr_isSome
          (hsome.imp_right fun h => List.map_eq_nil_iff.not.2 h)
        rw [hnext, heldBefore_next hordered hpos, hrow]
        rfl
    · rw [not_or, not_not, Bool.not_eq_true, Option.isSome_eq_false_iff,
        Option.isNone_iff_eq_none] at hsome
      obtain ⟨hheld, hbetween⟩ := hsome
      have hrows : rows kind start carry samples (n + 1) = rows kind start carry samples n := by
        refine rows_none ?_
        rw [hnext, ← ha, hheld, hbetween, period_total hkind, change_none]
      rw [hrows]
      refine ⟨hmeanCount, ?_, ?_⟩
      · rw [hnext, hnumbers, hbetween, List.map_nil, List.append_nil]
        exact hsum
      · rw [hnext, heldBefore_next hordered hpos, hheld, hbetween]
        rcases hlast with hlast | hlast
        · exact .inr hlast.2
        · exact .inr (hlast.trans hheld)

lemma rollup_last (parts : List Stat) {r : Rolling}
    (hr : r = parts.foldl Rolling.take ⟨0, 0, none, none, none, none⟩) (hmean : r.meanCount = 0) :
    (rollup parts).bind Stat.sum = r.sum ∧ (rollup parts).bind Stat.last = r.last ∧
      ((rollup parts).isSome ↔ r.sum.isSome ∨ r.last.isSome) := by
  unfold rollup
  split
  · next hempty =>
    obtain rfl : parts = [] := by simpa using hempty
    subst hr
    simp
  · dsimp only
    rw [← hr]
    split
    · next hnone =>
      obtain ⟨-, hsum, hlast⟩ := hnone
      rw [Option.isNone_iff_eq_none] at hsum hlast
      simp [hsum, hlast]
    · next hsome =>
      refine ⟨rfl, rfl, ?_⟩
      rw [hmean] at hsome
      cases hsum : r.sum <;> cases hlast : r.last <;> simp_all

lemma hour_eq (start : ℤ) : start + (12 : ℕ) * fiveMin = start + hour := by
  unfold hour
  push_cast
  ring

lemma rollup_total {start : ℤ} {samples : List Sample} (hordered : Timeline.Ordered samples)
    (hwithin : ∀ sample ∈ samples, start ≤ sample.1 ∧ sample.1 < start + hour)
    (hkind : kind ≠ .measurement) :
    ((rollup (rows kind start carry samples 12)).bind Stat.sum).getD 0 =
        ((change kind carry samples).bind Stat.sum).getD 0 ∧
      (rollup (rows kind start carry samples 12)).bind Stat.last =
        (change kind carry samples).bind Stat.last ∧
      (rollup (rows kind start carry samples 12)).isSome = (change kind carry samples).isSome := by
  by_cases hsome : carry.isSome ∨ samples ≠ []
  · obtain ⟨r, hr⟩ : ∃ r, r = (rows kind start carry samples 12).foldl
      Rolling.take ⟨0, 0, none, none, none, none⟩ := ⟨_, rfl⟩
    obtain ⟨hmeanCount, hsum, hlast⟩ := hr ▸
      rolled_totals hkind hordered (fun sample hsample => (hwithin sample hsample).1) 12
    obtain ⟨hrollSum, hrollLast, hrollSome⟩ := rollup_last _ hr hmeanCount
    have hnumbers : numbersBefore samples (start + hour) = samples.map Prod.snd :=
      numbersBefore_stop fun sample hsample => (hwithin sample hsample).2
    rw [hour_eq, heldBefore_eq, hnumbers] at hlast
    rw [hour_eq, hnumbers] at hsum
    have hrlast := hlast.resolve_left fun h => absurd h.1 (by decide)
    obtain ⟨sum, hchange, hgains⟩ := change_eq hkind hsome
    obtain ⟨last, hvalue⟩ := lastOr_isSome (hsome.imp_right fun h => List.map_eq_nil_iff.not.2 h)
    refine ⟨?_, ?_, ?_⟩
    · rw [hrollSum, hsum, hchange]
      exact hgains.symm
    · rw [hrollLast, hrlast, hchange]
      rfl
    · rw [hchange, Option.isSome_some]
      exact hrollSome.2 (.inr (by rw [hrlast, hvalue]; rfl))
  · -- Nothing was carried and nothing was read: there is no row.
    rw [not_or, not_not, Bool.not_eq_true, Option.isSome_eq_false_iff,
      Option.isNone_iff_eq_none] at hsome
    obtain ⟨rfl, rfl⟩ := hsome
    have hrows : rows kind start none [] 12 = [] := by
      rw [rows, List.filterMap_eq_nil_iff]
      intro n _
      rw [period_total hkind]
      exact change_none
    rw [hrows, change_none]
    exact ⟨rfl, rfl, rfl⟩

lemma rollup_measurement {start : ℤ} {samples : List Sample} (hordered : Timeline.Ordered samples)
    (hwithin : ∀ sample ∈ samples, start ≤ sample.1 ∧ sample.1 < start + hour) (carried : ℚ) :
    rollup (rows .measurement start (some carried) samples 12) = some
      { mean := some (integral (some carried) samples start (start + hour) / hour)
        min := some ((samples.map Prod.snd).foldl Min.min carried)
        max := some ((samples.map Prod.snd).foldl Max.max carried)
        sum := none
        last := lastOr (some carried) (samples.map Prod.snd) } := by
  obtain ⟨hlength, h⟩ :=
    rolled_rows hordered (fun sample hsample => (hwithin sample hsample).1) 12
  obtain ⟨r, hr⟩ : ∃ r, r = (rows .measurement start (some carried) samples 12).foldl
    Rolling.take ⟨0, 0, none, none, none, none⟩ := ⟨_, rfl⟩
  rw [← hr] at h
  obtain ⟨hmeanSum, hmeanCount, hlow, hhigh, hsum, hlast⟩ := h
  have hnumbers : numbersBefore samples (start + hour) = samples.map Prod.snd :=
    numbersBefore_stop fun sample hsample => (hwithin sample hsample).2
  rw [hour_eq] at hmeanSum
  rw [hour_eq, hnumbers] at hlow hhigh
  rw [hour_eq, heldBefore_eq, hnumbers] at hlast
  have hlow' := hlow.resolve_left fun h => absurd h.1 (by decide)
  have hhigh' := hhigh.resolve_left fun h => absurd h.1 (by decide)
  have hlast' := hlast.resolve_left (by decide)
  rw [rollup, if_neg (by rw [List.isEmpty_iff_length_eq_zero, hlength]; decide)]
  dsimp only
  rw [← hr, hmeanCount, hlow', hhigh', hsum, hlast', hmeanSum,
    if_neg (fun h => absurd h.1 (by decide)), if_pos (by decide), div_div]
  norm_num [hour, fiveMin]

/-- An hour rolled up from its twelve rows comes to what it does summed up at once. -/
theorem rollup_hour (start : ℤ) (samples : List Sample) (hordered : Timeline.Ordered samples)
    (hwithin : ∀ sample ∈ samples, start ≤ sample.1 ∧ sample.1 < start + hour) :
    (∀ (kind : StateClass) (carry : Option ℚ), kind ≠ .measurement →
      ((rollup (rows kind start carry samples 12)).bind Stat.sum).getD 0 =
          ((change kind carry samples).bind Stat.sum).getD 0 ∧
        (rollup (rows kind start carry samples 12)).bind Stat.last =
          (change kind carry samples).bind Stat.last ∧
        (rollup (rows kind start carry samples 12)).isSome =
          (change kind carry samples).isSome) ∧
    ∀ carried : ℚ, ∃ mean low high : ℚ, ∃ last : Option ℚ,
      rollup (rows .measurement start (some carried) samples 12) =
        some ⟨some mean, some low, some high, none, last⟩ ∧
      measurement start (start + hour) (some carried) samples =
        some ⟨some mean, some low, some high, none, last⟩ ∧
      mean = integral (some carried) samples start (start + hour) / hour ∧
      low ≤ mean ∧ mean ≤ high := by
  refine ⟨fun kind carry hkind => rollup_total hordered hwithin hkind, fun carried => ?_⟩
  have hpos : start < start + hour := by
    unfold hour fiveMin
    omega
  have hspan : ((start + hour - start : ℤ) : ℚ) = hour := by
    rw [add_sub_cancel_left]
  have hhour : (0 : ℚ) < (hour : ℤ) := by decide
  have hlow : ∀ v ∈ carried :: samples.map Prod.snd,
      (samples.map Prod.snd).foldl Min.min carried ≤ v := fun v hv => by
    rw [← foldl_absorbs hv]
    exact min_le_right _ _
  have hhigh : ∀ v ∈ carried :: samples.map Prod.snd,
      v ≤ (samples.map Prod.snd).foldl Max.max carried := fun v hv => by
    rw [← foldl_absorbs hv]
    exact le_max_right _ _
  obtain ⟨hbelow, habove⟩ := integral_bounds hlow hhigh hpos.le
  rw [hspan] at hbelow habove
  refine ⟨_, _, _, _, rollup_measurement hordered hwithin carried, ?_, rfl,
    (le_div_iff₀ hhour).2 hbelow, (div_le_iff₀ hhour).2 habove⟩
  rw [measurement_eq hpos hordered hwithin, hspan]

def twoReadings : List Sample := [(60000000000, 20), (300000000000, 8)]

theorem rollup_hour_reset :
    ((rollup (rows .totalIncreasing 0 (some 5) twoReadings 12)).bind Stat.sum).getD 0 =
        ((change .totalIncreasing (some 5) twoReadings).bind Stat.sum).getD 0 ∧
      (rollup (rows .totalIncreasing 0 (some 5) twoReadings 12)).bind Stat.last =
        (change .totalIncreasing (some 5) twoReadings).bind Stat.last :=
  let h := (rollup_hour 0 twoReadings (by simp [twoReadings])
    (by simp [twoReadings, hour, fiveMin])).1 .totalIncreasing (some 5) (by decide)
  ⟨h.1, h.2.1⟩

end Irori.Proofs
