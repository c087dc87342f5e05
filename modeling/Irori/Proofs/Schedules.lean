import Irori.Helpers.Schedule

/-!
# A schedule follows its week

What a schedule says of an instant is read off the wall: a search for the next edge among those
of the next eight days, and the edge taken back to an instant. The search finds the first wall
time at which the week turns. The instant it is taken back to is the first at which the clocks
show the turn, as long as the clocks do nothing in between that matters to the week.
-/

namespace Irori.Proofs
open Irori Helpers

section Turns

variable (P : Int → Prop)

/-- `e` is the first after `a` at which `P` is not what it is at `a`. -/
structure SwitchesAt (a e : Int) : Prop where
  after : a < e
  turned : ¬ (P e ↔ P a)
  before : ∀ x, a ≤ x → x < e → (P x ↔ P a)

variable {P}

lemma exists_turnsAt {a x : Int} (hax : a ≤ x) (hx : ¬ (P x ↔ P a)) :
    ∃ e, e ≤ x ∧ SwitchesAt P a e := by
  classical
  obtain ⟨n, rfl⟩ := Int.le.dest hax
  have hex : ∃ k : ℕ, ¬ (P (a + k) ↔ P a) := ⟨n, hx⟩
  refine ⟨a + (Nat.find hex : ℕ), ?_, ⟨?_, Nat.find_spec hex, fun y hay hye => ?_⟩⟩
  · have hle : Nat.find hex ≤ n := Nat.find_min' hex hx
    omega
  · have hpos : Nat.find hex ≠ 0 := by
      intro h0
      have hspec := Nat.find_spec hex
      rw [h0] at hspec
      simp at hspec
    omega
  · obtain ⟨k, rfl⟩ := Int.le.dest hay
    have hk : k < Nat.find hex := by omega
    exact not_not.1 (Nat.find_min hex hk)

lemma same_of_before {a x : Int} (hax : a ≤ x) (hx : ∀ e, SwitchesAt P a e → x < e) :
    P x ↔ P a := by
  by_contra hne
  obtain ⟨e, hex, he⟩ := exists_turnsAt hax hne
  exact absurd (hx e he) (by omega)

end Turns

/-- Whether `wall` is inside one of its day's times, to the nanosecond. -/
def Inside (schedule : Schedule) (wall : Int) : Prop :=
  ∃ times ∈ schedule.times (WallTime.weekdayOf (WallTime.date wall)), ∃ start stop : DaySeconds,
    secondsOf times.1 = .ok start ∧ secondsOf times.2 = .ok stop ∧
      start.1 * 1000000000 ≤ WallTime.intoDay wall ∧ WallTime.intoDay wall < stop.1 * 1000000000

lemma mem_of_mapM {α β ε : Type} {f : α → Except ε β} {as : List α} {bs : List β}
    (h : as.mapM f = .ok bs) (b : β) : b ∈ bs ↔ ∃ a ∈ as, f a = .ok b := by
  induction as generalizing bs with
  | nil =>
    obtain rfl : [] = bs := by simpa [pure, Except.pure] using h
    simp
  | cons a as ih =>
    rw [List.mapM_cons] at h
    cases hfa : f a with
    | error e => simp [hfa, bind, Except.bind] at h
    | ok b' =>
      cases hrest : as.mapM f with
      | error e => simp [hfa, hrest, bind, Except.bind] at h
      | ok bs' =>
        obtain rfl : b' :: bs' = bs := by
          simpa [hfa, hrest, bind, Except.bind, pure, Except.pure] using h
        simp only [List.mem_cons, ih hrest, exists_eq_or_imp, hfa, Except.ok.injEq]
        exact or_congr_left eq_comm

lemma mem_dayOf {day : Weekday} {times : List (String × String)} {read : Day}
    (h : dayOf day times = .ok read) (block : Block) :
    block ∈ read.1 ↔ ∃ pair ∈ times, Block.of day pair = .ok block := by
  unfold dayOf at h
  cases hm : times.mapM (Block.of day) with
  | error why => simp [hm] at h
  | ok blocks =>
    simp only [hm] at h
    split at h
    · obtain rfl := Except.ok.inj h
      rw [List.mem_insertionSort]
      exact mem_of_mapM hm block
    · cases h

lemma block_of {day : Weekday} {times : String × String} {block : Block}
    (h : Block.of day times = .ok block) :
    ∃ start stop : DaySeconds, secondsOf times.1 = .ok start ∧ secondsOf times.2 = .ok stop ∧
      block.start = start.1 ∧ block.stop = stop.1 := by
  unfold Block.of at h
  cases hs : secondsOf times.1 with
  | error why => simp [hs] at h
  | ok start =>
    cases he : secondsOf times.2 with
    | error why => simp [hs, he] at h
    | ok stop =>
      simp only [hs, he] at h
      split at h
      · obtain rfl := Except.ok.inj h
        exact ⟨start, stop, rfl, rfl, rfl, rfl⟩
      · cases h

lemma dayOf_week {schedule : Schedule} {week : Week} (h : Week.of schedule = .ok week)
    (day : Weekday) : dayOf day (schedule.times day) = .ok (week.day day) := by
  unfold Week.of at h
  split at h
  · cases h
  rename_i mon hmon
  split at h
  · cases h
  rename_i tue htue
  split at h
  · cases h
  rename_i wed hwed
  split at h
  · cases h
  rename_i thu hthu
  split at h
  · cases h
  rename_i fri hfri
  split at h
  · cases h
  rename_i sat hsat
  split at h
  · cases h
  rename_i sun hsun
  obtain rfl := Except.ok.inj h
  cases day <;> assumption

lemma contains_iff (block : Block) (wall : Int) :
    block.contains (WallTime.secondsInto wall) = true ↔
      block.start * 1000000000 ≤ WallTime.intoDay wall ∧ WallTime.intoDay wall < block.stop * 1000000000 := by
  unfold Block.contains WallTime.secondsInto
  simp only [Bool.and_eq_true, decide_eq_true_eq]
  omega

lemma on_iff_inside {schedule : Schedule} {week : Week} (h : Week.of schedule = .ok week)
    (wall : Int) : week.on wall = true ↔ Inside schedule wall := by
  have hday := dayOf_week h (WallTime.weekdayOf (WallTime.date wall))
  unfold Week.on Week.blocks Inside
  simp only [List.any_eq_true, contains_iff]
  constructor
  · rintro ⟨block, hmem, hin⟩
    obtain ⟨times, htimes, hof⟩ := (mem_dayOf hday block).1 hmem
    obtain ⟨start, stop, hstart, hstop, hs, he⟩ := block_of hof
    exact ⟨times, htimes, start, stop, hstart, hstop, by simpa [hs, he] using hin⟩
  · rintro ⟨times, htimes, start, stop, hstart, hstop, hin⟩
    have hlt : start.1 < stop.1 := by
      have hlt := hin.1.trans_lt hin.2
      omega
    have hof : Block.of (WallTime.weekdayOf (WallTime.date wall)) times =
        .ok ⟨start.1, stop.1, hlt, stop.2⟩ := by
      simp [Block.of, hstart, hstop, hlt]
    exact ⟨_, (mem_dayOf hday _).2 ⟨times, htimes, hof⟩, hin⟩

section Edges

variable (week : Week)

lemma on_weekLater (wall : Int) : week.on (wall + 7 * dayNanos) = week.on wall := by
  have hdate : WallTime.date (wall + 7 * dayNanos) = WallTime.date wall + 7 := by
    unfold WallTime.date dayNanos
    omega
  have hseconds : WallTime.secondsInto (wall + 7 * dayNanos) = WallTime.secondsInto wall := by
    unfold WallTime.secondsInto WallTime.intoDay dayNanos
    omega
  have hweekday : WallTime.weekdayOf (WallTime.date wall + 7) = WallTime.weekdayOf (WallTime.date wall) := by
    unfold WallTime.weekdayOf
    rw [show (WallTime.date wall + 7 + 3) % 7 = (WallTime.date wall + 3) % 7 by omega]
  unfold Week.on Week.blocks
  rw [hdate, hseconds, hweekday]

lemma edge_of_turn (wall : Int) (h : week.on wall ≠ week.on (wall - 1)) :
    ∃ date : Int, date * dayNanos ≤ wall ∧ wall ≤ (date + 1) * dayNanos ∧
      ∃ block ∈ week.blocks date, wall = date * dayNanos + block.start * 1000000000 ∨
        wall = date * dayNanos + block.stop * 1000000000 := by
  let within (block : Block) (x : Int) : Prop :=
    block.start * 1000000000 ≤ WallTime.intoDay x ∧ WallTime.intoDay x < block.stop * 1000000000
  have hon : ∀ x : Int, week.on x = true ↔ ∃ block ∈ week.blocks (WallTime.date x), within block x :=
    fun x => by simp [Week.on, contains_iff, within]
  have hne : ¬ (week.on wall = true ↔ week.on (wall - 1) = true) := fun hiff =>
    h (Bool.eq_iff_iff.2 hiff)
  rw [hon, hon] at hne
  have hspan : WallTime.date wall * dayNanos ≤ wall ∧ wall < (WallTime.date wall + 1) * dayNanos ∧
      wall = WallTime.date wall * dayNanos + WallTime.intoDay wall := by
    unfold WallTime.date WallTime.intoDay dayNanos
    omega
  have hdays : WallTime.date (wall - 1) = WallTime.date wall ∧
        WallTime.intoDay (wall - 1) = WallTime.intoDay wall - 1 ∨
      WallTime.date (wall - 1) = WallTime.date wall - 1 ∧ WallTime.intoDay wall = 0 ∧
        WallTime.intoDay (wall - 1) = dayNanos - 1 := by
    unfold WallTime.date WallTime.intoDay dayNanos
    omega
  rcases hdays with ⟨hdate, hinto⟩ | ⟨hdate, hmidnight, hinto⟩
  · -- the same day: a block has one of the two and not the other
    rw [hdate] at hne
    obtain ⟨block, hmem, hblock⟩ : ∃ block ∈ week.blocks (WallTime.date wall),
        ¬ (within block wall ↔ within block (wall - 1)) := by
      by_contra hall
      push Not at hall
      exact hne (exists_congr fun block => and_congr_right fun hmem => hall block hmem)
    refine ⟨WallTime.date wall, hspan.1, hspan.2.1.le, block, hmem, ?_⟩
    simp only [within, hinto] at hblock
    omega
  · by_cases hstarts : ∃ block ∈ week.blocks (WallTime.date wall), within block wall
    · -- midnight, and a block starts the day
      obtain ⟨block, hmem, hin⟩ := hstarts
      refine ⟨WallTime.date wall, hspan.1, hspan.2.1.le, block, hmem, Or.inl ?_⟩
      have hstart := hin.1
      omega
    · -- midnight, and a block ended the day before
      have hended : ∃ block ∈ week.blocks (WallTime.date (wall - 1)), within block (wall - 1) := by
        by_contra hnone
        exact hne ⟨fun hs => absurd hs hstarts, fun hs => absurd hs hnone⟩
      obtain ⟨block, hmem, hin⟩ := hended
      have hstop := hin.2
      have hday := block.inDay
      rw [hinto] at hstop
      refine ⟨WallTime.date (wall - 1), ?_, ?_, block, hmem, Or.inr ?_⟩ <;>
        simp only [hdate, dayNanos] at * <;> omega

lemma mem_dedup (l : List Int) (x : Int) : x ∈ dedup l ↔ x ∈ l := by
  fun_induction dedup l with
  | case1 => rfl
  | case2 => rfl
  | case3 a rest ih => simp_all
  | case4 a b rest hab ih => simp_all

lemma pairwise_dedup {l : List Int} (h : l.Pairwise (· ≤ ·)) : (dedup l).Pairwise (· ≤ ·) := by
  fun_induction dedup l with
  | case1 => exact h
  | case2 => exact h
  | case3 a rest ih => exact ih h.of_cons
  | case4 a b rest hab ih =>
    refine List.pairwise_cons.2 ⟨fun x hx => ?_, ih h.of_cons⟩
    exact (List.pairwise_cons.1 h).1 x ((mem_dedup _ x).1 hx)

lemma mem_edgesOf (date edge : Int) :
    edge ∈ week.edgesOf date ↔ edge ≤ WallTime.greatest ∧ ∃ block ∈ week.blocks date,
      edge = date * dayNanos + block.start * 1000000000 ∨
        edge = date * dayNanos + block.stop * 1000000000 := by
  unfold Week.edgesOf
  simp only [List.mem_filterMap, List.mem_flatMap, List.mem_cons, List.not_mem_nil, or_false]
  constructor
  · rintro ⟨seconds, ⟨block, hmem, hseconds⟩, hmoved⟩
    split at hmoved
    · rename_i hle
      obtain rfl := Option.some.inj hmoved
      refine ⟨hle, block, hmem, ?_⟩
      rcases hseconds with rfl | rfl
      · exact Or.inl rfl
      · exact Or.inr rfl
    · cases hmoved
  · rintro ⟨hle, block, hmem, rfl | rfl⟩
    · exact ⟨block.start, ⟨block, hmem, Or.inl rfl⟩, if_pos hle⟩
    · exact ⟨block.stop, ⟨block, hmem, Or.inr rfl⟩, if_pos hle⟩

lemma mem_edges (wall edge : Int) :
    edge ∈ week.edges wall ↔ wall < edge ∧ edge ≤ WallTime.greatest ∧ ∃ ahead < 8,
      WallTime.date wall + (ahead : ℕ) ≤ WallTime.date WallTime.greatest ∧
      ∃ block ∈ week.blocks (WallTime.date wall + (ahead : ℕ)),
        edge = (WallTime.date wall + (ahead : ℕ)) * dayNanos + block.start * 1000000000 ∨
          edge = (WallTime.date wall + (ahead : ℕ)) * dayNanos + block.stop * 1000000000 := by
  unfold Week.edges
  simp only [mem_dedup, List.mem_insertionSort, List.mem_filter, List.mem_flatMap,
    List.mem_filterMap, List.mem_range, mem_edgesOf, decide_eq_true_eq, Option.ite_none_right_eq_some,
    Option.some.injEq]
  constructor
  · rintro ⟨⟨date, ⟨ahead, hahead, hle, rfl⟩, hgreatest, hblock⟩, hlt⟩
    exact ⟨hlt, hgreatest, ahead, hahead, hle, hblock⟩
  · rintro ⟨hlt, hgreatest, ahead, hahead, hle, hblock⟩
    exact ⟨⟨_, ⟨ahead, hahead, hle, rfl⟩, hgreatest, hblock⟩, hlt⟩

lemma pairwise_edges (wall : Int) : (week.edges wall).Pairwise (· ≤ ·) :=
  pairwise_dedup (List.pairwise_insertionSort _ _)

lemma turn_mem_edges {wall edge : Int} (h : SwitchesAt (fun x => week.on x = true) wall edge)
    (hle : edge ≤ WallTime.greatest) : edge ∈ week.edges wall := by
  have hafter := h.after
  -- not as far off as eight days: a week earlier it would have turned already
  have hnear : edge < (WallTime.date wall + 8) * dayNanos := by
    by_contra hfar
    have hback := h.before (edge - 7 * dayNanos) (by unfold WallTime.date dayNanos at *; omega)
      (by unfold dayNanos; omega)
    have hweek := on_weekLater week (edge - 7 * dayNanos)
    rw [Int.sub_add_cancel] at hweek
    exact h.turned (by rw [hweek]; exact hback)
  have hlast := h.before (edge - 1) (by omega) (by omega)
  obtain ⟨date, hfrom, hto, hblock⟩ := edge_of_turn week edge (fun heq =>
    h.turned (by rw [heq]; exact hlast))
  have hdate : WallTime.date wall ≤ date := by
    unfold WallTime.date dayNanos at *
    omega
  obtain ⟨ahead, rfl⟩ := Int.le.dest hdate
  refine (mem_edges week wall edge).2 ⟨hafter, hle, ahead, ?_, ?_, hblock⟩
  · unfold WallTime.date dayNanos at *
    omega
  · have hmono : WallTime.date edge ≤ WallTime.date WallTime.greatest :=
      Int.ediv_le_ediv (by unfold dayNanos; omega) hle
    unfold WallTime.date dayNanos at *
    omega

lemma find?_first {p : Int → Bool} {l : List Int} {x : Int} (hl : l.Pairwise (· ≤ ·))
    (hx : x ∈ l) (hp : p x = true) (hfirst : ∀ y ∈ l, p y = true → x ≤ y) :
    l.find? p = some x := by
  cases hfind : l.find? p with
  | none => exact absurd hp (by simpa using List.find?_eq_none.1 hfind x hx)
  | some y =>
    have hy := List.mem_of_find?_eq_some hfind
    have hpy := List.find?_some hfind
    obtain ⟨-, before, after, rfl, hbefore⟩ := List.find?_eq_some_iff_append.1 hfind
    have hle := hfirst y hy hpy
    rcases List.mem_append.1 hx with hmem | hmem
    · exact absurd hp (by simpa using hbefore x hmem)
    · rcases List.mem_cons.1 hmem with rfl | hmem
      · rfl
      · have hpair := List.pairwise_cons.1 (List.pairwise_append.1 hl).2.1
        exact congrArg some (le_antisymm (hpair.1 x hmem) hle)

lemma at_turn {wall edge : Int} (h : SwitchesAt (fun x => week.on x = true) wall edge)
    (hle : edge ≤ WallTime.greatest) : (week.at_ wall).2 = some edge := by
  refine find?_first (pairwise_edges week wall) (turn_mem_edges week h hle) ?_ fun other hmem hon => ?_
  · exact bne_iff_ne.2 fun heq => h.turned (by rw [heq])
  · have hother := ((mem_edges week wall other).1 hmem).1
    by_contra hlt
    have hsame := h.before other hother.le (by omega)
    rw [bne_iff_ne] at hon
    exact hon (Bool.eq_iff_iff.2 hsame)

lemma turn_at {wall edge : Int} (h : (week.at_ wall).2 = some edge) :
    SwitchesAt (fun x => week.on x = true) wall edge := by
  have hmem := (mem_edges week wall edge).1 (List.mem_of_find?_eq_some h)
  have hne : week.on edge ≠ week.on wall := by
    simpa using List.find?_some h
  obtain ⟨turn, hturn, hturns⟩ := exists_turnsAt (P := fun x => week.on x = true) hmem.1.le
    (fun hiff => hne (Bool.eq_iff_iff.2 hiff))
  have hfound := at_turn week hturns (hturn.trans hmem.2.1)
  obtain rfl : edge = turn := Option.some.inj (h.symm.trans hfound)
  exact hturns

end Edges

/-- A schedule's state at `now` follows its week: it's on inside its times, its next change is
still to come, up to then the clocks say nothing else, and then they do. -/
structure KeepsTo (schedule : Schedule) (week : Week) (zone : Zone) (now : Timestamp) :
    Prop where
  on_iff : (scheduleState week zone now).on = true ↔ Inside schedule (zone.wall now)
  later : ∀ t, (scheduleState week zone now).nextChange = some t → now < t
  same : ∀ s, Valid s → now ≤ s → (∀ t, (scheduleState week zone now).nextChange = some t → s < t) →
    (Inside schedule (zone.wall s) ↔ Inside schedule (zone.wall now))
  other : ∀ t, (scheduleState week zone now).nextChange = some t →
    ¬ (Inside schedule (zone.wall t) ↔ Inside schedule (zone.wall now))

section Clocks

variable (P : Int → Prop) (zone : Zone) (now : Int)

/-- The clocks go forward over the turn at `s`, and over nothing before it: the first moment
after says what the turn would have. -/
structure SkipsTurn (s : Int) : Prop where
  turn : SwitchesAt P (zone.wall now) (zone.wall (s - 1) + 1)
  past : zone.wall (s - 1) + 1 < zone.wall s
  turned : ¬ (P (zone.wall s) ↔ P (zone.wall now))
  never : ∀ r, Valid r → zone.wall r ≠ zone.wall (s - 1) + 1

/-- Nothing the clocks do from `now` until the turn matters: the turn has not come before, and
where they go forward or back they pass no wall time that says anything else, unless it is the
turn they skip. -/
structure Clear : Prop where
  coming : ∀ e, SwitchesAt P (zone.wall now) e → ∀ s, Valid s → s ≤ now → zone.wall s < e
  passing : ∀ s, Valid s → now < s → zone.wall s ≠ zone.wall (s - 1) + 1 →
    (∀ e, SwitchesAt P (zone.wall now) e → ∀ r, now ≤ r → r < s → zone.wall r < e) →
    (∀ x, min (zone.wall (s - 1)) (zone.wall s) ≤ x → x ≤ max (zone.wall (s - 1)) (zone.wall s) →
      (P x ↔ P (zone.wall now))) ∨ SkipsTurn P zone now s

variable {P zone now}

/-- What holds as long as the turn has not come: the wall is before it, and from the wall on
nothing differs up to it. -/
structure Ahead (P : Int → Prop) (zone : Zone) (now s : Int) : Prop where
  lt_turn : ∀ e, SwitchesAt P (zone.wall now) e → zone.wall s < e
  same : ∀ x, zone.wall s ≤ x → (∀ e, SwitchesAt P (zone.wall now) e → x < e) →
    (P x ↔ P (zone.wall now))

/-- The turn comes at `s`, shown or skipped. -/
def Comes (P : Int → Prop) (zone : Zone) (now s : Int) : Prop :=
  SwitchesAt P (zone.wall now) (zone.wall s) ∨ SkipsTurn P zone now s

lemma Ahead.start : Ahead P zone now now where
  lt_turn _ h := h.after
  same _ := same_of_before

lemma Ahead.unchanged {s : Int} (h : Ahead P zone now s) :
    P (zone.wall s) ↔ P (zone.wall now) :=
  h.same (zone.wall s) le_rfl h.lt_turn

lemma Ahead.next {s : Int} (hclear : Clear P zone now) (hs : Valid s) (hnow : now < s)
    (h : ∀ r, now ≤ r → r < s → Ahead P zone now r) :
    Ahead P zone now s ∨ Comes P zone now s := by
  have hlast := h (s - 1) (by omega) (by omega)
  by_cases hrun : zone.wall s = zone.wall (s - 1) + 1
  · by_cases hturn : SwitchesAt P (zone.wall now) (zone.wall s)
    · exact Or.inr (Or.inl hturn)
    · refine Or.inl ⟨fun e he => ?_, fun x hx => hlast.same x (by rw [hrun] at hx; omega)⟩
      have hlt := hlast.lt_turn e he
      have hne : zone.wall s ≠ e := fun heq => hturn (heq ▸ he)
      rw [hrun] at hne ⊢
      omega
  · rcases hclear.passing s hs hnow hrun fun e he r hr hrs => (h r hr hrs).lt_turn e he with
      hpass | hskip
    · refine Or.inl ⟨fun e he => ?_, fun x hx hbefore => ?_⟩
      · have hlt := hlast.lt_turn e he
        by_contra hle
        exact he.turned (hpass e (min_le_left _ _ |>.trans hlt.le) (le_max_of_le_right (not_lt.1 hle)))
      · rcases le_total (zone.wall (s - 1)) x with hup | hback
        · exact hlast.same x hup hbefore
        · exact hpass x (min_le_of_right_le hx) (le_max_of_le_left hback)
    · exact Or.inr (Or.inr hskip)

/-- Either the turn stays ahead for as long as there are instants, or it comes at one, and is
ahead until then. -/
lemma ahead_or_comes (hclear : Clear P zone now) (hnow : Valid now) (n : ℕ)
    (hn : Valid (now + n)) :
    (∀ r, now ≤ r → r ≤ now + n → Ahead P zone now r) ∨
      ∃ s, Valid s ∧ now < s ∧ (∀ r, now ≤ r → r < s → Ahead P zone now r) ∧
        Comes P zone now s := by
  induction n with
  | zero =>
    refine Or.inl fun r hr hr' => ?_
    obtain rfl : now = r := by omega
    exact Ahead.start
  | succ n ih =>
    have hvalid : Valid (now + n) := hnow.between hn (by omega) (by omega)
    rcases ih hvalid with hahead | hcomes
    · rcases Ahead.next hclear hn (by omega) fun r hr hrs => hahead r hr (by omega) with
        hnext | hcome
      · refine Or.inl fun r hr hr' => ?_
        rcases eq_or_lt_of_le hr' with rfl | hlt
        · exact hnext
        · exact hahead r hr (by omega)
      · exact Or.inr ⟨_, hn, by omega, fun r hr hrs => hahead r hr (by omega), hcome⟩
    · exact Or.inr hcomes

lemma Comes.toZoned {s : Int} (hzone : zone.Compatible) (hclear : Clear P zone now)
    (hnow : Valid now) (hs : Valid s) (hlt : now < s)
    (hahead : ∀ r, now ≤ r → r < s → Ahead P zone now r) (h : Comes P zone now s) :
    ∃ e, SwitchesAt P (zone.wall now) e ∧ e ≤ WallTime.greatest ∧ zone.toZoned e = some s ∧
      ¬ (P (zone.wall s) ↔ P (zone.wall now)) := by
  have hbefore : ∀ e, SwitchesAt P (zone.wall now) e → ∀ r, Valid r → r < s → zone.wall r < e := by
    intro e he r hr hrs
    rcases le_total r now with hpast | hfuture
    · exact hclear.coming e he r hr hpast
    · exact (hahead r hfuture hrs).lt_turn e he
  rcases h with hturn | hskip
  · refine ⟨_, hturn, hzone.le_greatest s hs, hzone.first _ s hs rfl fun r hr hrs => ?_,
      hturn.turned⟩
    exact (hbefore _ hturn r hr hrs).ne
  · have hprev : Valid (s - 1) := hnow.between hs (by omega) (by omega)
    have hsame : s + (zone.wall (s - 1) + 1 - zone.wall (s - 1) - 1) = s := by omega
    have hzoned := hzone.skipped (zone.wall (s - 1) + 1) s hprev hs hskip.never
      (fun r hr hrs => hbefore _ hskip.turn r hr hrs) hskip.past (by rwa [hsame])
    rw [hsame] at hzoned
    exact ⟨_, hskip.turn, hskip.past.le.trans (hzone.le_greatest s hs), hzoned, hskip.turned⟩

end Clocks

lemma inside_eq {schedule : Schedule} {week : Week} (h : Week.of schedule = .ok week) :
    Inside schedule = fun wall => week.on wall = true :=
  funext fun wall => propext (on_iff_inside h wall).symm

lemma nextChange_turn {schedule : Schedule} {week : Week} {zone : Zone} {now e : Int}
    (h : Week.of schedule = .ok week) (he : SwitchesAt (Inside schedule) (zone.wall now) e)
    (hle : e ≤ WallTime.greatest) :
    (scheduleState week zone now).nextChange = zone.toZoned e := by
  rw [inside_eq h] at he
  simp [scheduleState, at_turn week he hle]

def mondays (start stop : String) : Schedule where
  name := "Heating hours"
  times
    | .mon => [(start, stop)]
    | _ => []

def mondayWeek (block : Block) : Week where
  day
    | .mon => ⟨[block], by simp [Apart]⟩
    | _ => ⟨[], by simp [Apart]⟩

lemma of_mondays {start stop : String} {a b : DaySeconds} (hstart : secondsOf start = .ok a)
    (hstop : secondsOf stop = .ok b) (h : a.1 < b.1) :
    Week.of (mondays start stop) = .ok (mondayWeek ⟨a.1, b.1, h, b.2⟩) := by
  have hmon : dayOf .mon [(start, stop)] = .ok ⟨[⟨a.1, b.1, h, b.2⟩], by simp [Apart]⟩ := by
    simp [dayOf, Block.of, hstart, hstop, h, Apart, List.insertionSort, bind, Except.bind, pure,
      Except.pure]
  have hother : ∀ day, dayOf day [] = .ok ⟨[], by simp [Apart]⟩ := fun day => by
    simp [dayOf, Apart, pure, Except.pure]
  simp only [Week.of, mondays, hmon, hother]
  refine congrArg Except.ok (congrArg Week.mk (funext fun day => ?_))
  cases day <;> rfl

def utc : Zone where
  wall s := s
  toZoned x := if Timestamp.least ≤ x ∧ x ≤ Timestamp.greatest then some x else none

lemma utc_compatible : utc.Compatible where
  le_greatest s hs := hs.2.trans (by decide)
  first x s hs hx _ := by
    obtain rfl : s = x := hx
    exact if_pos hs
  skipped x s hprev hs _ hbefore hlt _ := by
    have h := hbefore (s - 1) hprev (by omega)
    simp only [utc] at h hlt
    omega
  beyond x hx := if_neg fun hvalid => absurd (hx x hvalid) (lt_irrefl x)

def monday : Int := 4 * dayNanos

def quarter : Int := 900 * 1000000000

def autumn : Zone where
  wall s := if s < monday + 12 * quarter then s else s - 4 * quarter
  toZoned x :=
    if x < monday + 12 * quarter then if Timestamp.least ≤ x then some x else none
    else if x + 4 * quarter ≤ Timestamp.greatest then some (x + 4 * quarter) else none

lemma autumn_before {s : Int} (h : s < monday + 12 * quarter) : autumn.wall s = s := if_pos h

lemma autumn_after {s : Int} (h : ¬ s < monday + 12 * quarter) :
    autumn.wall s = s - 4 * quarter := if_neg h

lemma autumn_sides (s : Int) : s < monday + 12 * quarter ∧ autumn.wall s = s ∨
    monday + 12 * quarter ≤ s ∧ autumn.wall s = s - 4 * quarter :=
  (lt_or_ge s (monday + 12 * quarter)).imp (fun h => ⟨h, autumn_before h⟩)
    fun h => ⟨h, autumn_after (not_lt.2 h)⟩

lemma autumn_compatible : autumn.Compatible where
  le_greatest s hs := by
    have hle : autumn.wall s ≤ s := by
      have hquarter : (0 : Int) ≤ quarter := by decide
      rcases autumn_sides s with ⟨-, hwall⟩ | ⟨-, hwall⟩ <;> omega
    exact hle.trans (hs.2.trans (by decide))
  first x s hs hx hfirst := by
    rcases autumn_sides s with ⟨hlt, hwall⟩ | ⟨hge, hwall⟩
    · obtain rfl : s = x := hwall.symm.trans hx
      exact (if_pos hlt).trans (if_pos hs.1)
    · -- what shows after the change and not before it is past the repeated hour
      have hpast : ¬ x < monday + 12 * quarter := fun hlt => by
        have hearlier : Valid x := by
          refine Valid.between (a := monday) (by decide) hs ?_ ?_ <;>
            simp only [monday, quarter, dayNanos] at * <;> omega
        exact hfirst x hearlier (by simp only [quarter] at hwall; omega) (autumn_before hlt)
      have hsame : x + 4 * quarter = s := by omega
      refine (if_neg hpast).trans ?_
      rw [hsame]
      exact if_pos hs.2
  skipped x s hprev hs _ hbefore hlt _ := by
    have h := hbefore (s - 1) hprev (by omega)
    have hquarter : (0 : Int) < quarter := by decide
    rcases autumn_sides s with ⟨_, hwall⟩ | ⟨_, hwall⟩ <;>
      rcases autumn_sides (s - 1) with ⟨_, hwall'⟩ | ⟨_, hwall'⟩ <;> omega
  beyond x hx := by
    have hlast := hx Timestamp.greatest (by decide)
    rw [autumn_after (by decide)] at hlast
    have hpast : ¬ x < monday + 12 * quarter := fun hlt =>
      absurd (hlast.trans hlt) (by decide)
    refine (if_neg hpast).trans (if_neg fun hle => ?_)
    omega

end Irori.Proofs
