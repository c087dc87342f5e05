import Irori.Home.Plan
import Irori.Lib.Erasing
import Mathlib.Tactic

/-!
# Drawing in batches

A batch of changes to a floor is made whole or not at all, and means what its numbers said. Where
what it takes away stands in the batch makes no difference.
-/

namespace Irori.Core

def newWalls (ops : List PlanOp) : List Wall :=
  ops.filterMap fun
    | .addWall start stop thickness =>
      some ⟨start, stop, thickness.getD Wall.defaultThickness, []⟩
    | _ => none

def newOpenings (ops : List PlanOp) (i : Nat) : List Opening :=
  ops.filterMap fun
    | .addOpening wall kind at_ width side hinge =>
      if wall = i + 1 then some ⟨kind, at_, width.getD kind.defaultWidth, side.getD .left,
        hinge.getD .near, none⟩
      else none
    | _ => none

def PlanOp.rooms (areas : List PlacedArea) : PlanOp → List PlacedArea
  | .traceArea area points tint => traced areas area points tint
  | .removeArea area => areas.filter fun placed => placed.area ≠ area
  | _ => areas

def PlanOp.removes : PlanOp → Bool
  | .removeWall _ | .removeOpening .. => true
  | _ => false

def Drawing.made (d : Drawing) : PlanOp → Drawing
  | .addWall start stop thickness => { d with next := { d.next with walls := d.next.walls ++
      [⟨start, stop, thickness.getD Wall.defaultThickness, []⟩] } }
  | .addOpening wall kind at_ width side hinge =>
    { d with next := { d.next with walls := d.next.walls.modify (wall - 1) fun w =>
      { w with openings := w.openings ++ [⟨kind, at_, width.getD kind.defaultWidth,
        side.getD .left, hinge.getD .near, none⟩] } } }
  | .removeWall wall => { d with wallsGone := insert (wall - 1) d.wallsGone }
  | .removeOpening wall opening =>
    { d with openingsGone := insert (toLex (wall - 1, opening - 1)) d.openingsGone }
  | op => { d with next := { d.next with areas := op.rooms d.next.areas } }

namespace Level

variable (level : Level) (ops : List PlanOp)

def added : Level where
  walls := (level.walls ++ newWalls ops).mapIdx fun i wall =>
    { wall with openings := wall.openings ++ newOpenings ops i }
  areas := ops.foldl PlanOp.rooms level.areas
  devices := level.devices

def drawn : Level :=
  { level.added ops with
    walls := Erasing.keep (fun i => decide (.removeWall (i + 1) ∉ ops))
      ((level.added ops).walls.mapIdx fun i wall => { wall with
        openings := Erasing.keep (fun j => decide (.removeOpening (i + 1) (j + 1) ∉ ops))
          wall.openings }) }

def Names : PlanOp → Prop
  | .addOpening wall .. | .removeWall wall => 1 ≤ wall ∧ wall ≤ level.walls.length
  | .removeOpening wall opening => 1 ≤ wall ∧ 1 ≤ opening ∧
      ∃ w, level.walls[wall - 1]? = some w ∧ opening ≤ w.openings.length
  | _ => True

/-- A change that nothing but a name could keep from being made. -/
def Fair : PlanOp → Prop
  | .addWall _ _ thickness =>
    1 ≤ thickness.getD Wall.defaultThickness ∧ thickness.getD Wall.defaultThickness ≤ 100
  | .removeArea area => level.areas.any (fun placed => placed.area = area) = true
  | _ => True

/-- A batch names walls and openings of the floor, or those it has added before. -/
def Numbered : Prop :=
  ∀ before op after, ops = before ++ op :: after → (level.added before).Names op

end Level

end Irori.Core

namespace Irori.Proofs
open Irori Core

variable {level : Level} {ops before : List PlanOp} {op : PlanOp} {d : Drawing}

lemma newWalls_append (ops more : List PlanOp) :
    newWalls (ops ++ more) = newWalls ops ++ newWalls more := List.filterMap_append ..

lemma newOpenings_append (ops more : List PlanOp) (i : Nat) :
    newOpenings (ops ++ more) i = newOpenings ops i ++ newOpenings more i :=
  List.filterMap_append ..

lemma length_added :
    (level.added ops).walls.length = level.walls.length + (newWalls ops).length := by
  simp [Level.added]

lemma added_nil : level.added [] = level := by
  have hsame : ∀ walls : List Wall, (walls.mapIdx fun i wall =>
      { wall with openings := wall.openings ++ newOpenings [] i }) = walls := by
    intro walls
    apply List.ext_getElem?
    intro i
    simp [newOpenings]
  simp [Level.added, newWalls, hsame]

lemma numbered_of {count number : Nat} {what : String} (h : 1 ≤ number ∧ number ≤ count) :
    Drawing.numbered count number what = .ok (number - 1) := if_pos (by omega)

lemma numbered_of_not {count number : Nat} (what : String) (h : ¬ (1 ≤ number ∧ number ≤ count)) :
    ∃ why, Drawing.numbered count number what = .error why := ⟨_, if_neg (by omega)⟩

lemma change_of (hnames : d.next.Names op) (hfair : d.next.Fair op) :
    d.change op = .ok (d.made op) := by
  cases op with
  | addWall start stop thickness => exact if_pos hfair
  | traceArea area points tint => rfl
  | removeArea area => exact if_pos hfair
  | addOpening wall kind at_ width side hinge =>
    simp only [Drawing.change, numbered_of hnames]
    rfl
  | removeWall wall =>
    simp only [Drawing.change, numbered_of hnames]
    rfl
  | removeOpening wall opening =>
    obtain ⟨hwall, hopening, w, hw, hle⟩ := hnames
    have hlt : wall - 1 < d.next.walls.length := (List.getElem?_eq_some_iff.1 hw).1
    have hindex : Drawing.numbered d.next.walls.length wall "wall" = .ok (wall - 1) :=
      numbered_of (by omega)
    have hhole : Drawing.numbered ((d.next.walls[wall - 1]?.map Wall.openings).getD []).length
        opening "opening" = .ok (opening - 1) := by
      rw [hw]
      exact numbered_of ⟨hopening, hle⟩
    simp only [Drawing.change, hindex, bind, Except.bind, hhole]
    rfl

lemma change_of_not (h : ¬ (d.next.Names op ∧ d.next.Fair op)) :
    ∃ why, d.change op = .error why := by
  cases op with
  | addWall start stop thickness => exact ⟨_, if_neg fun hfair => h ⟨trivial, hfair⟩⟩
  | traceArea area points tint => exact absurd ⟨trivial, trivial⟩ h
  | removeArea area => exact ⟨_, if_neg fun hfair => h ⟨trivial, hfair⟩⟩
  | addOpening wall kind at_ width side hinge =>
    obtain ⟨why, hwhy⟩ := numbered_of_not "wall" fun hnames => h ⟨hnames, trivial⟩
    exact ⟨why, by simp only [Drawing.change, hwhy]; rfl⟩
  | removeWall wall =>
    obtain ⟨why, hwhy⟩ := numbered_of_not "wall" fun hnames => h ⟨hnames, trivial⟩
    exact ⟨why, by simp only [Drawing.change, hwhy]; rfl⟩
  | removeOpening wall opening =>
    by_cases hwall : 1 ≤ wall ∧ wall ≤ d.next.walls.length
    · have hw : d.next.walls[wall - 1]? = some d.next.walls[wall - 1] :=
        List.getElem?_eq_getElem (by omega)
      obtain ⟨why, hwhy⟩ : ∃ why, Drawing.numbered
          ((d.next.walls[wall - 1]?.map Wall.openings).getD []).length opening "opening" =
            .error why := by
        refine numbered_of_not _ fun hopening => h ⟨⟨hwall.1, hopening.1, _, hw, ?_⟩, trivial⟩
        rw [hw] at hopening
        exact hopening.2
      refine ⟨s!"{why} in wall {wall}", ?_⟩
      simp only [Drawing.change, numbered_of hwall, bind, Except.bind, hwhy]
      rfl
    · obtain ⟨why, hwhy⟩ := numbered_of_not "wall" hwall
      exact ⟨why, by simp only [Drawing.change, hwhy]; rfl⟩

/-- What is made of a floor so far, and what is to be taken away from it. -/
structure Planned (level : Level) (ops : List PlanOp) (d : Drawing) : Prop where
  next : d.next = level.added ops
  names : ∀ op ∈ ops, d.next.Names op
  walls : ∀ i, i ∈ d.wallsGone ↔ .removeWall (i + 1) ∈ ops
  openings : ∀ i j, toLex (i, j) ∈ d.openingsGone ↔ .removeOpening (i + 1) (j + 1) ∈ ops

lemma names_made {other : PlanOp} (h : d.next.Names other) : (d.made op).next.Names other := by
  have hwalls : ∀ (i : Nat) (w : Wall), d.next.walls[i]? = some w →
      ∃ w' : Wall, (d.made op).next.walls[i]? = some w' ∧
        w.openings.length ≤ w'.openings.length := by
    intro i w hw
    cases op with
    | addWall start stop thickness =>
      refine ⟨w, ?_, le_refl _⟩
      simp only [Drawing.made]
      rw [List.getElem?_append_left (List.getElem?_eq_some_iff.1 hw).1, hw]
    | addOpening wall kind at_ width side hinge =>
      simp only [Drawing.made, List.getElem?_modify, hw]
      split
      · exact ⟨_, rfl, by simp⟩
      · exact ⟨w, rfl, le_refl _⟩
    | _ => exact ⟨w, hw, le_refl _⟩
  have hlength : d.next.walls.length ≤ (d.made op).next.walls.length := by
    cases op <;> simp [Drawing.made]
  cases other with
  | addOpening => exact ⟨h.1, h.2.trans hlength⟩
  | removeWall => exact ⟨h.1, h.2.trans hlength⟩
  | removeOpening wall opening =>
    obtain ⟨hwall, hopening, w, hw, hle⟩ := h
    obtain ⟨w', hw', hle'⟩ := hwalls _ _ hw
    exact ⟨hwall, hopening, w', hw', hle.trans hle'⟩
  | _ => trivial

lemma newOpenings_eq_nil {n : Nat} (h : ∀ op ∈ ops, ∀ wall kind at_ width side hinge,
    op = .addOpening wall kind at_ width side hinge → wall ≤ n) : newOpenings ops n = [] := by
  rw [newOpenings, List.filterMap_eq_nil_iff]
  intro op hop
  cases op with
  | addOpening wall kind at_ width side hinge =>
    have hle := h _ hop wall kind at_ width side hinge rfl
    exact if_neg (by omega)
  | _ => rfl

lemma added_made (h : Planned level ops d) (hnames : d.next.Names op) :
    (d.made op).next = level.added (ops ++ [op]) := by
  have hsame : newWalls [op] = [] → (∀ i, newOpenings [op] i = []) →
      (level.added (ops ++ [op])).walls = d.next.walls := by
    intro hwalls hopenings
    rw [h.next]
    simp only [Level.added, newWalls_append, newOpenings_append, hwalls, hopenings,
      List.append_nil]
  have hareas : (level.added (ops ++ [op])).areas = op.rooms d.next.areas := by
    rw [h.next]
    simp [Level.added]
  have hdevices : (level.added (ops ++ [op])).devices = d.next.devices := by
    rw [h.next]
    rfl
  have hlevel : ∀ l m : Level, l.walls = m.walls → l.areas = m.areas → l.devices = m.devices →
      l = m := by
    rintro ⟨⟩ ⟨⟩ rfl rfl rfl
    rfl
  refine hlevel _ _ ?_ (by rw [hareas]; cases op <;> rfl) (by rw [hdevices]; cases op <;> rfl)
  cases op with
  | addWall start stop thickness =>
    have hnone : newOpenings ops (level.walls ++ newWalls ops).length = [] := by
      refine newOpenings_eq_nil fun op hop wall kind at_ width side hinge heq => ?_
      have hwall := h.names op hop
      rw [heq, h.next] at hwall
      have hle := hwall.2
      rwa [length_added, ← List.length_append] at hle
    have hnew : ∀ i, newOpenings (ops ++ [.addWall start stop thickness]) i =
        newOpenings ops i := by
      intro i
      rw [newOpenings_append]
      exact List.append_nil _
    have hwalls : newWalls (ops ++ [.addWall start stop thickness]) = newWalls ops ++
        [⟨start, stop, thickness.getD Wall.defaultThickness, []⟩] := newWalls_append ..
    simp only [Drawing.made, h.next, Level.added, hwalls, hnew, ← List.append_assoc,
      List.mapIdx_append, List.mapIdx_cons, List.mapIdx_nil, Nat.zero_add, hnone, List.append_nil]
  | addOpening wall kind at_ width side hinge =>
    apply List.ext_getElem?
    intro i
    have hwalls : newWalls (ops ++ [.addOpening wall kind at_ width side hinge]) = newWalls ops :=
      (newWalls_append ..).trans (List.append_nil _)
    have hwall := hnames.1
    simp only [Drawing.made, h.next, Level.added, hwalls, newOpenings_append,
      List.getElem?_modify, List.getElem?_mapIdx]
    cases (level.walls ++ newWalls ops)[i]? with
    | none => simp
    | some w =>
      by_cases hi : wall - 1 = i
      · have heq : wall = i + 1 := by omega
        simp [newOpenings, heq]
      · have hne : wall ≠ i + 1 := by omega
        simp [newOpenings, hi, hne]
  | _ => exact (hsame rfl fun _ => rfl).symm

lemma Planned.made (h : Planned level ops d) (hnames : d.next.Names op) :
    Planned level (ops ++ [op]) (d.made op) := by
  refine ⟨added_made h hnames, fun other hother => ?_, fun i => ?_, fun i j => ?_⟩
  · rcases List.mem_append.1 hother with hother | hother
    · exact names_made (h.names other hother)
    · rw [List.mem_singleton.1 hother]
      exact names_made hnames
  · rw [List.mem_append, ← h.walls i, List.mem_singleton]
    cases op with
    | removeWall wall =>
      have hwall := hnames.1
      have hiff : i = wall - 1 ↔ i + 1 = wall := by omega
      simp [Drawing.made, hiff, or_comm]
    | _ => simp [Drawing.made]
  · rw [List.mem_append, ← h.openings i j, List.mem_singleton]
    cases op with
    | removeOpening wall opening =>
      have hwall := hnames.1
      have hopening := hnames.2.1
      have hiff : i = wall - 1 ∧ j = opening - 1 ↔ i + 1 = wall ∧ j + 1 = opening := by omega
      simp [Drawing.made, hiff, or_comm]
    | _ => simp [Drawing.made]

lemma planned_nil : Planned level [] ⟨level, ∅, ∅⟩ :=
  ⟨added_nil.symm, by simp, by simp, by simp⟩

lemma changes_isOk (more : List PlanOp) (n : Nat) (h : Planned level ops d) :
    (∃ d', d.changes more n = .ok d') ↔ ∀ before op after, more = before ++ op :: after →
      (level.added (ops ++ before)).Names op ∧ (level.added (ops ++ before)).Fair op := by
  induction more generalizing ops d n with
  | nil => simp [Drawing.changes]
  | cons op more ih =>
    by_cases hop : d.next.Names op ∧ d.next.Fair op
    · have hchange := change_of hop.1 hop.2
      simp only [Drawing.changes, hchange, ih _ (h.made hop.1)]
      rw [h.next] at hop
      constructor
      · intro hmore before other after heq
        cases before with
        | nil =>
          obtain ⟨rfl, rfl⟩ := List.cons.inj heq
          simpa using hop
        | cons first before =>
          obtain ⟨rfl, rfl⟩ := List.cons.inj heq
          simpa using hmore before other after rfl
      · rintro hmore before other after rfl
        simpa using hmore (op :: before) other after rfl
    · obtain ⟨why, hwhy⟩ := change_of_not hop
      simp only [Drawing.changes, hwhy, reduceCtorEq, exists_false, false_iff]
      intro hmore
      rw [h.next] at hop
      exact hop (by simpa using hmore [] op more rfl)

lemma planned_changes {more : List PlanOp} {n : Nat} {d' : Drawing} (h : Planned level ops d)
    (hok : d.changes more n = .ok d') : Planned level (ops ++ more) d' := by
  induction more generalizing ops d n with
  | nil =>
    obtain rfl := Except.ok.inj hok
    rwa [List.append_nil]
  | cons op more ih =>
    by_cases hop : d.next.Names op ∧ d.next.Fair op
    · simp only [Drawing.changes, change_of hop.1 hop.2] at hok
      simpa using ih (h.made hop.1) hok
    · obtain ⟨why, hwhy⟩ := change_of_not hop
      simp [Drawing.changes, hwhy] at hok

lemma foldl_modify (gone : List (Nat ×ₗ Nat)) (walls : List Wall) :
    gone.foldl (fun walls gone => walls.modify (ofLex gone).1 fun wall =>
      { wall with openings := wall.openings.eraseIdx (ofLex gone).2 }) walls =
    walls.mapIdx fun i wall => { wall with
      openings := ((gone.filter fun gone => (ofLex gone).1 = i).map fun gone =>
        (ofLex gone).2).foldl List.eraseIdx wall.openings } := by
  induction gone generalizing walls with
  | nil =>
    apply List.ext_getElem?
    intro i
    simp
  | cons first gone ih =>
    rw [List.foldl_cons, ih]
    apply List.ext_getElem?
    intro i
    rw [List.getElem?_mapIdx, List.getElem?_mapIdx, List.getElem?_modify]
    cases walls[i]? with
    | none => rfl
    | some wall =>
      by_cases hi : (ofLex first).1 = i
      · simp [hi]
      · simp [hi]

lemma Planned.finish (h : Planned level ops d) : d.finish = level.drawn ops := by
  have hopenings : ∀ (i : Nat) (wall : Wall), d.next.walls[i]? = some wall →
      (((d.openingsGone.sort (· ≥ ·)).filter fun gone => (ofLex gone).1 = i).map fun gone =>
        (ofLex gone).2).foldl List.eraseIdx wall.openings =
          Erasing.keep (fun j => decide (.removeOpening (i + 1) (j + 1) ∉ ops)) wall.openings := by
    intro i wall hwall
    have hmem : ∀ j, j ∈ (((d.openingsGone.sort (· ≥ ·)).filter fun gone =>
        (ofLex gone).1 = i).map fun gone => (ofLex gone).2) ↔
          .removeOpening (i + 1) (j + 1) ∈ ops := by
      intro j
      rw [← h.openings i j]
      simp only [List.mem_map, List.mem_filter, Finset.mem_sort, decide_eq_true_eq]
      constructor
      · rintro ⟨gone, ⟨hgone, rfl⟩, rfl⟩
        exact hgone
      · intro hgone
        exact ⟨_, ⟨hgone, rfl⟩, rfl⟩
    rw [Erasing.foldl_eraseIdx]
    · exact Erasing.keep_congr fun j _ => by rw [decide_eq_decide, hmem]
    · rw [List.pairwise_map]
      refine ((Finset.sortedGT_sort _).pairwise.filter _).imp_of_mem fun ha hb hlt => ?_
      have hfirst := of_decide_eq_true (List.mem_filter.1 ha).2
      have hsecond := of_decide_eq_true (List.mem_filter.1 hb).2
      rcases Prod.Lex.lt_iff.1 hlt with hlt | ⟨-, hlt⟩
      · omega
      · exact hlt
    · intro j hj
      obtain ⟨-, -, w, hw, hle⟩ := h.names _ ((hmem j).1 hj)
      rw [Nat.add_sub_cancel, hwall] at hw
      obtain rfl := Option.some.inj hw
      omega
  have hwalls : (d.openingsGone.sort (· ≥ ·)).foldl (fun walls gone =>
      walls.modify (ofLex gone).1 fun wall =>
        { wall with openings := wall.openings.eraseIdx (ofLex gone).2 }) d.next.walls =
      (level.added ops).walls.mapIdx fun i wall => { wall with
        openings := Erasing.keep (fun j => decide (.removeOpening (i + 1) (j + 1) ∉ ops))
          wall.openings } := by
    rw [foldl_modify, ← h.next]
    apply List.ext_getElem?
    intro i
    rw [List.getElem?_mapIdx, List.getElem?_mapIdx]
    cases hwall : d.next.walls[i]? with
    | none => rfl
    | some wall => rw [Option.map_some, Option.map_some, hopenings i wall hwall]
  have hlt : ∀ i ∈ d.wallsGone.sort (· ≥ ·), i < (level.added ops).walls.length := by
    intro i hi
    have hnames := h.names _ ((h.walls i).1 (Finset.mem_sort _ |>.1 hi))
    rw [h.next] at hnames
    exact hnames.2
  rw [Drawing.finish, hwalls, h.next, Level.drawn,
    Erasing.foldl_eraseIdx (Finset.sortedGT_sort _).pairwise (by simpa using hlt)]
  congr 1
  refine Erasing.keep_congr fun i _ => ?_
  rw [decide_eq_decide, Finset.mem_sort, h.walls]

lemma added_filter : level.added (ops.filter fun op => !op.removes) = level.added ops := by
  have hwalls : newWalls (ops.filter fun op => !op.removes) = newWalls ops := by
    rw [newWalls, newWalls, List.filterMap_filter]
    refine List.filterMap_congr fun op _ => ?_
    cases op <;> rfl
  have hopenings : ∀ i, newOpenings (ops.filter fun op => !op.removes) i = newOpenings ops i := by
    intro i
    rw [newOpenings, newOpenings, List.filterMap_filter]
    refine List.filterMap_congr fun op _ => ?_
    cases op <;> rfl
  have hareas : ∀ (ops : List PlanOp) areas, (ops.filter fun op => !op.removes).foldl
      PlanOp.rooms areas = ops.foldl PlanOp.rooms areas := by
    intro ops
    induction ops with
    | nil => exact fun _ => rfl
    | cons op ops ih => cases op <;> exact fun _ => ih _
  simp only [Level.added, hwalls, hopenings, hareas]

lemma apply_eq (level : Level) (ops : List PlanOp) : (∃ why, level.apply ops = (level, .error why)) ∨
    level.apply ops = (level.drawn ops, .ok ()) := by
  unfold Level.apply
  cases hchanges : Drawing.changes ⟨level, ∅, ∅⟩ ops 1 with
  | error why => exact Or.inl ⟨why, rfl⟩
  | ok d => exact Or.inr (congrArg (·, Except.ok ()) (planned_changes planned_nil hchanges).finish)

def Fairly (level : Level) (ops : List PlanOp) : Prop :=
  ∀ before op after, ops = before ++ op :: after → (level.added before).Fair op

lemma apply_isOk : (level.apply ops).2 = .ok () ↔ level.Numbered ops ∧ Fairly level ops := by
  have hok := changes_isOk ops 1 (planned_nil : Planned level [] _)
  have happly : (level.apply ops).2 = .ok () ↔
      ∃ d', Drawing.changes ⟨level, ∅, ∅⟩ ops 1 = .ok d' := by
    unfold Level.apply
    cases Drawing.changes ⟨level, ∅, ∅⟩ ops 1 with
    | error why => simp
    | ok d => simp
  rw [happly, hok]
  exact ⟨fun h => ⟨fun before op after heq => (h before op after heq).1,
    fun before op after heq => (h before op after heq).2⟩,
    fun h before op after heq => ⟨h.1 before op after heq, h.2 before op after heq⟩⟩

lemma Fairly.moved {ops' : List PlanOp} (h : Fairly level ops)
    (hsame : ops'.filter (fun op => !op.removes) = ops.filter (fun op => !op.removes)) :
    Fairly level ops' := by
  rintro before op after rfl
  cases hop : op.removes with
  | true => cases op <;> trivial
  | false =>
    rw [List.filter_append, List.filter_cons, hop, Bool.not_false, if_pos rfl] at hsame
    obtain ⟨first, rest, rfl, hfirst, hrest⟩ := List.filter_eq_append_iff.1 hsame.symm
    obtain ⟨more, after', rfl, hmore, -, -⟩ := List.filter_eq_cons_iff.1 hrest
    have hbefore : (first ++ more).filter (fun op => !op.removes) =
        before.filter (fun op => !op.removes) := by
      rw [List.filter_append, hfirst, List.filter_eq_nil_iff.2 hmore, List.append_nil]
    have hfair := h (first ++ more) op after' (by simp)
    rwa [← added_filter, hbefore, added_filter] at hfair

/-- A batch is refused, and leaves the floor as it was, or gives the floor with the old walls and
those it adds, each with its old openings and those it adds, less what it removes. Where what it
removes stands makes no difference, as long as that has been added before. -/
theorem apply_batch (level : Level) (ops : List PlanOp) :
    ((∃ why, level.apply ops = (level, .error why)) ∨
      level.apply ops = (level.drawn ops, .ok ())) ∧
    ∀ ops' : List PlanOp, ops'.Perm ops →
      ops'.filter (fun op => !op.removes) = ops.filter (fun op => !op.removes) →
      level.Numbered ops → level.Numbered ops' → (level.apply ops').1 = (level.apply ops).1 ∧
        ((level.apply ops').2 = .ok () ↔ (level.apply ops).2 = .ok ()) := by
  refine ⟨apply_eq level ops, fun ops' hperm hsame hnumbered hnumbered' => ?_⟩
  have hiff : (level.apply ops').2 = .ok () ↔ (level.apply ops).2 = .ok () := by
    rw [apply_isOk, apply_isOk]
    exact ⟨fun h => ⟨hnumbered, h.2.moved hsame.symm⟩, fun h => ⟨hnumbered', h.2.moved hsame⟩⟩
  have hdrawn : level.drawn ops' = level.drawn ops := by
    have hadded : level.added ops' = level.added ops := by
      rw [← added_filter, hsame, added_filter]
    simp only [Level.drawn, hadded, hperm.mem_iff]
  refine ⟨?_, hiff⟩
  rcases apply_eq level ops with ⟨why, hold⟩ | hold <;>
    rcases apply_eq level ops' with ⟨why', hnew⟩ | hnew <;>
    rw [hold, hnew] at hiff ⊢
  · simp at hiff
  · simp at hiff
  · exact hdrawn

def oneWall : Level := ⟨[⟨⟨0, 0⟩, ⟨400, 0⟩, 10, []⟩], [], []⟩

theorem apply_batch_moved :
    (oneWall.apply [.addWall ⟨0, 0⟩ ⟨0, 300⟩ none, .removeWall 1]).1 =
        (oneWall.apply [.removeWall 1, .addWall ⟨0, 0⟩ ⟨0, 300⟩ none]).1 ∧
      ((oneWall.apply [.addWall ⟨0, 0⟩ ⟨0, 300⟩ none, .removeWall 1]).2 = .ok () ↔
        (oneWall.apply [.removeWall 1, .addWall ⟨0, 0⟩ ⟨0, 300⟩ none]).2 = .ok ()) :=
  (apply_batch oneWall [.removeWall 1, .addWall ⟨0, 0⟩ ⟨0, 300⟩ none]).2 _
    (List.Perm.swap ..) rfl (apply_isOk.1 rfl).1 (apply_isOk.1 rfl).1

end Irori.Proofs
