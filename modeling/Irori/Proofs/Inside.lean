import Irori.Home.Plan
import Irori.Lib.Outlines
import Mathlib.Tactic

/-!
# Inside a room

Whether a point is in a room depends on the closed outline alone. Two rooms joined along a run of
corners hold the points one of them holds and the other doesn't.
-/

namespace Irori.Core.PlacedArea

/-- A point on the edge from one corner to another. -/
structure OnEdge (a b c : Point) : Prop where
  level : (b.x - a.x) * (c.y - a.y) = (b.y - a.y) * (c.x - a.x)
  x_mem : c.x ∈ Set.uIcc a.x b.x
  y_mem : c.y ∈ Set.uIcc a.y b.y

end Irori.Core.PlacedArea

namespace Irori.Proofs
open Irori Core PlacedArea

variable {point a b c : Point}

def side (point a b : Point) : Int :=
  (point.x - b.x) * (a.y - b.y) - (point.y - b.y) * (a.x - b.x)

lemma crosses_eq (point a b : Point) : crosses point a b =
    (decide (b.y > point.y ∧ ¬ a.y > point.y ∧ 0 < side point a b) ||
      decide (¬ b.y > point.y ∧ a.y > point.y ∧ side point a b < 0)) := by
  have hspan : ∀ s : Int, s ≠ 0 → |(s : ℚ)| > 1 / 2 ^ 52 := by
    intro s hs
    have hone : (1 : ℚ) ≤ |(s : ℚ)| := by exact_mod_cast Int.one_le_abs hs
    exact lt_of_lt_of_le (by norm_num) hone
  have hcast : ((a.y : ℚ) - b.y) = ((a.y - b.y : Int) : ℚ) := by push_cast; rfl
  have hdiv : ((point.x : ℚ) < b.x + (point.y - b.y) / (a.y - b.y) * (a.x - b.x)) ↔
      (point.x : ℚ) - b.x < (point.y - b.y) * (a.x - b.x) / (a.y - b.y) := by
    rw [div_mul_eq_mul_div]
    constructor <;> intro h <;> linarith
  unfold crosses side
  by_cases hb : b.y > point.y <;> by_cases ha : a.y > point.y
  · simp [ha, hb]
  · have hneg : (a.y : ℚ) - b.y < 0 := by
      have hlt : a.y < b.y := by omega
      exact sub_neg.2 (by exact_mod_cast hlt)
    have hs := hspan (a.y - b.y) (by omega)
    rw [← hcast] at hs
    simp only [ha, hb, hs, hdiv, lt_div_iff_of_neg hneg, decide_true, decide_false, ne_eq,
      Bool.true_eq_false, not_false_eq_true, if_true, true_and, false_and, not_true_eq_false,
      Bool.or_false, decide_eq_decide, sub_pos]
    norm_cast
  · have hpos : 0 < (a.y : ℚ) - b.y := by
      have hlt : b.y < a.y := by omega
      exact sub_pos.2 (by exact_mod_cast hlt)
    have hs := hspan (a.y - b.y) (by omega)
    rw [← hcast] at hs
    simp only [ha, hb, hs, hdiv, lt_div_iff₀ hpos, decide_true, decide_false, ne_eq,
      Bool.false_eq_true, not_false_eq_true, if_true, true_and, false_and, not_true_eq_false,
      Bool.false_or, decide_eq_decide, sub_neg]
    norm_cast
  · simp [ha, hb]

lemma crosses_comm (point a b : Point) : crosses point a b = crosses point b a := by
  have hside : side point b a = - side point a b := by
    unfold side
    ring
  rw [crosses_eq, crosses_eq, hside, Bool.or_comm]
  congr 1 <;>
  · rw [decide_eq_decide]
    constructor
    · rintro ⟨h₁, h₂, h₃⟩
      exact ⟨h₂, h₁, by omega⟩
    · rintro ⟨h₁, h₂, h₃⟩
      exact ⟨h₂, h₁, by omega⟩

lemma sign_iff {s t k m : Int} (h : s * k = t * m) (hkm : 0 < k ∧ 0 < m ∨ k < 0 ∧ m < 0) :
    (0 < s ↔ 0 < t) ∧ (s < 0 ↔ t < 0) := by
  rcases hkm with ⟨hk, hm⟩ | ⟨hk, hm⟩
  · have hpos : 0 < s ↔ 0 < t := by
      rw [← mul_pos_iff_of_pos_right hk, h, mul_pos_iff_of_pos_right hm]
    have hneg : s < 0 ↔ t < 0 := by
      constructor <;> intro hs <;> nlinarith
    exact ⟨hpos, hneg⟩
  · have hpos : 0 < s ↔ 0 < t := by
      constructor <;> intro hs <;> nlinarith
    have hneg : s < 0 ↔ t < 0 := by
      constructor <;> intro hs <;> nlinarith
    exact ⟨hpos, hneg⟩

lemma crosses_split (h : OnEdge a b c) :
    crosses point a b = xor (crosses point a c) (crosses point c b) := by
  have hfirst : side point a c * (a.y - b.y) = side point a b * (a.y - c.y) := by
    unfold side
    linear_combination (point.y - a.y) * h.level
  have hsecond : side point c b * (a.y - b.y) = side point a b * (c.y - b.y) := by
    unfold side
    linear_combination (b.y - point.y) * h.level
  rw [crosses_eq, crosses_eq, crosses_eq]
  have hmem := Set.mem_uIcc.1 h.y_mem
  by_cases ha : a.y > point.y <;> by_cases hb : b.y > point.y <;> by_cases hc : c.y > point.y
  · simp [ha, hb, hc]
  · omega
  · have hsign := (sign_iff hsecond (Or.inl (by omega))).2
    simp [ha, hb, hc, hsign]
  · have hsign := (sign_iff hfirst (Or.inl (by omega))).2
    simp [ha, hb, hc, hsign]
  · have hsign := (sign_iff hfirst (Or.inr (by omega))).1
    simp [ha, hb, hc, hsign]
  · have hsign := (sign_iff hsecond (Or.inr (by omega))).1
    simp [ha, hb, hc, hsign]
  · omega
  · simp [ha, hb, hc]

lemma contains_eq (placed : PlacedArea) (point : Point) :
    placed.contains point = Outline.around (crosses point) placed.points := by
  have hfold : ∀ (l : List Point) (previous : Point) (within : Bool),
      (l.foldl (fun before current =>
        (current, if crosses point before.1 current then !before.2 else before.2))
          (previous, within)).2 = xor within (Outline.along (crosses point) (previous :: l)) := by
    intro l
    induction l with
    | nil => simp [Outline.along]
    | cons current l ih =>
      intro previous within
      rw [List.foldl_cons, ih, Outline.along]
      cases crosses point previous current <;> simp
  unfold contains
  cases hpoints : placed.points.getLast? with
  | none =>
    rw [List.getLast?_eq_none_iff.1 hpoints]
    rfl
  | some last =>
    obtain ⟨start, hstart⟩ := List.getLast?_eq_some_iff.1 hpoints
    have hrotated : start ++ [last] ~r last :: start := List.isRotated_append
    refine (hfold _ _ _).trans ?_
    rw [Bool.false_xor, hstart, Outline.around_isRotated hrotated]
    rfl

/-- Whether a point is inside depends on the closed outline alone: not on the corner it starts from,
the way round it goes, or a corner on an edge. Of two shapes joined along a run of corners, a point
in the joined shape is in one, and not in the other. -/
theorem contains_outline (point : Point) :
    (∀ p q : PlacedArea, p.points ~r q.points → p.contains point = q.contains point) ∧
    (∀ p q : PlacedArea, p.points ~r q.points.reverse → p.contains point = q.contains point) ∧
    (∀ (p q : PlacedArea) (a b c : Point) (rest : List Point), q.points ~r a :: rest →
      (rest ++ [a]).head? = some b → OnEdge a b c → p.points ~r a :: c :: rest →
      p.contains point = q.contains point) ∧
    ∀ (p q joined : PlacedArea) (run l m : List Point) (a b : Point), run.head? = some a →
      run.getLast? = some b → p.points ~r run ++ l → q.points ~r run.reverse ++ m →
      joined.points ~r b :: l ++ a :: m →
      (joined.contains point = true ↔ Xor (p.contains point = true) (q.contains point = true)) := by
  refine ⟨fun p q h => ?_, fun p q h => ?_, fun p q a b c rest hq hnext hedge hp => ?_,
    fun p q joined run l m a b ha hb hp hq hjoined => ?_⟩
  · rw [contains_eq, contains_eq, Outline.around_isRotated h]
  · rw [contains_eq, contains_eq, Outline.around_isRotated h,
      Outline.around_reverse (crosses_comm point)]
  · rw [contains_eq, contains_eq, Outline.around_isRotated hp, Outline.around_isRotated hq,
      Outline.around_insert (crosses_split hedge) hnext]
  · rw [contains_eq, contains_eq, contains_eq, Outline.around_isRotated hp,
      Outline.around_isRotated hq, Outline.around_isRotated hjoined,
      Outline.around_join (crosses_comm point) l m ha hb]
    cases Outline.around (crosses point) (run ++ l) <;>
      cases Outline.around (crosses point) (run.reverse ++ m) <;> simp [Xor]

namespace TwoRooms

def placed (area : AreaId) (points : List Point) : PlacedArea := ⟨area, points, ⟨0, 0⟩, none⟩

def kitchen : PlacedArea := placed ⟨"kitchen", by decide⟩ [⟨0, 0⟩, ⟨400, 0⟩, ⟨400, 300⟩, ⟨0, 300⟩]

def hall : PlacedArea := placed ⟨"hall", by decide⟩ [⟨400, 0⟩, ⟨600, 0⟩, ⟨600, 300⟩, ⟨400, 300⟩]

def both : PlacedArea :=
  placed ⟨"both", by decide⟩ [⟨0, 0⟩, ⟨400, 0⟩, ⟨600, 0⟩, ⟨600, 300⟩, ⟨400, 300⟩, ⟨0, 300⟩]

end TwoRooms

theorem contains_outline_wall :
    (TwoRooms.both.contains ⟨400, 150⟩ = true ↔
      Xor (TwoRooms.kitchen.contains ⟨400, 150⟩ = true) (TwoRooms.hall.contains ⟨400, 150⟩ = true)) ∧
    TwoRooms.both.contains ⟨400, 150⟩ = true :=
  ⟨(contains_outline ⟨400, 150⟩).2.2.2 TwoRooms.kitchen TwoRooms.hall TwoRooms.both [⟨400, 0⟩, ⟨400, 300⟩]
    [⟨0, 300⟩, ⟨0, 0⟩] [⟨600, 0⟩, ⟨600, 300⟩] ⟨400, 0⟩ ⟨400, 300⟩ rfl rfl ⟨1, rfl⟩ ⟨3, rfl⟩
    ⟨4, rfl⟩, by decide +kernel⟩

end Irori.Proofs
