import Irori.Home.Seen
import Mathlib.Data.Finset.Sort
import Mathlib.Data.Prod.Lex

/-!
# Drawing on the plan

Which room a point is in, and a batch of changes to a floor, which is made whole or not at all.
-/

namespace Irori.Core

namespace PlacedArea

def crosses (point previous current : Point) : Bool :=
  if decide (current.y > point.y) ≠ decide (previous.y > point.y) then
    let span : ℚ := previous.y - current.y
    if |span| > 1 / 2 ^ 52 then
      let crossing : ℚ := current.x + (point.y - current.y) / span * (previous.x - current.x)
      decide ((point.x : ℚ) < crossing)
    else false
  else false

/-- Whether a point falls inside the shape: an odd number of its edges are crossed. -/
def contains (placed : PlacedArea) (point : Point) : Bool :=
  match placed.points.getLast? with
  | none => false
  | some last =>
    (placed.points.foldl (fun (previous, within) current =>
      (current, if crosses point previous current then !within else within)) (last, false)).2

end PlacedArea

def OpeningKind.defaultWidth : OpeningKind → Nat
  | .door => 80
  | .window => 100

def Wall.defaultThickness : Nat := 10

/-- One change to a floor's drawing. Walls and openings are named by number, counted from one. -/
inductive PlanOp
  | addWall (start stop : Point) (thickness : Option Nat)
  | addOpening (wall : Nat) (kind : OpeningKind) (at_ : Int) (width : Option Nat)
      (side : Option Side) (hinge : Option Hinge)
  /-- Gives a room its shape, in place of the one it had on this floor. -/
  | traceArea (area : AreaId) (points : List Point) (tint : Option Tint)
  | removeWall (wall : Nat)
  | removeOpening (wall opening : Nat)
  | removeArea (area : AreaId)
  deriving DecidableEq

/-- A room gets its shape. Its name stays where it was dragged to, and its colour unless a new one is
asked for. -/
def traced (areas : List PlacedArea) (area : AreaId) (points : List Point) (tint : Option Tint) :
    List PlacedArea :=
  let before := areas.find? fun placed => placed.area = area
  let label := (before.map PlacedArea.label).getD ⟨0, 0⟩
  areas.filter (fun placed => placed.area ≠ area) ++
    [⟨area, points, label, tint <|> before.bind PlacedArea.tint⟩]

structure Drawing where
  next : Level
  wallsGone : Finset Nat
  openingsGone : Finset (Nat ×ₗ Nat)

namespace Drawing

def numbered (count number : Nat) (what : String) : Except String Nat :=
  if 1 ≤ number ∧ number - 1 < count then .ok (number - 1)
  else .error s!"there is no {what} {number}"

variable (d : Drawing)

/-- A change, which may be refused. Nothing but a room is taken away yet. -/
def change : PlanOp → Except String Drawing
  | .addWall start stop thickness =>
    let thickness := thickness.getD Wall.defaultThickness
    if 1 ≤ thickness ∧ thickness ≤ 100 then
      .ok { d with next := { d.next with walls := d.next.walls ++ [⟨start, stop, thickness, []⟩] } }
    else .error s!"a wall is 1 to 100 cm thick, not {thickness}"
  | .addOpening wall kind at_ width side hinge => do
    let index ← numbered d.next.walls.length wall "wall"
    let opening : Opening := ⟨kind, at_, width.getD kind.defaultWidth, side.getD .left,
      hinge.getD .near, none⟩
    return { d with next := { d.next with walls := d.next.walls.modify index fun wall =>
      { wall with openings := wall.openings ++ [opening] } } }
  | .traceArea area points tint =>
    .ok { d with next := { d.next with areas := traced d.next.areas area points tint } }
  | .removeWall wall => do
    let index ← numbered d.next.walls.length wall "wall"
    return { d with wallsGone := insert index d.wallsGone }
  | .removeOpening wall opening => do
    let index ← numbered d.next.walls.length wall "wall"
    let openings := (d.next.walls[index]?.map Wall.openings).getD []
    match numbered openings.length opening "opening" with
    | .ok hole => return { d with openingsGone := insert (toLex (index, hole)) d.openingsGone }
    | .error why => throw s!"{why} in wall {wall}"
  | .removeArea area =>
    if d.next.areas.any fun placed => placed.area = area then
      .ok { d with next := { d.next with
        areas := d.next.areas.filter fun placed => placed.area ≠ area } }
    else .error s!"\x60{area.text}\x60 isn't drawn on this floor"

def changes (d : Drawing) : List PlanOp → Nat → Except String Drawing
  | [], _ => .ok d
  | op :: ops, step =>
    match d.change op with
    | .ok d => changes d ops (step + 1)
    | .error why => .error s!"change {step}: {why}"

/-- What is to go, from the far end back. -/
def finish : Level :=
  let walls := (d.openingsGone.sort (· ≥ ·)).foldl (fun walls gone =>
    walls.modify (ofLex gone).1 fun wall =>
      { wall with openings := wall.openings.eraseIdx (ofLex gone).2 }) d.next.walls
  { d.next with walls := (d.wallsGone.sort (· ≥ ·)).foldl List.eraseIdx walls }

end Drawing

def Level.apply (level : Level) (ops : List PlanOp) : Level × Except String Unit :=
  match Drawing.changes ⟨level, ∅, ∅⟩ ops 1 with
  | .ok d => (d.finish, .ok ())
  | .error why => (level, .error why)

end Irori.Core
