import Flowchart.Box
import Flowchart.Mark

/-! Strokes put marks into cells. A cell is named by integers, because a line may start one cell
before the first row or column. -/
namespace Flowchart

structure Stroke where
  x : Int
  y : Int
  mark : Mark
  deriving DecidableEq, Repr

/-- One step along an axis from `a` towards `b`, and backwards if there is no way to go. -/
def toward (a b : Int) : Int := if a < b then 1 else -1

/-- The steps from `a` to `b`, without `b`. -/
def run (a b : Int) : List Int :=
  (List.range (b - a).natAbs).map fun i : Nat => a + toward a b * i

@[simp] theorem length_run (a b : Int) : (run a b).length = (b - a).natAbs := by simp [run]

@[simp] theorem run_self (a : Int) : run a a = [] := by simp [run]

/-- A run goes one step towards its end and on from there. -/
theorem run_eq_cons {a b : Int} (h : a ≠ b) : run a b = a :: run (a + toward a b) b := by
  have size : (b - a).natAbs = (b - (a + toward a b)).natAbs + 1 := by
    unfold toward
    split <;> omega
  unfold run
  rw [size, List.range_succ_eq_map]
  simp only [List.map_cons, List.map_map, List.cons.injEq]
  refine ⟨by simp, List.map_congr_left fun i member => ?_⟩
  simp only [List.mem_range] at member
  simp only [Function.comp, toward] at member ⊢
  grind

namespace Box

/-- The border of a box: the corners, the lines between them at the top and at the bottom, and
the lines at the left and at the right. -/
def frame (b : Box) : List Stroke :=
  let left : Int := b.x
  let top : Int := b.y
  let right : Int := b.right - 1
  let bottom : Int := b.bottom - 1
  let columns := (List.range (b.width - 2)).map fun i : Nat => left + 1 + i
  let rows := (List.range (b.height - 2)).map fun i : Nat => top + 1 + i
  [⟨left, top, .topLeft⟩, ⟨right, top, .topRight⟩, ⟨left, bottom, .bottomLeft⟩,
    ⟨right, bottom, .bottomRight⟩]
    ++ columns.flatMap (fun x => [⟨x, top, .horizontal⟩, ⟨x, bottom, .horizontal⟩])
    ++ rows.flatMap (fun y => [⟨left, y, .vertical⟩, ⟨right, y, .vertical⟩])

end Box

end Flowchart
