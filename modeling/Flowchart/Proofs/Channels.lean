import Flowchart.Proofs.Bounds
import Flowchart.Proofs.Tracing

/-! Edges between neighbouring layers in the vertical directions. There all layers are three rows
deep, and two rows lie between one layer and the next. An edge that leads from a layer to the next
one stays in these two rows, so the edges of a stepwise chart leave its boxes as they are. -/
namespace Flowchart

namespace Chart

variable {c : Chart} {h i j k l m : Nat} {a b box : Box}

section Vertical

variable (vertical : c.direction.isHorizontal = false)
include vertical

/-- Seen in a vertical direction, all boxes are equally deep. -/
theorem along_of_mem_items {item : Item} (member : item ∈ c.items) :
    item.size.along = Node.height := by
  obtain ⟨i, at_i⟩ := List.mem_iff_getElem?.mp member
  obtain ⟨box, stands⟩ := exists_stands at_i
  obtain ⟨_, width, _, same, _⟩ := stands.exists_place
  have size := congrArg (·.size.along) (Option.some.inj (at_i.symm.trans same))
  simpa [Direction.measure, vertical] using size

theorem Stands.extent_along (stands : c.Stands i l a) :
    (c.direction.extent a).along = Node.height := by
  obtain ⟨_, _, _, item, rfl⟩ := stands.exists_place
  rw [Direction.extent_box]
  exact along_of_mem_items vertical (List.mem_of_getElem? item)

/-- Two rows lie between a layer and the next one. -/
theorem Stands.top_next (first : c.Stands i k a) (second : c.Stands j (k + 1) b) :
    if c.direction.isReversed then a.y = b.bottom + 2 else b.y = a.bottom + 2 := by
  have far := first.lower_layer second (Nat.lt_succ_self k)
  have deep := first.extent_along vertical
  have deep' := second.extent_along vertical
  have near := first.next_layer second fun item member => (along_of_mem_items vertical member).le
  simp only [Direction.position, Direction.extent, Direction.measure, Direction.gap, vertical,
    Bool.false_eq_true, if_false] at far near deep deep'
  simp only [Box.bottom]
  cases order : c.direction.isReversed <;>
    simp only [order, Bool.false_eq_true, if_true, if_false] at far near ⊢ <;> omega

/-- An edge to the next layer stays in the rows between the layers. -/
theorem Stands.row_of_mem_route (first : c.Stands i k a) (second : c.Stands j (k + 1) b)
    {s : Stroke} (member : s ∈ c.direction.route a b) :
    if c.direction.isReversed then s.y = b.bottom ∨ s.y = b.bottom + 1
    else s.y = a.bottom ∨ s.y = a.bottom + 1 := by
  obtain ⟨along, across, place, on⟩ := c.direction.exists_onRoute (first.passable second) member
  have row := c.direction.along_eq_of_cell place
  have between := on.between
  have next := first.top_next vertical second
  rw [Direction.departure_along, Direction.arrival_along] at between
  simp only [Direction.position, Direction.extent, Direction.measure, vertical, Bool.false_eq_true,
    if_false] at row between
  simp only [Box.bottom] at next ⊢
  cases order : c.direction.isReversed <;>
    simp only [order, Bool.false_eq_true, if_true, if_false] at between next ⊢ <;> omega

/-- No box reaches into a row in which an edge to the next layer runs. -/
theorem Stands.row_ne (first : c.Stands i k a) (second : c.Stands j (k + 1) b)
    (other : c.Stands h m box) {s : Stroke} (member : s ∈ c.direction.route a b) {x y : Nat}
    (covers : box.Covers x y) : s.y ≠ y := by
  intro same
  obtain ⟨along, across, place, on⟩ := c.direction.exists_onRoute (first.passable second) member
  have row := c.direction.along_eq_of_cell place
  obtain ⟨_, _, top, bottom⟩ := covers
  have beside := first.beside second other on
  have deep := first.extent_along vertical
  have deep' := second.extent_along vertical
  have deep'' := other.extent_along vertical
  simp only [Direction.position, Direction.extent, Direction.measure, vertical, Node.height,
    Bool.false_eq_true, if_false] at row beside deep deep' deep''
  rw [Box.bottom, deep''] at bottom
  rw [deep, deep', deep''] at beside
  have narrow := beside (by omega) (by omega)
  split at narrow <;> omega

end Vertical

/-- In a vertical direction, edges that lead from a layer to the next one are drawn in the two rows
between the layers. No cell of a box changes when they are drawn, whatever the labels are. -/
theorem upright_boxes_kept (c : Chart) (vertical : c.direction.isHorizontal = false)
    (stepwise : c.Stepwise) (style : Style) :
    (∀ box ∈ c.arrange.placed, ∀ x y, box.Covers x y →
      (c.arrange.grid style).cell? y x = (c.arrange.boxLayer style).cell? y x) ∧
    List.Forall₂ (fun (e : Edge) (strokes : List Stroke) => ∃ upper lower,
        c.arrange.box? (if c.direction.isReversed then e.target else e.source) = some upper ∧
        c.arrange.box? (if c.direction.isReversed then e.source else e.target) = some lower ∧
        lower.y = upper.bottom + 2 ∧
        ∀ s ∈ strokes, s.y = upper.bottom ∨ s.y = upper.bottom + 1)
      c.edges c.arrange.routes := by
  constructor
  · intro box placed x y covers
    obtain ⟨h, m, other⟩ := exists_stands_of_mem_placed placed
    rw [grid_eq_trace]
    refine Grid.cell?_trace_of_row fun s member => ?_
    obtain ⟨strokes, drawn, onRoute⟩ := List.mem_flatten.mp member
    obtain ⟨e, edge, l, m, a, b, spans, rfl⟩ := exists_spans_of_mem_routes drawn
    obtain ⟨rfl, i, j, first, second⟩ := stepwise.stands edge spans
    exact first.row_ne vertical second other onRoute covers
  · refine forall₂_routes stepwise.known fun e edge l m a b spans => ?_
    obtain ⟨rfl, i, j, first, second⟩ := stepwise.stands edge spans
    have next := first.top_next vertical second
    have rows (s : Stroke) (member : s ∈ c.direction.route a b) :=
      first.row_of_mem_route vertical second member
    cases order : c.direction.isReversed <;>
      simp only [order, Bool.false_eq_true, if_true, if_false] at next rows ⊢
    · exact ⟨a, b, spans.box, spans.box', next, rows⟩
    · exact ⟨b, a, spans.box', spans.box, next, rows⟩

theorem upright_boxes_kept_risen :
    risen.direction.isHorizontal = false ∧ risen.Stepwise ∧
      (risen.arrange.grid .unicode).cell? 1 2 = some (.shown 'B') ∧
      ∃ up down, risen.arrange.routes = [up, down] ∧
        (∀ s ∈ up, s.y = 3 ∨ s.y = 4) ∧ ∀ s ∈ down, s.y = 3 ∨ s.y = 4 := by
  have vertical : risen.direction.isHorizontal = false := by decide
  have stepwise : risen.Stepwise := by decide +kernel
  obtain ⟨kept, rows⟩ := upright_boxes_kept risen vertical stepwise .unicode
  have label := kept ⟨0, 0, 5, 3⟩ (by decide +kernel) 2 1 (by unfold Box.Covers; decide)
  have written : (risen.arrange.boxLayer .unicode).cell? 1 2 = some (.shown 'B') := by
    decide +kernel
  have boxB : risen.arrange.box? "B" = some ⟨0, 0, 5, 3⟩ := by decide +kernel
  have boxC : risen.arrange.box? "C" = some ⟨9, 0, 5, 3⟩ := by decide +kernel
  obtain ⟨up, _, ⟨b, _, atB, _, _, inUp⟩, later, all⟩ := List.forall₂_cons_left_iff.mp rows
  obtain ⟨down, _, ⟨c, _, atC, _, _, inDown⟩, none, rfl⟩ := List.forall₂_cons_left_iff.mp later
  obtain rfl := List.forall₂_nil_left_iff.mp none
  obtain rfl := Option.some.inj (boxB.symm.trans atB)
  obtain rfl := Option.some.inj (boxC.symm.trans atC)
  exact ⟨vertical, stepwise, label.trans written, up, down, all, inUp, inDown⟩

end Chart

end Flowchart
