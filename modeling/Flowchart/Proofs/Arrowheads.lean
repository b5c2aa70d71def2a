import Flowchart.Proofs.Bounds
import Flowchart.Proofs.Tracing

/-! Arrowheads from left to right. The boxes of a layer start in one column there, so all arrowheads
at them are in the column before it. An edge to the next layer comes to that column on the line of
its own target only, for it has turned at least two columns earlier. So nothing but an edge to the
same node is drawn over an arrowhead, and such an edge ends with an arrowhead itself. -/
namespace Flowchart

/-- The last stroke of a route is in a cell, with one of some marks. -/
def EndsAt (strokes : List Stroke) (cell : Int × Int) (p : Mark → Prop) : Prop :=
  ∃ path s, strokes = path ++ [s] ∧ s.cell = cell ∧ p s.mark

namespace Grid

variable {g : Grid width height} {style : Style} {routes : List (List Stroke)} {i j : Nat}
  {p : Mark → Prop}

theorem shows_of_endsAt {strokes : List Stroke} (ends : EndsAt strokes ((j : Int), (i : Int)) p)
    (row : i < height) (column : j < width) : (g.trace style strokes).Shows style i j p := by
  obtain ⟨path, s, rfl, here, fits⟩ := ends
  exact shows_trace here row column fits (by simp)

/-- A mark stays if every route that comes to its cell ends there, with such a mark. -/
theorem Shows.foldl_trace (shows : g.Shows style i j p)
    (each : ∀ strokes ∈ routes, EndsAt strokes ((j : Int), (i : Int)) p ∨
      ∀ s ∈ strokes, s.cell ≠ ((j : Int), (i : Int))) :
    (routes.foldl (Grid.trace style) g).Shows style i j p := by
  refine List.foldlRecOn (motive := fun g : Grid width height => g.Shows style i j p) routes _
    shows fun g shows strokes member => ?_
  rcases each strokes member with ends | apart
  · obtain ⟨_, _, shown⟩ := shows.mark
    obtain ⟨row, column⟩ := lt_of_cell?_eq_some shown
    exact shows_of_endsAt ends row column
  · exact shows.trace fun s member here => absurd here (apart s member)

theorem shows_foldl_trace {strokes : List Stroke} (drawn : strokes ∈ routes)
    (ends : EndsAt strokes ((j : Int), (i : Int)) p) (row : i < height) (column : j < width)
    (each : ∀ strokes ∈ routes, EndsAt strokes ((j : Int), (i : Int)) p ∨
      ∀ s ∈ strokes, s.cell ≠ ((j : Int), (i : Int))) :
    (routes.foldl (Grid.trace style) g).Shows style i j p := by
  obtain ⟨before, after, rfl⟩ := List.append_of_mem drawn
  rw [List.foldl_append, List.foldl_cons]
  exact (shows_of_endsAt ends row column).foldl_trace fun strokes member =>
    each strokes (List.mem_append_right _ (List.mem_cons_of_mem _ member))

end Grid

namespace Direction

/-- The cell before the place where edges meet the border of a box. -/
def front (d : Direction) (b : Box) : Int × Int := d.cell ((d.arrival b).1 - 1) (d.arrival b).2

/-- A route ends with an arrowhead one step before its target. -/
theorem endsAt_route (d : Direction) (a b : Box) :
    EndsAt (d.route a b)
      (d.cell ((d.arrival b).1 - toward (d.departure a).1 (d.arrival b).1) (d.arrival b).2)
      (· = d.arrow) := by
  rw [route_eq]
  split
  · next level => exact ⟨_, _, rfl, by rw [cell_stroke, level], by rw [stroke_eq]⟩
  · exact ⟨_, _, rfl, by rw [cell_stroke], by rw [stroke_eq]⟩

theorem endsAt_front (d : Direction) {a b : Box} (forward : (d.departure a).1 < (d.arrival b).1) :
    EndsAt (d.route a b) (d.front b) (· = d.arrow) := by
  have step : toward (d.departure a).1 (d.arrival b).1 = 1 := by
    unfold toward
    split <;> omega
  have ends := d.endsAt_route a b
  rwa [step] at ends

end Direction

namespace Chart

variable {c : Chart} {h i j k m : Nat} {a b box : Box}

namespace Stands

variable (onward : c.direction.isReversed = false) (first : c.Stands i k a)
  (second : c.Stands j (k + 1) b)
include onward first second

theorem departure_add_gap_le :
    (c.direction.departure a).1 + c.direction.gap.along ≤ (c.direction.arrival b).1 := by
  have apart := first.lower_layer second (Nat.lt_succ_self k)
  rw [Direction.departure_along, Direction.arrival_along]
  simp only [onward, Bool.false_eq_true, if_false] at apart ⊢
  omega

variable (wide : 3 ≤ c.direction.gap.along) (other : c.Stands h m box)
include wide other

/-- An edge to the next layer that comes to the cell before a box, on the middle line of that, leads
to the box. If the layers were only two cells apart, it could also turn in the second one. -/
theorem eq_of_onRoute_before
    (on : c.direction.OnRoute a b ((c.direction.arrival box).1 - 1) (c.direction.arrival box).2) :
    b = box := by
  have far := first.departure_add_gap_le onward second
  have start := c.direction.departure_along a
  have finish := c.direction.arrival_along b
  have target := c.direction.arrival_along box
  have between := on.between
  simp only [onward, Bool.false_eq_true, if_false] at start finish target
  rcases Nat.lt_trichotomy m (k + 1) with lower | rfl | higher
  · have before : (c.direction.position box).along ≤ (c.direction.position a).along := by
      rcases Nat.lt_or_eq_of_le (Nat.le_of_lt_succ lower) with further | rfl
      · have apart := other.lower_layer first further
        simp only [onward, Bool.false_eq_true, if_false] at apart
        omega
      · exact (other.along_eq_of_layer_eq first).le
    omega
  · have level := other.along_eq_of_layer_eq second
    by_cases same : j = h
    · exact (second.unique (same ▸ other)).2
    · have off := second.middle_ne other same
      have leg := on.leg
      rw [← Direction.arrival_line, ← Direction.arrival_line] at off
      unfold Between Direction.bend at leg
      omega
  · have apart := second.lower_layer other higher
    simp only [onward, Bool.false_eq_true, if_false] at apart
    omega

theorem endsAt_or_apart :
    EndsAt (c.direction.route a b) (c.direction.front box) (· = c.direction.arrow) ∨
      ∀ s ∈ c.direction.route a b, s.cell ≠ c.direction.front box := by
  refine or_iff_not_imp_right.mpr fun comes => ?_
  push Not at comes
  obtain ⟨s, member, here⟩ := comes
  obtain ⟨along, across, place, on⟩ := c.direction.exists_onRoute (first.passable second) member
  obtain ⟨rfl, rfl⟩ := c.direction.cell_inj.mp (place.symm.trans here)
  obtain rfl := first.eq_of_onRoute_before onward second wide other on
  have far := first.departure_add_gap_le onward second
  exact c.direction.endsAt_front (by omega)

end Stands

/-- In a stepwise chart, the cell before the target of an edge shows the arrowhead in the end. -/
theorem Stepwise.shows_arrow (stepwise : c.Stepwise) (onward : c.direction.isReversed = false)
    (wide : 3 ≤ c.direction.gap.along) {e : Edge} (member : e ∈ c.edges) {l : Nat}
    (spans : c.Spans e l m a b) {x y : Nat}
    (place : c.direction.front b = ((x : Int), (y : Int))) (style : Style) :
    (c.arrange.grid style).Shows style y x (· = c.direction.arrow) := by
  obtain ⟨rfl, i, j, first, second⟩ := stepwise.stands member spans
  have far := first.departure_add_gap_le onward second
  have ends := c.direction.endsAt_front (a := a) (b := b) (by omega)
  rw [place] at ends
  have ⟨path, s, strokes, here, _⟩ := ends
  obtain ⟨_, column, _, row⟩ := first.within second (by simp [onward]) (s := s) (by simp [strokes])
  obtain ⟨left, top⟩ := Prod.mk.inj here
  refine Grid.shows_foldl_trace (spans.route_mem member) ends (by omega) (by omega)
    fun other drawn => ?_
  obtain ⟨e', member', l', m', a', b', spans', rfl⟩ := exists_spans_of_mem_routes drawn
  obtain ⟨rfl, i', j', first', second'⟩ := stepwise.stands member' spans'
  rw [← place]
  exact first'.endsAt_or_apart onward second' wide second

/-- From left to right, if every edge leads to the next layer, the cell before the middle of the
left border of every target shows an arrowhead in the end, however many edges are drawn and in
whatever order. -/
theorem arrowheads_kept (c : Chart) (rightward : c.direction = .leftRight)
    (stepwise : c.Stepwise) (style : Style) {e : Edge} (member : e ∈ c.edges) :
    ∃ b x, c.arrange.box? e.target = some b ∧ b.x = x + 1 ∧
      (c.arrange.grid style).cell? (b.y + b.height / 2) x =
        some (.shown (style.glyph (.arrow .right))) := by
  have onward : c.direction.isReversed = false := by rw [rightward]; rfl
  have wide : 3 ≤ c.direction.gap.along := by rw [rightward]; decide
  obtain ⟨known, known'⟩ := stepwise.known e member
  obtain ⟨l, m, a, b, spans⟩ := exists_spans known known'
  have inside : 0 < b.x := by
    obtain ⟨rfl, i, j, first, second⟩ := stepwise.stands member spans
    have far := first.departure_add_gap_le onward second
    rw [rightward, Direction.departure, Direction.arrival] at far
    have gap : Direction.leftRight.gap.along = 4 := rfl
    omega
  obtain ⟨x, start⟩ := Nat.exists_eq_add_one.mpr inside
  have place : c.direction.front b = ((x : Int), ((b.y + b.height / 2 : Nat) : Int)) := by
    rw [rightward]
    simp [Direction.front, Direction.cell, Direction.arrival, Direction.isHorizontal, start]
  obtain ⟨_, rfl, shown⟩ := (stepwise.shows_arrow onward wide member spans place style).mark
  rw [rightward] at shown
  exact ⟨b, x, spans.box', start, shown⟩

/-- Two nodes that both lead to the same two, so that the edges cross each other. -/
def paired : Chart where
  direction := .leftRight
  nodes := [⟨"A", "A", none⟩, ⟨"C", "C", none⟩, ⟨"B", "B", none⟩, ⟨"D", "D", none⟩]
  edges := [⟨"A", "C"⟩, ⟨"B", "D"⟩, ⟨"A", "D"⟩, ⟨"B", "C"⟩]
  distinct := by decide

theorem arrowheads_kept_paired :
    paired.direction = .leftRight ∧ paired.Stepwise ∧
      (paired.arrange.grid .unicode).cell? 1 8 = some (.shown '▶') ∧
      (paired.arrange.grid .unicode).cell? 6 8 = some (.shown '▶') := by
  have stepwise : paired.Stepwise := by decide +kernel
  have boxC : paired.arrange.box? "C" = some ⟨9, 0, 5, 3⟩ := by decide +kernel
  have boxD : paired.arrange.box? "D" = some ⟨9, 5, 5, 3⟩ := by decide +kernel
  obtain ⟨c, x, atC, start, atArrow⟩ :=
    arrowheads_kept paired rfl stepwise .unicode (e := ⟨"A", "C"⟩) (by decide)
  obtain ⟨d, x', atD, start', atArrow'⟩ :=
    arrowheads_kept paired rfl stepwise .unicode (e := ⟨"B", "D"⟩) (by decide)
  obtain rfl := Option.some.inj (boxC.symm.trans atC)
  obtain rfl := Option.some.inj (boxD.symm.trans atD)
  obtain rfl : 8 = x := Nat.succ.inj start
  obtain rfl : 8 = x' := Nat.succ.inj start'
  exact ⟨rfl, stepwise, atArrow, atArrow'⟩

end Chart

end Flowchart
