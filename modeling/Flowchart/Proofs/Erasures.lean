import Flowchart.Proofs.Arrowheads
import Flowchart.Proofs.Channels

/-! Arrowheads in the vertical directions. Only two rows lie between a layer and the next one: edges
leave the first layer in one of them, and they turn in the other, where the arrowheads at the next
layer are, too. So an edge that passes over the column of an arrowhead of another node is drawn over
it. The arrowhead shows in the end if and only if no such edge comes after the last one to its own
node. -/
namespace Flowchart

/-- A straight line may also be made from one side, but shows no other character than between two. -/
theorem Style.exists_joint? (style : Style) (s t : Side) :
    ∃ s' t', style.joint? s' t' = some (style.glyph (.joining s t)) := by
  by_cases same : s = t
  · subst same
    have line : Mark.joining s s = .joining s s.opposite := by cases s <;> rfl
    exact ⟨s, s.opposite, line ▸ style.joint?_eq s.opposite_ne.symm⟩
  · exact ⟨s, t, style.joint?_eq same⟩

theorem Style.glyph_joining_ne_arrow (style : Style) (s t side : Side) :
    style.glyph (.joining s t) ≠ style.glyph (.arrow side) := by
  cases style <;> cases s <;> cases t <;> cases side <;> decide

namespace Direction

/-- The cell before the middle of the side through which edges come to a box. -/
def tip (d : Direction) (b : Box) : Int × Int :=
  d.ahead.opposite.beyond (b.middle d.ahead.opposite)

theorem tip_eq (d : Direction) (b : Box) :
    d.tip b = d.cell ((d.arrival b).1 - if d.isReversed then -1 else 1) (d.arrival b).2 := by
  have back : d.ahead.opposite = d.sideAlong (if d.isReversed then 1 else -1) := by cases d <;> rfl
  have unit : (if d.isReversed then (1 : Int) else -1) = 1 ∨
      (if d.isReversed then (1 : Int) else -1) = -1 := by cases d <;> simp [isReversed]
  rw [tip, ← cell_arrival, back, d.beyond_sideAlong unit, cell_inj]
  refine ⟨?_, rfl⟩
  split <;> rfl

theorem exists_lineAlong (d : Direction) : ∃ s t, d.lineAlong = .joining s t :=
  ⟨_, _, (d.joining_opposite_sideAlong 1).symm⟩

theorem exists_lineAcross (d : Direction) : ∃ s t, d.lineAcross = .joining s t := by
  obtain ⟨s, t, line⟩ := d.turned.exists_lineAlong
  refine ⟨s, t, line ▸ ?_⟩
  cases d <;> rfl

/-- All marks of a route are lines and corners, but for the arrowhead at its end. -/
theorem cell_or_joining_of_mem_route (d : Direction) {a b : Box} {s : Stroke}
    (member : s ∈ d.route a b) :
    s.cell = d.cell ((d.arrival b).1 - toward (d.departure a).1 (d.arrival b).1) (d.arrival b).2 ∨
      ∃ t u, s.mark = .joining t u := by
  rw [route_eq] at member
  split at member
  · next level =>
    simp only [straight, List.mem_append, List.mem_map, List.mem_singleton] at member
    rcases member with ⟨_, _, rfl⟩ | rfl
    · rw [stroke_eq]
      exact .inr d.exists_lineAlong
    · rw [cell_stroke, level]
      exact .inl rfl
  · simp only [bent, List.mem_append, List.mem_map, List.mem_singleton] at member
    rcases member with ((((⟨_, _, rfl⟩ | rfl) | ⟨_, _, rfl⟩) | rfl) | ⟨_, _, rfl⟩) | rfl
    all_goals rw [stroke_eq]
    · exact .inr d.exists_lineAlong
    · exact .inr ⟨_, _, rfl⟩
    · exact .inr d.exists_lineAcross
    · exact .inr ⟨_, _, rfl⟩
    · exact .inr d.exists_lineAlong
    · exact .inl rfl

/-- A route that comes to the cell before another box draws a line or a corner there. -/
theorem joining_of_cell_eq_tip (d : Direction) {a b box : Box}
    (apart : (d.arrival b).2 ≠ (d.arrival box).2) {s : Stroke} (member : s ∈ d.route a b)
    (here : s.cell = d.tip box) : ∃ t u, s.mark = .joining t u := by
  rcases d.cell_or_joining_of_mem_route member with final | joining
  · rw [final, tip_eq, cell_inj] at here
    exact absurd here.2 apart
  · exact joining

end Direction

namespace Chart

variable {c : Chart} {e f : Edge} {h i j k l m : Nat} {a b box : Box} {id : String}

/-- An edge to another node of the same layer passes over the column of a node. -/
structure Passes (c : Chart) (e : Edge) (id : String) : Prop where
  other : e.target ≠ id
  level : c.ranks.layer? e.target = c.ranks.layer? id
  between : ∃ a b box, c.arrange.box? e.source = some a ∧ c.arrange.box? e.target = some b ∧
    c.arrange.box? id = some box ∧
    Between (a.x + a.width / 2) (b.x + b.width / 2) (box.x + box.width / 2)

namespace Stands

variable (vertical : c.direction.isHorizontal = false) (first : c.Stands i k a)
  (second : c.Stands j (k + 1) b)
include vertical first second

/-- An edge to the next layer turns one step before that layer. -/
theorem bend_eq :
    c.direction.bend a b =
        (c.direction.arrival b).1 - toward (c.direction.departure a).1 (c.direction.arrival b).1 ∧
      c.direction.tip b = c.direction.cell (c.direction.bend a b) (c.direction.arrival b).2 := by
  have next := first.top_next vertical second
  have deep := first.extent_along vertical
  have deep' := second.extent_along vertical
  rw [Direction.tip_eq, Direction.cell_inj, Direction.bend]
  unfold toward
  rw [Direction.departure_along, Direction.arrival_along]
  simp only [Direction.position, Direction.extent, Direction.measure, vertical, Box.bottom,
    Node.height, Bool.false_eq_true, if_false] at next deep deep' ⊢
  cases order : c.direction.isReversed <;>
    simp only [order, Bool.false_eq_true, if_true, if_false, and_true] at next ⊢ <;>
    split <;> omega

variable (other : c.Stands h m box)
include other

/-- The only boxes that an edge to the next layer comes near to are in that layer. -/
theorem layer_of_beside {along across : Int} (on : c.direction.OnRoute a b along across)
    (row : along = (c.direction.arrival box).1 - if c.direction.isReversed then -1 else 1) :
    m = k + 1 := by
  have apart := first.lower_layer second (Nat.lt_succ_self k)
  have between := on.between
  have deep := first.extent_along vertical
  have deep' := second.extent_along vertical
  have deep'' := other.extent_along vertical
  have gap : c.direction.gap.along = 2 := by rw [Direction.gap, vertical]; rfl
  rw [Direction.departure_along, Direction.arrival_along] at between
  rw [Direction.arrival_along] at row
  rcases Nat.lt_trichotomy m (k + 1) with lower | level | higher
  · exfalso
    rcases Nat.lt_or_eq_of_le (Nat.le_of_lt_succ lower) with further | rfl
    · have before := other.lower_layer first further
      cases order : c.direction.isReversed <;>
        simp only [order, Bool.false_eq_true, if_true, if_false] at apart before between row <;>
        omega
    · have same := other.along_eq_of_layer_eq first
      cases order : c.direction.isReversed <;>
        simp only [order, Bool.false_eq_true, if_true, if_false] at apart between row <;> omega
  · exact level
  · exfalso
    have after := second.lower_layer other higher
    cases order : c.direction.isReversed <;>
      simp only [order, Bool.false_eq_true, if_true, if_false] at apart after between row <;> omega

/-- An edge to the next layer comes to the cell before a box if that is in the layer, too, and the
edge passes over its middle. -/
theorem comes_to_tip_iff :
    (∃ s ∈ c.direction.route a b, s.cell = c.direction.tip box) ↔
      m = k + 1 ∧ Between (c.direction.departure a).2 (c.direction.arrival b).2
        (c.direction.arrival box).2 := by
  have passable := first.passable second
  have turn := first.bend_eq vertical second
  constructor
  · rintro ⟨s, member, here⟩
    obtain ⟨along, across, place, on⟩ := c.direction.exists_onRoute passable member
    rw [place, Direction.tip_eq, Direction.cell_inj] at here
    obtain ⟨row, rfl⟩ := here
    exact ⟨first.layer_of_beside vertical second other on row, on.beside⟩
  · rintro ⟨rfl, between⟩
    obtain ⟨s, member, place⟩ := c.direction.exists_mem_route (c.direction.onRoute_bend passable between)
    refine ⟨s, member, place.trans ?_⟩
    have level := other.along_eq_of_layer_eq second
    have deep' := second.extent_along vertical
    have deep'' := other.extent_along vertical
    rw [Direction.tip_eq, Direction.cell_inj] at turn ⊢
    rw [← turn.2.1, Direction.arrival_along, Direction.arrival_along, level, deep', deep'']
    exact ⟨rfl, rfl⟩

omit other in
theorem endsAt_tip :
    EndsAt (c.direction.route a b) (c.direction.tip b) (· = c.direction.arrow) := by
  have turn := first.bend_eq vertical second
  rw [turn.2, turn.1]
  exact c.direction.endsAt_route a b

end Stands

/-- The route of an edge is drawn between those of the edges before it and after it. -/
theorem Spans.exists_routes (spans : c.Spans e l m a b) {before after : List Edge}
    (edges : c.edges = before ++ e :: after) :
    ∃ earlier later, c.arrange.routes = earlier ++ c.direction.route a b :: later ∧
      ∀ strokes ∈ later, ∃ f ∈ after, ∃ l m a b, c.Spans f l m a b ∧
        strokes = c.direction.route a b := by
  have routes : c.arrange.routes = c.edges.filterMap c.arrange.route? := rfl
  rw [edges, List.filterMap_append, List.filterMap_cons_some spans.route] at routes
  refine ⟨_, _, routes, fun strokes member => ?_⟩
  obtain ⟨f, among, found⟩ := List.mem_filterMap.mp member
  exact ⟨f, among, exists_spans_of_route found⟩

/-- The middles of two nodes of a layer do not lie in one line along the direction. -/
theorem middle_ne_of_ne {id' : String} (apart : id ≠ id') (layer : c.ranks.layer? id = some l)
    (layer' : c.ranks.layer? id' = some l) (given : c.arrange.box? id = some a)
    (given' : c.arrange.box? id' = some b) :
    (c.direction.departure a).2 ≠ (c.direction.departure b).2 := by
  obtain ⟨n, node, box⟩ := Option.bind_eq_some_iff.mp given
  obtain ⟨n', node', box'⟩ := Option.bind_eq_some_iff.mp given'
  obtain rfl : n.id = id := by simpa using List.find?_some node
  obtain rfl : n'.id = id' := by simpa using List.find?_some node'
  obtain ⟨i, at_i⟩ := List.mem_iff_getElem?.mp (List.mem_of_find?_eq_some node)
  obtain ⟨j, at_j⟩ := List.mem_iff_getElem?.mp (List.mem_of_find?_eq_some node')
  have first : c.Stands i l a := ⟨n, at_i, layer, box⟩
  have second : c.Stands j l b := ⟨n', at_j, layer', box'⟩
  refine second.middle_ne first fun same => apart ?_
  subst same
  rw [Option.some.inj (at_i.symm.trans at_j)]

/-- What a cell shows is settled by the last edge that comes there. -/
theorem Spans.shows (spans : c.Spans e l m a b) {before after : List Edge}
    (edges : c.edges = before ++ e :: after) {s : Stroke} {path rest : List Stroke}
    (strokes : c.direction.route a b = path ++ s :: rest) {x y : Nat}
    (here : s.cell = ((x : Int), (y : Int)))
    (inside : s.Within c.arrange.columns c.arrange.rows) {p : Mark → Prop} (fits : p s.mark)
    (same : ∀ t ∈ rest, t.cell = ((x : Int), (y : Int)) → p t.mark)
    (others : ∀ f ∈ after, ∀ l m a b, c.Spans f l m a b → ∀ t ∈ c.direction.route a b,
      t.cell = ((x : Int), (y : Int)) → p t.mark) (style : Style) :
    (c.arrange.grid style).Shows style y x p := by
  obtain ⟨earlier, later, routes, origin⟩ := spans.exists_routes edges
  have split : c.arrange.routes.flatten =
      (earlier.flatten ++ path) ++ s :: (rest ++ later.flatten) := by
    simp [routes, strokes]
  obtain ⟨_, column, _, row⟩ := inside
  obtain ⟨left, top⟩ := Prod.mk.inj here
  rw [grid_eq_trace, split]
  refine Grid.shows_trace here (by omega) (by omega) fits fun t member place => ?_
  rcases List.mem_append.mp member with own | other
  · exact same t own place
  · obtain ⟨strokes, among, onRoute⟩ := List.mem_flatten.mp other
    obtain ⟨f, member, l', m', a', b', spans', rfl⟩ := origin strokes among
    exact others f member l' m' a' b' spans' t onRoute place

section Vertical

variable (vertical : c.direction.isHorizontal = false)
include vertical

theorem column_of_vertical (b : Box) : (c.direction.departure b).2 = b.x + b.width / 2 := by
  rw [Direction.departure_across]
  simp [Direction.position, Direction.extent, Direction.measure, vertical]

/-- The cell before a box is in the column of its middle and in the row next to it. -/
theorem tip_of_vertical {x y : Nat} (column : x = b.x + b.width / 2)
    (row : if c.direction.isReversed then y = b.bottom else b.y = y + 1) :
    c.direction.tip b = ((x : Int), (y : Int)) := by
  subst column
  rw [Direction.tip_eq, Direction.cell, Direction.arrival_line, column_of_vertical vertical,
    Direction.arrival_along]
  simp only [Direction.position, Direction.extent, Direction.measure, vertical, Bool.false_eq_true,
    if_false, Prod.mk.injEq, Box.bottom] at row ⊢
  cases order : c.direction.isReversed <;>
    simp only [order, Bool.false_eq_true, if_true, if_false] at row ⊢ <;> omega

theorem Stepwise.passes_iff (stepwise : c.Stepwise) (member : e ∈ c.edges)
    (spans : c.Spans e l m a b) (other : e.target ≠ id) (layer : c.ranks.layer? id = some k)
    (given : c.arrange.box? id = some box) :
    c.Passes e id ↔ ∃ s ∈ c.direction.route a b, s.cell = c.direction.tip box := by
  obtain ⟨rfl, i, j, first, second⟩ := stepwise.stands member spans
  obtain ⟨h, third⟩ := exists_stands_of_layer? layer given
  rw [first.comes_to_tip_iff vertical second third, Direction.arrival_line, Direction.arrival_line,
    column_of_vertical vertical, column_of_vertical vertical, column_of_vertical vertical]
  constructor
  · rintro ⟨_, level, a', b', box', source, target, same, between⟩
    rw [spans.layer', layer, Option.some.injEq] at level
    obtain rfl := Option.some.inj (spans.box.symm.trans source)
    obtain rfl := Option.some.inj (spans.box'.symm.trans target)
    obtain rfl := Option.some.inj (given.symm.trans same)
    exact ⟨level.symm, between⟩
  · rintro ⟨rfl, between⟩
    exact ⟨other, spans.layer'.trans layer.symm, a, b, box, spans.box, spans.box', given, between⟩

section Drawn

variable (stepwise : c.Stepwise) (layer : c.ranks.layer? id = some k)
  (given : c.arrange.box? id = some box) {before after : List Edge}
  (edges : c.edges = before ++ e :: after) (final : ∀ f ∈ after, f.target ≠ id) {x y : Nat}
  (place : c.direction.tip box = ((x : Int), (y : Int))) (style : Style)
include stepwise layer given edges final place

theorem Stepwise.shows_arrow_of_not_passes (target : e.target = id)
    (none : ∀ f ∈ after, ¬c.Passes f id) :
    (c.arrange.grid style).Shows style y x (· = c.direction.arrow) := by
  have member : e ∈ c.edges := by simp [edges]
  obtain ⟨l, m, a, b, spans⟩ := exists_spans (stepwise.known e member).1 (stepwise.known e member).2
  obtain ⟨rfl, i, j, first, second⟩ := stepwise.stands member spans
  obtain rfl := Option.some.inj (given.symm.trans (target ▸ spans.box'))
  obtain ⟨path, s, strokes, here, arrow⟩ := first.endsAt_tip vertical second
  have inside : s.Within c.arrange.columns c.arrange.rows := by
    refine first.within second (fun _ last => ?_) (by simp [strokes])
    exact Nat.not_succ_le_self l (last e.target _ spans.layer')
  refine spans.shows edges strokes (here.trans place) inside arrow (by simp) ?_ style
  intro f later l' m' a' b' spans' t onRoute there
  have among : f ∈ c.edges := by simp [edges, later]
  have passes := (stepwise.passes_iff vertical among spans' (final f later) layer given).mpr
    ⟨t, onRoute, there.trans place.symm⟩
  exact absurd passes (none f later)

theorem Stepwise.shows_joining_of_passes (passed : ∃ f ∈ after, c.Passes f id) :
    (c.arrange.grid style).Shows style y x (∃ s t, · = .joining s t) := by
  obtain ⟨earlier, f, rest, rfl, passes, none⟩ := exists_last passed
  rw [← List.cons_append, ← List.append_assoc] at edges
  have member : f ∈ c.edges := by simp [edges]
  obtain ⟨l, m, a, b, spans⟩ := exists_spans (stepwise.known f member).1 (stepwise.known f member).2
  obtain ⟨rfl, i, j, first, second⟩ := stepwise.stands member spans
  have apart : (c.direction.arrival b).2 ≠ (c.direction.arrival box).2 := by
    rw [Direction.arrival_line, Direction.arrival_line]
    exact middle_ne_of_ne passes.other (passes.level.trans layer) layer spans.box' given
  have joining (t : Stroke) (onRoute : t ∈ c.direction.route a b)
      (there : t.cell = ((x : Int), (y : Int))) : ∃ s u, t.mark = .joining s u :=
    c.direction.joining_of_cell_eq_tip apart onRoute (there.trans place.symm)
  obtain ⟨s, onRoute, here⟩ :=
    (stepwise.passes_iff vertical member spans passes.other layer given).mp passes
  obtain ⟨path, tail, strokes⟩ := List.append_of_mem onRoute
  have inside : s.Within c.arrange.columns c.arrange.rows := by
    refine first.within second (fun _ last => ?_) onRoute
    exact Nat.not_succ_le_self l (last f.target _ spans.layer')
  refine spans.shows edges strokes (here.trans place) inside (joining s onRoute (here.trans place))
    (fun t behind => joining t (by simp [strokes, behind])) ?_ style
  intro g later l' m' a' b' spans' t onRoute there
  have among : g ∈ c.edges := by simp [edges, later]
  have passes := (stepwise.passes_iff vertical among spans' (final g (by simp [later])) layer
    given).mpr ⟨t, onRoute, there.trans place.symm⟩
  exact absurd passes (none g later)

end Drawn

end Vertical

/-- In a vertical direction, if every edge leads to the next layer, the cell before the middle of
a node shows an arrowhead in the end if and only if no edge that is drawn after the last one to that
node passes over it. If one does, the cell shows a line or a corner. -/
theorem arrowhead_kept_iff (c : Chart) (vertical : c.direction.isHorizontal = false)
    (stepwise : c.Stepwise) (style : Style) {id : String} (fed : ∃ e ∈ c.edges, e.target = id) :
    ∃ b x y before e after, c.arrange.box? id = some b ∧ x = b.x + b.width / 2 ∧
      (if c.direction.isReversed then y = b.bottom else b.y = y + 1) ∧
      c.edges = before ++ e :: after ∧ e.target = id ∧ (∀ f ∈ after, f.target ≠ id) ∧
      ((c.arrange.grid style).cell? y x = some (.shown (style.arrowhead c.direction.ahead)) ↔
        ∀ f ∈ after, ¬c.Passes f id) ∧
      ((∃ f ∈ after, c.Passes f id) → ∃ s t glyph, style.joint? s t = some glyph ∧
        (c.arrange.grid style).cell? y x = some (.shown glyph)) := by
  obtain ⟨before, e, after, edges, target, final⟩ := exists_last fed
  have member : e ∈ c.edges := by simp [edges]
  obtain ⟨l, m, a, b, spans⟩ := exists_spans (stepwise.known e member).1 (stepwise.known e member).2
  obtain ⟨rfl, i, j, first, second⟩ := stepwise.stands member spans
  have layer : c.ranks.layer? id = some (l + 1) := target ▸ spans.layer'
  have given : c.arrange.box? id = some b := target ▸ spans.box'
  obtain ⟨y, row⟩ : ∃ y, if c.direction.isReversed then y = b.bottom else b.y = y + 1 := by
    have next := first.top_next vertical second
    cases order : c.direction.isReversed <;>
      simp only [order, Bool.false_eq_true, if_true, if_false] at next ⊢
    · exact ⟨a.bottom + 1, next⟩
    · exact ⟨b.bottom, rfl⟩
  have place := tip_of_vertical vertical rfl row
  have kept := stepwise.shows_arrow_of_not_passes vertical layer given edges final place style target
  have erased := stepwise.shows_joining_of_passes vertical layer given edges final place style
  refine ⟨b, _, y, before, e, after, given, rfl, row, edges, target, final, ⟨?_, ?_⟩, ?_⟩
  · intro shown f later passes
    obtain ⟨_, ⟨s, t, rfl⟩, other⟩ := (erased ⟨f, later, passes⟩).mark
    rw [shown, ← style.glyph_arrow, Option.some.injEq, Cell.shown.injEq] at other
    exact style.glyph_joining_ne_arrow s t _ other.symm
  · intro none
    obtain ⟨_, rfl, shown⟩ := (kept none).mark
    rwa [Direction.arrow_eq, style.glyph_arrow] at shown
  · intro passed
    obtain ⟨_, ⟨s, t, rfl⟩, shown⟩ := (erased passed).mark
    obtain ⟨s', t', joint⟩ := style.exists_joint? s t
    exact ⟨s', t', _, joint, shown⟩

/-- The edge from `A` to `D` leaves `A` in the column of `C` and is drawn after the one to `C`. -/
def swept : Chart :=
  { paired with direction := .topBottom, edges := [⟨"A", "C"⟩, ⟨"B", "D"⟩, ⟨"A", "D"⟩] }

/-- The cell above the middle of `C` shows a corner. -/
theorem arrowhead_erased :
    read "flowchart TB\nA --> C\nB --> D\nA --> D" = .ok swept ∧
      swept.direction.isHorizontal = false ∧ swept.Stepwise ∧
      (∃ e ∈ swept.edges, e.target = "C") ∧
      ∃ b x y, swept.arrange.box? "C" = some b ∧ x = b.x + b.width / 2 ∧ b.y = y + 1 ∧
        (swept.arrange.grid .unicode).cell? y x = some (.shown '└') := by
  refine ⟨by decide +kernel, rfl, by decide +kernel, ⟨⟨"A", "C"⟩, by decide, rfl⟩, ⟨0, 5, 5, 3⟩, 2, 4,
    by decide +kernel, rfl, rfl, by decide +kernel⟩

theorem arrowhead_kept_iff_swept :
    swept.direction.isHorizontal = false ∧ swept.Stepwise ∧
      (∃ e ∈ swept.edges, e.target = "C") ∧ (∃ e ∈ swept.edges, e.target = "D") ∧
      swept.Passes ⟨"A", "D"⟩ "C" ∧
      (∃ s t glyph, Style.unicode.joint? s t = some glyph ∧
        (swept.arrange.grid .unicode).cell? 4 2 = some (.shown glyph)) ∧
      (swept.arrange.grid .unicode).cell? 4 11 = some (.shown '▼') := by
  have stepwise : swept.Stepwise := by decide +kernel
  have toC : ∃ e ∈ swept.edges, e.target = "C" := ⟨⟨"A", "C"⟩, by decide, rfl⟩
  have toD : ∃ e ∈ swept.edges, e.target = "D" := ⟨⟨"A", "D"⟩, by decide, rfl⟩
  have boxA : swept.arrange.box? "A" = some ⟨0, 0, 5, 3⟩ := by decide +kernel
  have boxC : swept.arrange.box? "C" = some ⟨0, 5, 5, 3⟩ := by decide +kernel
  have boxD : swept.arrange.box? "D" = some ⟨9, 5, 5, 3⟩ := by decide +kernel
  have passes : swept.Passes ⟨"A", "D"⟩ "C" :=
    ⟨by decide, by decide +kernel, _, _, _, boxA, boxD, boxC, by unfold Between; decide⟩
  obtain ⟨c, x, y, before, e, after, atC, rfl, top, edges, target, last, _, erased⟩ :=
    arrowhead_kept_iff swept rfl stepwise .unicode toC
  obtain ⟨d, x', y', before', e', after', atD, rfl, top', edges', target', last', kept, _⟩ :=
    arrowhead_kept_iff swept rfl stepwise .unicode toD
  obtain rfl := Option.some.inj (boxC.symm.trans atC)
  obtain rfl := Option.some.inj (boxD.symm.trans atD)
  obtain rfl : 4 = y := Nat.succ.inj top
  obtain rfl : 4 = y' := Nat.succ.inj top'
  refine ⟨rfl, stepwise, toC, toD, passes, erased ⟨_, ?_, passes⟩, kept.mpr ?_⟩
  · rcases before with _ | ⟨_, _ | ⟨_, _ | ⟨_, before⟩⟩⟩ <;> simp [swept] at edges
    · simp [← edges.2]
    · exact absurd (edges.2.1 ▸ target) (by decide)
    · exact absurd (edges.2.2.1 ▸ target) (by decide)
  · intro f later passes
    obtain ⟨other, _, a, b, d, source, target, given, between⟩ := passes
    have among : f ∈ swept.edges := by simp [edges', later]
    simp only [swept, List.mem_cons, List.not_mem_nil, or_false] at among
    rcases among with rfl | rfl | rfl
    · obtain rfl := Option.some.inj (boxA.symm.trans source)
      obtain rfl := Option.some.inj (boxC.symm.trans target)
      obtain rfl := Option.some.inj (boxD.symm.trans given)
      exact absurd between (by unfold Between; decide)
    · exact other rfl
    · exact other rfl

end Chart

end Flowchart
