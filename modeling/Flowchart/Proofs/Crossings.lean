import Flowchart.Proofs.Bounds
import Flowchart.Proofs.Tracing

/-! Edges between neighbouring layers in the horizontal directions. The boxes of a layer start
together and end at different columns, and an edge turns half way between the ends of its own two
boxes. So it can turn within the box of a broader node beside the narrower end, and then it is
drawn over that box. Nothing else of a box changes. -/
namespace Flowchart

namespace Row

variable {row : Row width} {column i : Nat}

/-- Writing covers cells within the text only. -/
theorem covered_of_covered_write {cells : List Cell}
    (here : (row.write column cells)[i]? = some .covered) :
    column ≤ i ∧ i < column + cells.length ∨ row[i]? = some .covered := by
  induction cells generalizing row column with
  | nil => exact .inr here
  | cons cell cells ih =>
    rw [List.length_cons]
    rcases ih here with within | before
    · obtain ⟨low, high⟩ : column + 1 ≤ i ∧ i < column + 1 + cells.length := within
      exact .inl (by omega)
    · rw [getElem?_put] at before
      split at before
      · exact .inl (by omega)
      · split at before
        · cases before
        · split at before
          · cases before
          · exact .inr before

end Row

namespace Box

/-- A cell lies in a box, and neither in its first nor in its last column. -/
def Encloses (b : Box) (x y : Nat) : Prop := b.x < x ∧ x + 1 < b.right ∧ b.y ≤ y ∧ y < b.bottom

theorem Encloses.covers {b : Box} {x y : Nat} (inside : b.Encloses x y) : b.Covers x y := by
  obtain ⟨left, right, vertical⟩ := inside
  exact ⟨by omega, by omega, vertical⟩

end Box

namespace Grid

/-- Cells are covered between the borders of boxes only. -/
def Enclosed (g : Grid width height) (boxes : List Box) : Prop :=
  ∀ x y, g.cell? y x = some .covered → ∃ box ∈ boxes, box.Encloses x y

theorem enclosed_blank (boxes : List Box) : (blank width height).Enclosed boxes := by
  intro x y here
  rw [cell?_blank] at here
  split at here <;> cases here

theorem Enclosed.draw {g : Grid width height} {boxes : List Box} (enclosed : g.Enclosed boxes)
    {style : Style} {b : Box} (placed : b ∈ boxes) {label : String}
    (room : Text.displayWidth label + 2 ≤ b.width) (high : 2 ≤ b.height) :
    (b.draw style g label).Enclosed boxes := by
  intro x y here
  rw [Box.draw, Grid.write, Grid.cell?_mapRow] at here
  split at here
  · next same =>
    obtain ⟨row, at_y, here⟩ := Option.bind_eq_some_iff.mp here
    rcases Row.covered_of_covered_write here with within | before
    · rw [Cell.length_ofText, Box.labelColumn] at within
      refine ⟨b, placed, by omega, ?_, by omega, ?_⟩
      · rw [Box.right]
        omega
      · rw [Box.bottom]
        omega
    · have framed : (g.trace style b.frame).cell? y x = some .covered := by
        rw [Grid.cell?, at_y, Option.bind_some, before]
      exact enclosed x y (covered_of_covered_trace framed)
  · exact enclosed x y (covered_of_covered_trace here)

end Grid

namespace Direction

/-- An edge turns within the reach of a box. It meets the box at the bend, and after that on the
line of the end that is in the other layer. -/
@[mk_iff]
structure Crosses (d : Direction) (a b box : Box) (along across : Int) : Prop where
  turns : (d.position box).along ≤ d.bend a b ∧
    d.bend a b < (d.position box).along + (d.extent box).along
  beside : Between (d.departure a).2 (d.arrival b).2 across
  leg : along = d.bend a b ∨
    d.bend a b ≤ along ∧ across = if d.isReversed then (d.departure a).2 else (d.arrival b).2

end Direction

namespace Chart

variable {c : Chart} {e : Edge} {h i j k l m x y : Nat} {a b box : Box}

theorem enclosed_boxLayer (c : Chart) (style : Style) :
    (c.arrange.boxLayer style).Enclosed c.arrange.placed := by
  refine List.foldlRecOn (motive := fun g : Grid _ _ => g.Enclosed c.arrange.placed)
    c.arrange.nodes _ (Grid.enclosed_blank _) fun g enclosed n member => ?_
  split
  · next box given =>
    obtain ⟨i, found⟩ := List.mem_iff_getElem?.mp member
    obtain ⟨m, place, _, _, rfl⟩ := exists_of_getElem?_arrange found
    obtain rfl := Option.some.inj given
    have room : Text.displayWidth m.label + 2 ≤ m.width := Nat.le_max_left _ 5
    refine enclosed.draw (List.mem_filterMap.mpr ⟨_, member, rfl⟩) ?_ ?_
    · rwa [Direction.width_box]
    · rw [Direction.height_box]
      decide
  · exact enclosed

namespace Stands

theorem eq_of_covers (first : c.Stands i l a) (second : c.Stands j m b) (inA : a.Covers x y)
    (inB : b.Covers x y) : a = b := by
  by_cases same : i = j
  · exact (first.unique (same ▸ second)).2
  · exact absurd ⟨inA, inB⟩ (first.disjoint second same x y)

/-- An edge to the next layer that meets a box turns within the reach of that: the line of the end
beside the box meets no other box of the layer. -/
theorem crosses (first : c.Stands i k a) (second : c.Stands j (k + 1) b) (other : c.Stands h m box)
    {along across : Int} (on : c.direction.OnRoute a b along across)
    (low : (c.direction.position box).along ≤ along)
    (high : along < (c.direction.position box).along + (c.direction.extent box).along)
    (top : (c.direction.position box).across ≤ across)
    (bottom : across < (c.direction.position box).across + (c.direction.extent box).across) :
    c.direction.Crosses a b box along across := by
  have beside := first.beside second other on low high
  have apart := first.lower_layer second (Nat.lt_succ_self k)
  have start := c.direction.departure_along a
  have finish := c.direction.arrival_along b
  have rows := on.beside
  have leg := on.leg
  rw [Direction.crosses_iff]
  unfold Between Direction.bend at *
  cases order : c.direction.isReversed with
  | false =>
    simp only [order, Bool.false_eq_true, if_false] at beside apart start finish ⊢
    obtain ⟨rfl, further⟩ := beside
    have level := other.along_eq_of_layer_eq first
    have off := first.line_ne other (fun same => ?_) top bottom
    · omega
    · rw [(first.unique (same ▸ other)).2] at further
      exact Nat.lt_irrefl _ further
  | true =>
    simp only [order, if_true] at beside apart start finish ⊢
    obtain ⟨rfl, further⟩ := beside
    have level := other.along_eq_of_layer_eq second
    have size := second.three_le_extent
    have off := second.line_ne other (fun same => ?_) top bottom
    · rw [← Direction.arrival_line] at off
      omega
    · rw [(second.unique (same ▸ other)).2] at further
      exact Nat.lt_irrefl _ further

section Crossed

variable (first : c.Stands i k a) (second : c.Stands j (k + 1) b) (other : c.Stands h m box)
  {along across : Int} (crossed : c.direction.Crosses a b box along across)
include first second other crossed

/-- A box that is crossed is in the layer of the end beside it. -/
theorem level_of_crosses :
    if c.direction.isReversed then
      m = k + 1 ∧ (c.direction.position box).along = (c.direction.position b).along ∧
        (c.direction.position box).along + (c.direction.extent box).along +
          c.direction.gap.along ≤ (c.direction.position a).along
    else
      m = k ∧ (c.direction.position box).along = (c.direction.position a).along ∧
        (c.direction.position box).along + (c.direction.extent box).along +
          c.direction.gap.along ≤ (c.direction.position b).along := by
  have turn := c.direction.onRoute_bend (first.passable second) crossed.beside
  have beside := first.beside second other turn crossed.turns.1 crossed.turns.2
  cases order : c.direction.isReversed with
  | false =>
    simp only [order, Bool.false_eq_true, if_false] at beside ⊢
    obtain ⟨rfl, _⟩ := beside
    have apart := other.lower_layer second (Nat.lt_succ_self m)
    simp only [order, Bool.false_eq_true, if_false] at apart
    exact ⟨rfl, other.along_eq_of_layer_eq first, apart⟩
  | true =>
    simp only [order, if_true] at beside ⊢
    obtain ⟨rfl, _⟩ := beside
    have apart := first.lower_layer other (Nat.lt_succ_self k)
    simp only [order, if_true] at apart
    exact ⟨rfl, other.along_eq_of_layer_eq second, apart⟩

/-- It reaches further than that end, by as much as it takes to reach half way to the other one. -/
theorem further_of_crosses :
    if c.direction.isReversed then
      (c.direction.extent b).along + c.direction.gap.along < (c.direction.extent box).along + 2
    else (c.direction.extent a).along + c.direction.gap.along < (c.direction.extent box).along := by
  have level := first.level_of_crosses second other crossed
  have turns := crossed.turns
  rw [Direction.bend, Direction.departure_along, Direction.arrival_along] at turns
  cases order : c.direction.isReversed <;>
    simp only [order, Bool.false_eq_true, if_true, if_false] at level turns ⊢ <;> omega

/-- The edge is on its way where it crosses the box. -/
theorem onRoute_of_crosses
    (high : along < (c.direction.position box).along + (c.direction.extent box).along) :
    c.direction.OnRoute a b along across := by
  have passable := first.passable second
  have level := first.level_of_crosses second other crossed
  obtain ⟨turns, beside, leg⟩ := crossed
  have start := c.direction.departure_along a
  have finish := c.direction.arrival_along b
  rw [Direction.onRoute_iff]
  unfold Direction.Passable at passable
  unfold Between Direction.bend at *
  cases order : c.direction.isReversed <;>
    simp only [order, Bool.false_eq_true, if_true, if_false] at level leg start finish <;> omega

end Crossed

/-- The cells of a character in a box are cells of the box. -/
theorem covers_of_shares (stands : c.Stands i l box) (style : Style) (covers : box.Covers x y)
    (shares : (c.arrange.boxLayer style).Shares y x k) : box.Covers k y := by
  obtain rfl | ⟨rfl, covered⟩ | ⟨rfl, covered⟩ := shares
  · exact covers
  · obtain ⟨other, placed, inside⟩ := c.enclosed_boxLayer style _ _ covered
    obtain ⟨_, _, stands'⟩ := exists_stands_of_mem_placed placed
    obtain rfl := stands.eq_of_covers stands' covers inside.covers
    obtain ⟨left, right, vertical⟩ := inside
    exact ⟨by omega, by omega, vertical⟩
  · obtain ⟨other, placed, inside⟩ := c.enclosed_boxLayer style _ _ covered
    obtain ⟨_, _, stands'⟩ := exists_stands_of_mem_placed placed
    have ⟨left, right, vertical⟩ := inside
    obtain rfl := stands.eq_of_covers stands' covers ⟨by omega, by omega, vertical⟩
    exact inside.covers

end Stands

/-- Wherever an edge is on its way within the drawing, a stroke shows in the end, be it of this edge
or of another one that is drawn over it. -/
theorem Spans.exists_shown (spans : c.Spans e l m a b) (member : e ∈ c.edges)
    (first : c.Stands i l a) (second : c.Stands j m b) {along across : Int}
    (on : c.direction.OnRoute a b along across) (start : 0 ≤ along)
    (here : c.direction.cell along across = ((x : Int), (y : Int))) (style : Style) :
    ∃ s ∈ c.arrange.routes.flatten, s.cell = ((x : Int), (y : Int)) ∧
      (c.arrange.grid style).cell? y x = some (.shown (style.glyph s.mark)) := by
  obtain ⟨s, onRoute, place⟩ := c.direction.exists_mem_route on
  obtain ⟨_, column, _, row⟩ := first.within_of_nonneg second place on start
  have drawn : s ∈ c.arrange.routes.flatten :=
    List.mem_flatten.mpr ⟨_, spans.route_mem member, onRoute⟩
  obtain ⟨before, after, strokes⟩ := List.append_of_mem drawn
  rw [here] at place
  obtain ⟨left, top⟩ := Prod.mk.inj place
  have shows : ((c.arrange.boxLayer style).trace style (before ++ s :: after)).Shows style y x
      fun mark => ∃ t ∈ c.arrange.routes.flatten, t.cell = ((x : Int), (y : Int)) ∧ t.mark = mark :=
    Grid.shows_trace place (by omega) (by omega) ⟨s, drawn, place, rfl⟩
      fun t later there => ⟨t, by simp [strokes, later], there, rfl⟩
  obtain ⟨_, ⟨t, member, there, rfl⟩, shown⟩ := shows.mark
  rw [← strokes, ← grid_eq_trace] at shown
  exact ⟨t, member, there, shown⟩

/-- A cell of a box stays as it is if no edge crosses the box in any part of its character. -/
theorem Stepwise.cell?_of_not_crosses (stepwise : c.Stepwise)
    (horizontal : c.direction.isHorizontal = true) (style : Style) (other : c.Stands h m box)
    (covers : box.Covers x y)
    (clear : ∀ k, (c.arrange.boxLayer style).Shares y x k → ∀ e ∈ c.edges, ∀ l m a b,
      c.Spans e l m a b → ¬c.direction.Crosses a b box k y) :
    (c.arrange.grid style).cell? y x = (c.arrange.boxLayer style).cell? y x := by
  rw [grid_eq_trace]
  refine Grid.cell?_trace_of_shares fun s inside k shares here => ?_
  obtain ⟨strokes, drawn, onRoute⟩ := List.mem_flatten.mp inside
  obtain ⟨e, member, l, _, a, b, spans, rfl⟩ := exists_spans_of_mem_routes drawn
  obtain ⟨rfl, i, j, first, second⟩ := stepwise.stands member spans
  obtain ⟨along, across, place, on⟩ := c.direction.exists_onRoute (first.passable second) onRoute
  rw [place] at here
  have covers' := other.covers_of_shares style covers shares
  obtain ⟨low, high⟩ := c.direction.along_of_covers covers' here
  obtain ⟨top, bottom⟩ := c.direction.across_of_covers covers' here
  have crossed := first.crosses second other on low high top bottom
  rw [Direction.cell, if_pos horizontal] at here
  obtain ⟨rfl, rfl⟩ := Prod.mk.inj here
  exact clear k shares e member l _ a b spans crossed

/-- In a horizontal direction, drawing the edges between neighbouring layers changes a cell of a box
only where an edge crosses the box, and there it shows a stroke of an edge in the end. An edge
crosses no box but those that are in the layer of the end beside it and broader than that end. -/
theorem sideways_boxes_kept (c : Chart) (horizontal : c.direction.isHorizontal = true)
    (stepwise : c.Stepwise) (style : Style) {n : Node} (member : n ∈ c.arrange.nodes) {box : Box}
    (given : n.box = some box) {x y : Nat} (covers : box.Covers x y) :
    ((∀ k, (c.arrange.boxLayer style).Shares y x k → ∀ e ∈ c.edges, ∀ l m a b,
        c.Spans e l m a b → ¬c.direction.Crosses a b box k y) →
      (c.arrange.grid style).cell? y x = (c.arrange.boxLayer style).cell? y x) ∧
    ∀ e ∈ c.edges, ∀ l m a b, c.Spans e l m a b → c.direction.Crosses a b box x y →
      (∃ s ∈ c.arrange.routes.flatten, s.cell = ((x : Int), (y : Int)) ∧
        (c.arrange.grid style).cell? y x = some (.shown (style.glyph s.mark))) ∧
      if c.direction.isReversed then
        c.ranks.layer? n.id = c.ranks.layer? e.target ∧ b.width + 2 < box.width
      else c.ranks.layer? n.id = c.ranks.layer? e.source ∧ a.width + 4 < box.width := by
  obtain ⟨h, layer, other, inLayer⟩ := exists_stands_of_mem_nodes member given
  refine ⟨stepwise.cell?_of_not_crosses horizontal style other covers, ?_⟩
  intro e edge l m a b spans crossed
  obtain ⟨rfl, i, j, first, second⟩ := stepwise.stands edge spans
  constructor
  · have here : c.direction.cell x y = ((x : Int), (y : Int)) := by
      rw [Direction.cell, if_pos horizontal]
    have on := first.onRoute_of_crosses second other crossed
      (c.direction.along_of_covers covers here).2
    exact spans.exists_shown edge first second on (Int.natCast_nonneg x) here style
  · have level := first.level_of_crosses second other crossed
    have further := first.further_of_crosses second other crossed
    simp only [Direction.extent, Direction.measure, Direction.gap, horizontal, if_true] at further
    rw [inLayer, spans.layer, spans.layer']
    cases order : c.direction.isReversed <;>
      simp only [order, Bool.false_eq_true, if_true, if_false] at level further ⊢
    · exact ⟨congrArg some level.1, further⟩
    · exact ⟨congrArg some level.1, by omega⟩

/-- The edge from `A` to `D` turns half way between these two, where the box of `B` still is. -/
def crossed : Chart where
  direction := .leftRight
  nodes := [⟨"A", "A", none⟩, ⟨"C", "C", none⟩, ⟨"D", "D", none⟩, ⟨"B", "a long label", none⟩]
  edges := [⟨"A", "C"⟩, ⟨"A", "D"⟩]
  distinct := by decide

/-- The edge is drawn over the label of `B`. -/
theorem label_crossed :
    read "flowchart LR\nA --> C\nA --> D\nB[a long label]" = .ok crossed ∧
      crossed.direction.isHorizontal = true ∧ crossed.Stepwise ∧
      ∃ box ∈ crossed.arrange.placed, box.Covers 11 6 ∧
        (crossed.arrange.boxLayer .unicode).cell? 6 11 = some (.shown 'e') ∧
        (crossed.arrange.grid .unicode).cell? 6 11 = some (.shown '└') := by
  refine ⟨by decide +kernel, by decide, by decide +kernel, ⟨0, 5, 14, 3⟩, by decide +kernel, ?_,
    by decide +kernel, by decide +kernel⟩
  unfold Box.Covers
  decide

theorem sideways_boxes_kept_crossed :
    crossed.direction.isHorizontal = true ∧ crossed.Stepwise ∧
      (crossed.arrange.grid .unicode).cell? 6 1 = some (.shown 'a') ∧
      (∃ s ∈ crossed.arrange.routes.flatten, s.cell = (11, 6) ∧
        (crossed.arrange.grid .unicode).cell? 6 11 = some (.shown (Style.unicode.glyph s.mark))) ∧
      crossed.ranks.layer? "B" = crossed.ranks.layer? "A" := by
  have horizontal : crossed.direction.isHorizontal = true := by decide
  have stepwise : crossed.Stepwise := by decide +kernel
  have member : (⟨"B", "a long label", some ⟨0, 5, 14, 3⟩⟩ : Node) ∈ crossed.arrange.nodes := by
    decide +kernel
  have boxA : crossed.arrange.box? "A" = some ⟨0, 0, 5, 3⟩ := by decide +kernel
  have boxC : crossed.arrange.box? "C" = some ⟨18, 0, 5, 3⟩ := by decide +kernel
  have boxD : crossed.arrange.box? "D" = some ⟨18, 5, 5, 3⟩ := by decide +kernel
  have layerA : crossed.ranks.layer? "A" = some 0 := by decide +kernel
  have layerD : crossed.ranks.layer? "D" = some 1 := by decide +kernel
  have kept := (sideways_boxes_kept crossed horizontal stepwise .unicode member rfl
    (x := 1) (y := 6) (by unfold Box.Covers; decide)).1
  have drawn := (sideways_boxes_kept crossed horizontal stepwise .unicode member rfl
    (x := 11) (y := 6) (by unfold Box.Covers; decide)).2
  have clear : (crossed.arrange.grid .unicode).cell? 6 1 =
      (crossed.arrange.boxLayer .unicode).cell? 6 1 := by
    refine kept fun k shares e edge l m a b spans passes => ?_
    obtain rfl : k = 1 := by
      rcases shares with same | ⟨_, covered⟩ | ⟨rfl, covered⟩
      · exact same
      · exact absurd covered (by decide +kernel)
      · exact absurd covered (by decide +kernel)
    have turn : crossed.direction.bend a b = 11 := by
      simp only [crossed, List.mem_cons, List.not_mem_nil, or_false] at edge
      rcases edge with rfl | rfl
      all_goals obtain rfl := Option.some.inj (boxA.symm.trans spans.box)
      · obtain rfl := Option.some.inj (boxC.symm.trans spans.box')
        rfl
      · obtain rfl := Option.some.inj (boxD.symm.trans spans.box')
        rfl
    have leg := passes.leg
    omega
  have label : (crossed.arrange.boxLayer .unicode).cell? 6 1 = some (.shown 'a') := by
    decide +kernel
  have spans : crossed.Spans ⟨"A", "D"⟩ 0 1 ⟨0, 0, 5, 3⟩ ⟨18, 5, 5, 3⟩ :=
    ⟨layerA, layerD, boxA, boxD⟩
  obtain ⟨shown, level, _⟩ := drawn _ (by decide) _ _ _ _ spans
    ⟨by decide, by unfold Between; decide, .inl rfl⟩
  exact ⟨horizontal, stepwise, clear.trans label, shown, level⟩

end Chart

end Flowchart
