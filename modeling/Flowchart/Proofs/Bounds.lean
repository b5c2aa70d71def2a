import Flowchart.Proofs.Spans

/-! The routes of an arranged chart stay within the cells of its drawing, so nothing of them is cut
off. Only an edge that leaves the last layer against a reversed direction starts one cell outside
of the drawing, and such an edge is part of a cycle or comes after one. -/
namespace Flowchart

/-- A stroke hits a cell of a grid with that many columns and rows. -/
def Stroke.Within (s : Stroke) (columns rows : Nat) : Prop :=
  0 ≤ s.x ∧ s.x < columns ∧ 0 ≤ s.y ∧ s.y < rows

instance (s : Stroke) (columns rows : Nat) : Decidable (s.Within columns rows) :=
  inferInstanceAs (Decidable (_ ∧ _))

namespace Direction

theorem within_iff (d : Direction) {s : Stroke} {along across : Int} {columns rows : Nat}
    (place : s.cell = d.cell along across) :
    s.Within columns rows ↔
      (0 ≤ along ∧ along < (d.measure columns rows).along) ∧
        0 ≤ across ∧ across < (d.measure columns rows).across := by
  obtain ⟨x, y, mark⟩ := s
  cases d <;> obtain ⟨rfl, rfl⟩ := Prod.mk.inj place <;>
    simp only [Stroke.Within, measure, isHorizontal, Bool.false_eq_true, if_true, if_false] <;>
    omega

theorem along_eq_of_cell (d : Direction) {s : Stroke} {along across : Int}
    (place : s.cell = d.cell along across) : (if d.isHorizontal then s.x else s.y) = along := by
  obtain ⟨x, y, mark⟩ := s
  cases d <;> obtain ⟨rfl, rfl⟩ := Prod.mk.inj place <;> rfl

theorem cell_inj (d : Direction) {along across along' across' : Int} :
    d.cell along across = d.cell along' across' ↔ along = along' ∧ across = across' := by
  cases d <;> simp [cell, isHorizontal, and_comm]

end Direction

namespace Chart

variable {c : Chart}

/-- A drawing is two cells longer and two cells broader than its boxes reach. -/
theorem position_add_extent_le {box : Box} (placed : box ∈ c.placed) (d : Direction) :
    (d.position box).along + (d.extent box).along + 2 ≤ (d.measure c.columns c.rows).along ∧
      (d.position box).across + (d.extent box).across + 2 ≤
        (d.measure c.columns c.rows).across := by
  have right : box.x + box.width ≤ (c.placed.map Box.right).max?.getD 0 :=
    List.le_max?_getD_of_mem (List.mem_map_of_mem (f := Box.right) placed)
  have bottom : box.y + box.height ≤ (c.placed.map Box.bottom).max?.getD 0 :=
    List.le_max?_getD_of_mem (List.mem_map_of_mem (f := Box.bottom) placed)
  cases d <;>
    simp only [Direction.position, Direction.extent, Direction.measure, Direction.isHorizontal,
      columns, rows, Bool.false_eq_true, if_true, if_false] <;>
    omega

/-- No node is in a higher layer. -/
def IsLast (c : Chart) (layer : Nat) : Prop := ∀ id l, c.ranks.layer? id = some l → l ≤ layer

theorem exists_higher {l : Nat} (further : ¬c.IsLast l) :
    ∃ j m b, c.Stands j m b ∧ l < m := by
  simp only [IsLast, not_forall, not_le] at further
  obtain ⟨id, m, inLayer, higher⟩ := further
  obtain ⟨j, m', b, stands, same, _⟩ := exists_stands_of_mem_ids (mem_ids_of_layer? inLayer)
  obtain rfl := Option.some.inj (same.symm.trans inLayer)
  exact ⟨j, m', b, stands, higher⟩

theorem exists_stands_of_mem_nodes {n : Node} (member : n ∈ c.arrange.nodes) {box : Box}
    (given : n.box = some box) : ∃ i l, c.Stands i l box ∧ c.ranks.layer? n.id = some l := by
  obtain ⟨i, node⟩ := List.mem_iff_getElem?.mp member
  obtain ⟨m, _, known, _, rfl⟩ := exists_of_getElem?_arrange node
  obtain ⟨l, layer, _⟩ := getElem?_items known
  exact ⟨i, l, ⟨_, node, layer, given⟩, layer⟩

theorem exists_stands_of_mem_placed {box : Box} (placed : box ∈ c.arrange.placed) :
    ∃ i l, c.Stands i l box := by
  obtain ⟨n, member, given⟩ := List.mem_filterMap.mp placed
  obtain ⟨i, l, stands, _⟩ := exists_stands_of_mem_nodes member given
  exact ⟨i, l, stands⟩

namespace Stands

variable {i j l m : Nat} {a b : Box}

theorem mem_placed (stands : c.Stands i l a) : a ∈ c.arrange.placed := by
  obtain ⟨n, node, _, box⟩ := stands
  exact List.mem_filterMap.mpr ⟨n, List.mem_of_getElem? node, box⟩

/-- In a reversed direction the last layer is at the start. -/
theorem along_eq_zero (stands : c.Stands i l a) (reversed : c.direction.isReversed = true)
    (last : c.IsLast l) : (c.direction.position a).along = 0 := by
  obtain ⟨place, width, placed, item, rfl⟩ := stands.exists_place
  rw [Placement.getElem?_places _ _ item, Option.some.injEq] at placed
  rw [Direction.position_box, ← placed, reversed]
  apply Placement.start_eq_zero
  rw [Placement.length_bands]
  refine Nat.succ_le_succ (max?_getD_le fun k member => ?_)
  obtain ⟨other, inside, rfl⟩ := List.mem_map.mp member
  obtain ⟨h, at_h⟩ := List.mem_iff_getElem?.mp inside
  obtain ⟨_, n, _, layer, _⟩ := exists_stands at_h
  exact last n.id _ layer

/-- In a reversed direction all layers but the last one come after the start. -/
theorem along_pos (stands : c.Stands i l a) (reversed : c.direction.isReversed = true)
    (further : ¬c.IsLast l) : 0 < (c.direction.position a).along := by
  obtain ⟨j, m, b, behind, higher⟩ := exists_higher further
  have apart := stands.lower_layer behind higher
  have size := behind.three_le_extent
  rw [if_pos reversed] at apart
  omega

/-- A stroke of a route is within the drawing unless it lies before the start. -/
theorem within_of_nonneg (first : c.Stands i l a) (second : c.Stands j m b) {s : Stroke}
    {along across : Int} (place : s.cell = c.direction.cell along across)
    (on : c.direction.OnRoute a b along across) (start : 0 ≤ along) :
    s.Within c.arrange.columns c.arrange.rows := by
  have ⟨farA, broadA⟩ := position_add_extent_le first.mem_placed c.direction
  have ⟨farB, broadB⟩ := position_add_extent_le second.mem_placed c.direction
  have sizeA := first.three_le_extent
  have sizeB := second.three_le_extent
  have between := on.between
  have beside := on.beside
  rw [Direction.departure_along, Direction.arrival_along] at between
  rw [Between, Direction.departure_across, Direction.arrival_across] at beside
  refine (c.direction.within_iff place).mpr ⟨⟨start, ?_⟩, ?_⟩
  · split at between <;> omega
  · omega

theorem within (first : c.Stands i l a) (second : c.Stands j m b)
    (inside : c.direction.isReversed = true → ¬c.IsLast l) {s : Stroke}
    (member : s ∈ c.direction.route a b) : s.Within c.arrange.columns c.arrange.rows := by
  obtain ⟨along, across, place, on⟩ := c.direction.exists_onRoute (first.passable second) member
  refine first.within_of_nonneg second place on ?_
  have size := second.three_le_extent
  have between := on.between
  rw [Direction.departure_along, Direction.arrival_along] at between
  split at between
  · next reversed =>
    have after := first.along_pos reversed (inside reversed)
    omega
  · omega

/-- Against a reversed direction the last layer is left through the edge of the drawing. -/
theorem exists_first_outside (first : c.Stands i l a) (second : c.Stands j m b)
    (reversed : c.direction.isReversed = true) (last : c.IsLast l) :
    ∃ s rest, c.direction.route a b = s :: rest ∧
      s.cell = c.direction.cell (-1) (c.direction.departure a).2 ∧
      ∀ t ∈ rest, t.Within c.arrange.columns c.arrange.rows := by
  have passable := first.passable second
  have size := second.three_le_extent
  have start : (c.direction.departure a).1 = -1 := by
    rw [Direction.departure_along, if_pos reversed, first.along_eq_zero reversed last]
    rfl
  have finish : 2 ≤ (c.direction.arrival b).1 := by
    rw [Direction.arrival_along, if_pos reversed]
    omega
  have leads := c.direction.leads_route .unicode passable
  rw [← Direction.cell_departure, ← Direction.cell_arrival, start] at leads
  obtain ⟨p, ps, plots, outside, others⟩ := leads.exists_cons (by
    have onward : toward (-1) (c.direction.arrival b).1 = 1 := by
      unfold toward
      split <;> omega
    rw [Direction.travel, start, onward, c.direction.beyond_sideAlong (.inl rfl),
      Ne, Direction.cell_inj]
    omega)
  obtain ⟨s, rest, strokes, rfl, rfl⟩ := List.map_eq_cons_iff.mp plots
  refine ⟨s, rest, strokes, outside, fun t member => ?_⟩
  obtain ⟨along, across, place, on⟩ :=
    c.direction.exists_onRoute passable (strokes ▸ List.mem_cons_of_mem s member)
  refine first.within_of_nonneg second place on ?_
  have other := others _ (List.mem_map_of_mem member)
  rw [Stroke.plot, place, Ne, Direction.cell_inj] at other
  have between := on.between
  have leg := on.leg
  -- the bend lies inside, so no other place of the route is level with its first cell
  simp only [Between, Direction.bend, start] at between leg
  omega

end Stands

/-- Without a cycle every edge leads to a higher layer. -/
theorem Spans.lower_of_acyclic {e : Edge} {l m : Nat} {a b : Box} (spans : c.Spans e l m a b)
    (member : e ∈ c.edges) (acyclic : ∀ id, ¬Relation.TransGen c.Joined id id) : l < m := by
  have free : e.source ∉ c.ranks.unresolved := by
    rw [c.ranks_settled.released_iff_not_behindCycle]
    rintro ⟨id, cycle, _⟩
    exact acyclic id cycle
  have joined : c.Joined e.source e.target :=
    ⟨mem_ids_of_layer? spans.layer, mem_ids_of_layer? spans.layer', member⟩
  have above := c.ranks_settled.above _ _ joined free
  rwa [layerOf, layerOf, spans.layer, spans.layer'] at above

/-- No stroke of an accepted source misses its drawing, but for the first one of an edge that leaves
the last layer against a reversed direction. That one is just outside of the drawing, and if the
source has no cycle there is no such edge. -/
theorem strokes_within {source : String} {c : Chart} (accepted : read source = .ok c) :
    List.Forall₂ (fun e strokes => ∃ l, c.ranks.layer? e.source = some l ∧
        (¬(c.direction.isReversed = true ∧ c.IsLast l) →
          ∀ s ∈ strokes, s.Within c.arrange.columns c.arrange.rows) ∧
        (c.direction.isReversed = true ∧ c.IsLast l →
          ∃ first rest, strokes = first :: rest ∧
            (if c.direction.isHorizontal then first.x else first.y) = -1 ∧
            ∀ s ∈ rest, s.Within c.arrange.columns c.arrange.rows))
      c.edges c.arrange.routes ∧
    ((∀ id, ¬Relation.TransGen c.Joined id id) →
      ∀ strokes ∈ c.arrange.routes, ∀ s ∈ strokes, s.Within c.arrange.columns c.arrange.rows) := by
  constructor
  · refine forall₂_routes (describable_of_read accepted).ends fun e _ l m a b spans => ?_
    obtain ⟨i, first⟩ := spans.source
    obtain ⟨j, second⟩ := spans.target
    refine ⟨l, spans.layer, fun inside s member => ?_, fun ⟨reversed, last⟩ => ?_⟩
    · exact first.within second (fun reversed last => inside ⟨reversed, last⟩) member
    · obtain ⟨s, rest, strokes, outside, others⟩ := first.exists_first_outside second reversed last
      exact ⟨s, rest, strokes, c.direction.along_eq_of_cell outside, others⟩
  · intro acyclic strokes drawn s member
    obtain ⟨e, edge, l, m, a, b, spans, rfl⟩ := exists_spans_of_mem_routes drawn
    obtain ⟨i, first⟩ := spans.source
    obtain ⟨j, second⟩ := spans.target
    refine first.within second (fun _ last => ?_) member
    have higher := spans.lower_of_acyclic edge acyclic
    have bound := last e.target m spans.layer'
    omega

/-- The chart `fed` the other way round. Only the edge from `A` leaves the last layer. -/
def backed : Chart := { fed with direction := .rightLeft }

/-- The chart `fork` upside down. -/
def risen : Chart := { fork with direction := .bottomTop }

theorem strokes_within_backed :
    (read "flowchart RL\nX --> A\nA --> B\nB --> A" = .ok backed ∧
      ∃ onward out back, backed.arrange.routes = [onward, out, back] ∧
        (∀ s ∈ onward, s.Within 16 10) ∧ (∀ s ∈ back, s.Within 16 10) ∧
        ∃ first rest, out = first :: rest ∧ first.x = -1 ∧ ∀ s ∈ rest, s.Within 16 10) ∧
    read "flowchart BT\nA --> B\nA --> C" = .ok risen ∧
      (∀ id, ¬Relation.TransGen risen.Joined id id) ∧
      ∀ strokes ∈ risen.arrange.routes, ∀ s ∈ strokes,
        s.Within risen.arrange.columns risen.arrange.rows := by
  constructor
  · have accepted : read "flowchart RL\nX --> A\nA --> B\nB --> A" = .ok backed := by
      decide +kernel
    have columns : backed.arrange.columns = 16 := by decide +kernel
    have rows : backed.arrange.rows = 10 := by decide +kernel
    have layers : backed.ranks.layers = [("X", 0), ("A", 1), ("B", 0)] := by decide +kernel
    have last : backed.IsLast 1 := by
      intro id l inLayer
      have entry := mem_layers_of_layer? inLayer
      simp only [layers, List.mem_cons, Prod.mk.injEq, List.not_mem_nil, or_false] at entry
      omega
    have layerX : backed.ranks.layer? "X" = some 0 := by decide +kernel
    have layerA : backed.ranks.layer? "A" = some 1 := by decide +kernel
    have layerB : backed.ranks.layer? "B" = some 0 := by decide +kernel
    have first : ¬backed.IsLast 0 := fun last => absurd (last "A" 1 layerA) (by decide)
    have drawn := (strokes_within accepted).1
    rw [columns, rows] at drawn
    obtain ⟨onward, _, ⟨l, layer, inside, _⟩, later, all⟩ := List.forall₂_cons_left_iff.mp drawn
    obtain ⟨out, _, ⟨l', layer', _, cut⟩, final, rfl⟩ := List.forall₂_cons_left_iff.mp later
    obtain ⟨back, _, ⟨l'', layer'', inside', _⟩, none, rfl⟩ := List.forall₂_cons_left_iff.mp final
    obtain rfl := List.forall₂_nil_left_iff.mp none
    obtain rfl := Option.some.inj (layerX.symm.trans layer)
    obtain rfl := Option.some.inj (layerA.symm.trans layer')
    obtain rfl := Option.some.inj (layerB.symm.trans layer'')
    exact ⟨accepted, onward, out, back, all, inside fun back => first back.2,
      inside' fun back => first back.2, cut ⟨rfl, last⟩⟩
  · have accepted : read "flowchart BT\nA --> B\nA --> C" = .ok risen := by decide +kernel
    have free : risen.ranks.unresolved = [] := by decide +kernel
    have acyclic (id : String) : ¬Relation.TransGen risen.Joined id id := fun cycle =>
      risen.ranks_settled.not_behindCycle (v := id) (by simp [free]) ⟨id, cycle, .refl⟩
    exact ⟨accepted, acyclic, (strokes_within accepted).2 acyclic⟩

end Chart

end Flowchart
