import Flowchart.Proofs.Channels

/-! The arrangement of a chart in the opposite direction. Layers, sizes and the order of the nodes
in a layer stay; only the layers are placed in the opposite order. In the vertical directions all
boxes are equally deep, so the boxes of the one arrangement are those of the other upside down. -/
namespace Flowchart

namespace Placement

/-- How far all layers reach together, with a gap between one and the next. -/
def reach (gap : Measure) (table : List Band) : Nat :=
  start gap false table table.length - gap.along

/-- What comes before a layer, the layer itself and what comes after it make up the whole. -/
theorem start_add_start (gap : Measure) {table : List Band} {l : Nat} (bound : l < table.length) :
    start gap false table l + start gap true table l + table[l].depth = reach gap table := by
  have whole : table.take l ++ table[l] :: table.drop (l + 1) = table := by
    rw [← List.drop_eq_getElem_cons bound, List.take_append_drop]
  have sum := congrArg (fun t => (t.map fun b : Band => b.depth + gap.along).sum) whole
  simp only [List.map_append, List.map_cons, List.sum_append_nat, List.sum_cons] at sum
  simp only [reach, start, Bool.false_eq_true, if_true, if_false, List.take_length,
    ← List.sum_eq_foldr]
  omega

end Placement

namespace Direction

/-- The direction along the same axis that runs the other way. -/
def reverse : Direction → Direction
  | leftRight => rightLeft
  | rightLeft => leftRight
  | topBottom => bottomTop
  | bottomTop => topBottom

@[simp] theorem isHorizontal_reverse (d : Direction) : d.reverse.isHorizontal = d.isHorizontal := by
  cases d <;> rfl

@[simp] theorem isReversed_reverse (d : Direction) : d.reverse.isReversed = !d.isReversed := by
  cases d <;> rfl

@[simp] theorem gap_reverse (d : Direction) : d.reverse.gap = d.gap := by cases d <;> rfl

@[simp] theorem measure_reverse (d : Direction) : d.reverse.measure = d.measure := by
  cases d <;> rfl

@[simp] theorem box_reverse (d : Direction) : d.reverse.box = d.box := by cases d <;> rfl

end Direction

/-- A box in a drawing of some height that is turned upside down. -/
def Box.flipped (height : Nat) (b : Box) : Box := { b with y := height - b.height - b.y }

namespace Chart

variable {c : Chart} {i l : Nat} {a : Box}

def reversed (c : Chart) : Chart := { c with direction := c.direction.reverse }

@[simp] theorem direction_reversed (c : Chart) : c.reversed.direction = c.direction.reverse := rfl

@[simp] theorem items_reversed (c : Chart) : c.reversed.items = c.items := by
  simp only [items, direction_reversed, Direction.measure_reverse]
  rfl

/-- How far the layers of a chart reach along its direction. -/
def reach (c : Chart) : Nat :=
  Placement.reach c.direction.gap (Placement.bands c.direction.gap c.items)

/-- How deep a layer is. -/
def depth (c : Chart) (layer : Nat) : Nat :=
  (Placement.band c.direction.gap (Placement.members c.items layer)).depth

/-- A node keeps its place across the direction, and its places along the two directions lie
opposite each other. -/
theorem exists_places_reversed {n : Node} (node : c.nodes[i]? = some n) :
    ∃ layer p q, c.items[i]? = some ⟨layer, c.direction.measure n.width Node.height⟩ ∧
      c.arrange.nodes[i]? =
        some { n with box := some (c.direction.box p n.width Node.height) } ∧
      c.reversed.arrange.nodes[i]? =
        some { n with box := some (c.direction.box q n.width Node.height) } ∧
      q.across = p.across ∧ p.along + q.along + c.depth layer = c.reach := by
  obtain ⟨layer, _, item⟩ := getElem?_items node
  obtain ⟨p, place, given⟩ := getElem?_arrange node
  obtain ⟨q, place', given'⟩ := getElem?_arrange (c := c.reversed) node
  simp only [direction_reversed, Direction.gap_reverse, Direction.isReversed_reverse,
    Direction.box_reverse, items_reversed] at place' given'
  refine ⟨layer, p, q, item, given, given', ?_⟩
  rw [Placement.getElem?_places _ _ item, Option.some.injEq] at place place'
  have bound : layer < (Placement.bands c.direction.gap c.items).length :=
    Placement.layer_lt_length_bands c.direction.gap (List.mem_of_getElem? item)
  have sum := Placement.start_add_start c.direction.gap bound
  rw [Placement.getElem_bands] at sum
  subst place place'
  refine ⟨rfl, ?_⟩
  simp only [depth, reach]
  cases c.direction.isReversed <;> simp only [Bool.not_false, Bool.not_true] <;> omega

/-- No layer up to that of a node is empty. -/
theorem exists_layerOf_eq {id : String} (known : id ∈ c.ids) {k : Nat} (low : k ≤ c.layerOf id) :
    ∃ id' ∈ c.ids, c.layerOf id' = k := by
  generalize own : c.layerOf id = l at low
  induction l generalizing id with
  | zero => exact ⟨id, known, own.trans (Nat.le_zero.mp low).symm⟩
  | succ l ih =>
    rcases Nat.lt_or_eq_of_le low with lower | rfl
    · rcases c.ranks_settled.reached id with bottom | ⟨u, edge, _, next⟩
      · omega
      · exact ih edge.1 (by omega) (Nat.le_of_lt_succ lower)
    · exact ⟨id, known, own⟩

theorem exists_stands_zero (nonempty : c.nodes ≠ []) : ∃ i a, c.Stands i 0 a := by
  obtain ⟨n, others, nodes⟩ := List.exists_cons_of_ne_nil nonempty
  have known : n.id ∈ c.ids := by simp [ids, nodes]
  obtain ⟨id, known', bottom⟩ := exists_layerOf_eq known (Nat.zero_le _)
  obtain ⟨i, l, a, stands, layer, _⟩ := exists_stands_of_mem_ids known'
  rw [layer?_eq_layerOf known', bottom, Option.some.injEq] at layer
  exact ⟨i, a, layer ▸ stands⟩

theorem exists_stands_isLast (nonempty : c.nodes ≠ []) : ∃ i l a, c.Stands i l a ∧ c.IsLast l := by
  have layers : c.items.map Item.layer ≠ [] := by
    rw [Ne, List.map_eq_nil_iff, ← List.length_eq_zero_iff, length_items, List.length_eq_zero_iff]
    exact nonempty
  obtain ⟨item, member, highest⟩ := List.mem_map.mp (max?_getD_mem layers)
  obtain ⟨i, at_i⟩ := List.mem_iff_getElem?.mp member
  obtain ⟨a, stands⟩ := exists_stands at_i
  refine ⟨i, item.layer, a, stands, fun id l layer => ?_⟩
  obtain ⟨j, m, b, other, layer', _⟩ := exists_stands_of_mem_ids (mem_ids_of_layer? layer)
  obtain rfl := Option.some.inj (layer'.symm.trans layer)
  obtain ⟨_, _, _, item', _⟩ := other.exists_place
  rw [highest]
  exact List.le_max?_getD_of_mem (List.mem_map_of_mem (f := Item.layer) (List.mem_of_getElem? item'))

/-- Some box is placed at the very start. -/
theorem exists_along_eq_zero (nonempty : c.nodes ≠ []) :
    ∃ box ∈ c.arrange.placed, (c.direction.position box).along = 0 := by
  cases order : c.direction.isReversed with
  | true =>
    obtain ⟨i, l, a, stands, last⟩ := exists_stands_isLast nonempty
    exact ⟨a, stands.mem_placed, stands.along_eq_zero order last⟩
  | false =>
    obtain ⟨i, a, stands⟩ := exists_stands_zero nonempty
    obtain ⟨place, width, placed, item, rfl⟩ := stands.exists_place
    rw [Placement.getElem?_places _ _ item, order, Option.some.injEq] at placed
    refine ⟨_, stands.mem_placed, ?_⟩
    rw [Direction.position_box, ← placed]
    rfl

section Vertical

variable (vertical : c.direction.isHorizontal = false)
include vertical

theorem depth_eq {item : Item} (member : item ∈ c.items) : c.depth item.layer = Node.height := by
  have bound := Placement.layer_lt_length_bands c.direction.gap member
  have deep := Placement.along_le_depth member bound
  have shallow := Placement.depth_le
    (fun item member => (along_of_mem_items vertical member).le) bound
  rw [along_of_mem_items vertical member] at deep
  rw [Placement.getElem_bands] at deep shallow
  exact Nat.le_antisymm shallow deep

/-- In a vertical direction the boxes of the reversed arrangement are those of the other one upside
down. -/
theorem nodes_reversed :
    c.reversed.arrange.nodes = c.arrange.nodes.map fun n =>
      { n with box := n.box.map (Box.flipped c.reach) } := by
  apply List.ext_getElem?
  intro i
  rw [List.getElem?_map]
  cases node : c.nodes[i]? with
  | none =>
    have outside : c.nodes.length ≤ i := List.getElem?_eq_none_iff.mp node
    have absent : c.arrange.nodes[i]? = none := by simpa using outside
    have absent' : c.reversed.arrange.nodes[i]? = none := by
      rwa [List.getElem?_eq_none_iff, length_arrange]
    rw [absent, absent', Option.map_none]
  | some n =>
    obtain ⟨layer, p, q, item, given, given', across, along⟩ := exists_places_reversed node
    rw [depth_eq vertical (List.mem_of_getElem? item)] at along
    rw [given, given', Option.map_some]
    simp only [Direction.box, vertical, Bool.false_eq_true, if_false, Option.map_some, Box.flipped,
      across, Option.some.injEq, Node.mk.injEq, Box.mk.injEq, true_and, and_true]
    omega

theorem placed_reversed :
    c.reversed.arrange.placed = c.arrange.placed.map (Box.flipped c.reach) := by
  rw [placed, placed, nodes_reversed vertical, List.filterMap_map, List.map_filterMap]
  rfl

theorem box?_reversed (id : String) :
    c.reversed.arrange.box? id = (c.arrange.box? id).map (Box.flipped c.reach) := by
  rw [box?, box?, node?, node?, nodes_reversed vertical, List.find?_map, Option.bind_map,
    Option.map_bind]
  rfl

theorem columns_reversed : c.reversed.arrange.columns = c.arrange.columns := by
  rw [columns, columns, placed_reversed vertical, List.map_map]
  rfl

/-- How a box lies within the reach of the layers. -/
theorem height_and_bottom_le {box : Box} (placed : box ∈ c.arrange.placed) :
    box.height = Node.height ∧ box.bottom ≤ c.reach := by
  obtain ⟨n, member, given⟩ := List.mem_filterMap.mp placed
  obtain ⟨i, found⟩ := List.mem_iff_getElem?.mp member
  obtain ⟨m, _, node, _⟩ := exists_of_getElem?_arrange found
  obtain ⟨layer, p, q, item, given', _, _, along⟩ := exists_places_reversed node
  rw [depth_eq vertical (List.mem_of_getElem? item)] at along
  obtain rfl := Option.some.inj (found.symm.trans given')
  obtain rfl := Option.some.inj given
  simp only [Direction.box, vertical, Bool.false_eq_true, if_false, Box.bottom, true_and]
  omega

/-- The lowest box ends where the layers do. -/
theorem max?_bottom : (c.arrange.placed.map Box.bottom).max?.getD 0 = c.reach := by
  apply Nat.le_antisymm
  · refine max?_getD_le fun row member => ?_
    obtain ⟨box, placed, rfl⟩ := List.mem_map.mp member
    exact (height_and_bottom_le vertical placed).2
  · by_cases empty : c.nodes = []
    · have noItems : c.items = [] := List.length_eq_zero_iff.mp (by rw [length_items, empty]; rfl)
      simp [reach, Placement.reach, Placement.start, Placement.bands, Placement.members,
        Placement.band, noItems]
    · obtain ⟨box, placed', start⟩ := exists_along_eq_zero (c := c.reversed) empty
      rw [placed_reversed vertical] at placed'
      obtain ⟨b, placed, rfl⟩ := List.mem_map.mp placed'
      have least := List.le_max?_getD_of_mem (k := 0) (List.mem_map_of_mem (f := Box.bottom) placed)
      simp only [Direction.position, Direction.measure, direction_reversed,
        Direction.isHorizontal_reverse, vertical, Bool.false_eq_true, if_false,
        Box.flipped] at start
      rw [Box.bottom] at least
      omega

theorem rows_eq : c.arrange.rows = c.reach + 2 := by
  rw [rows, max?_bottom vertical]

end Vertical

@[simp] theorem reach_reversed (c : Chart) : c.reversed.reach = c.reach := by
  simp only [reach, direction_reversed, Direction.gap_reverse, items_reversed]

end Chart

end Flowchart
