import Mathlib.Algebra.BigOperators.Intervals
import Flowchart.Proofs.Reversal

/-! How far an arrangement reaches. No layer is empty, so the layers fill the drawing along the
direction, with just a gap between one and the next, and the broadest layer fills it across. Every
other layer stands in the middle of the broadest one, as far as whole cells allow. -/
namespace Flowchart

namespace Placement

variable {gap : Measure} {items : List Item} {table : List Band} {l : Nat}

theorem advance_take_le (gap : Measure) (items : List Item) (i l : Nat) :
    advance gap (items.take i) l ≤ advance gap items l := by
  have whole := advance_append gap (items.take i) (items.drop i) l
  rw [List.take_append_drop] at whole
  omega

/-- All items of a layer push together as far as the layer is broad, and a gap further. -/
theorem advance_eq (gap : Measure) (inhabited : ∃ item ∈ items, item.layer = l) :
    advance gap items l = (band gap (members items l)).breadth + gap.across := by
  obtain ⟨item, member, own⟩ := inhabited
  have inside : item ∈ members items l := List.mem_filter.mpr ⟨member, by simpa using own⟩
  obtain ⟨k, size⟩ := Nat.exists_eq_succ_of_ne_zero (List.length_pos_of_mem inside).ne'
  simp only [advance, band, ← List.sum_eq_foldr, List.sum_map_add, List.map_const',
    List.sum_replicate_nat, size, Nat.succ_mul, Nat.succ_sub_one]
  omega

/-- Nothing of its layer stands before the first item of a layer. -/
theorem exists_advance_eq_zero (gap : Measure) (inhabited : ∃ item ∈ items, item.layer = l) :
    ∃ (i : Nat) (item : Item), items[i]? = some item ∧ item.layer = l ∧
      advance gap (items.take i) l = 0 := by
  have found : (items.find? (·.layer = l)).isSome := by simpa using inhabited
  obtain ⟨item, first⟩ := Option.isSome_iff_exists.mp found
  obtain ⟨own, before, after, rfl, none⟩ := List.find?_eq_some_iff_append.mp first
  refine ⟨before.length, item, by simp, by simpa using own, ?_⟩
  rw [List.take_left]
  exact advance_eq_zero fun other member => by simpa using none other member

/-- Nothing of its layer stands after the last item of a layer. -/
theorem exists_advance_eq (gap : Measure) (inhabited : ∃ item ∈ items, item.layer = l) :
    ∃ (i : Nat) (item : Item), items[i]? = some item ∧ item.layer = l ∧
      advance gap (items.take (i + 1)) l = advance gap items l := by
  obtain ⟨before, item, after, rfl, own, none⟩ := exists_last inhabited
  refine ⟨before.length, item, by simp, own, ?_⟩
  have whole : before ++ item :: after = (before ++ [item]) ++ after := by simp
  have part : (before ++ item :: after).take (before.length + 1) = before ++ [item] := by
    rw [whole, List.take_left' (by simp)]
  rw [part, whole, advance_append gap (before ++ [item]), advance_eq_zero none, Nat.add_zero]

theorem reach_eq (gap : Measure) (nonempty : table ≠ []) :
    reach gap table = (table.map Band.depth).foldr (· + ·) 0 + (table.length - 1) * gap.along := by
  obtain ⟨k, size⟩ := Nat.exists_eq_succ_of_ne_zero (List.length_pos_of_ne_nil nonempty).ne'
  simp only [reach, start, Bool.false_eq_true, if_false, List.take_length, ← List.sum_eq_foldr,
    List.sum_map_add, List.map_const', List.sum_replicate_nat]
  rw [size, Nat.succ_mul, Nat.succ_sub_one]
  omega

theorem start_zero (gap : Measure) (table : List Band) : start gap false table 0 = 0 := rfl

theorem start_add_depth_le (gap : Measure) (reversed : Bool) (bound : l < table.length) :
    start gap reversed table l + table[l].depth ≤ reach gap table := by
  have sum := start_add_start gap bound
  cases reversed <;> omega

/-- The layer that is placed last ends where all layers do. -/
theorem start_add_depth_eq (gap : Measure) (reversed : Bool) (bound : l < table.length)
    (last : if reversed then l = 0 else table.length ≤ l + 1) :
    start gap reversed table l + table[l].depth = reach gap table := by
  have sum := start_add_start gap bound
  cases reversed with
  | false =>
    have none : start gap true table l = 0 := start_eq_zero gap (by simpa using last)
    omega
  | true =>
    obtain rfl : l = 0 := by simpa using last
    rw [start_zero] at sum
    omega

theorem breadth_le_broadest (bound : l < table.length) : table[l].breadth ≤ broadest table :=
  List.le_max?_getD_of_mem (List.mem_map_of_mem (List.getElem_mem bound))

theorem exists_breadth_eq (nonempty : table ≠ []) :
    ∃ l, ∃ bound : l < table.length, table[l].breadth = broadest table := by
  have breadths : table.map Band.breadth ≠ [] := by simpa using nonempty
  obtain ⟨b, member, same⟩ := List.mem_map.mp (max?_getD_mem breadths)
  obtain ⟨l, bound, rfl⟩ := List.mem_iff_getElem.mp member
  exact ⟨l, bound, same⟩

theorem margin_eq (bound : l < table.length) :
    margin table l = (broadest table - table[l].breadth) / 2 := by
  simp [margin, bound]

end Placement

theorem Direction.position_add_extent (d : Direction) (a : Box) :
    (d.position a).along + (d.extent a).along = (if d.isHorizontal then a.right else a.bottom) ∧
      (d.position a).across + (d.extent a).across =
        (if d.isHorizontal then a.bottom else a.right) := by
  cases d <;> exact ⟨rfl, rfl⟩

namespace Chart

variable {c : Chart} {i l : Nat} {a : Box}

/-- The last layer. -/
def top (c : Chart) : Nat := (c.items.map Item.layer).max?.getD 0

/-- The bands of all layers up to the last one. -/
def bands (c : Chart) : List Band := Placement.bands c.direction.gap c.items

theorem length_bands (c : Chart) : c.bands.length = c.top + 1 := Placement.length_bands ..

theorem bands_ne_nil (c : Chart) : c.bands ≠ [] := by
  simp [← List.length_pos_iff, length_bands]

/-- The nodes of a layer stand across the direction from one place on up to another. -/
structure Block (c : Chart) (layer start finish : Nat) : Prop where
  first : IsLeast {p | ∃ i a, c.Stands i layer a ∧ (c.direction.position a).across = p} start
  last : IsGreatest {p | ∃ i a, c.Stands i layer a ∧
    (c.direction.position a).across + (c.direction.extent a).across = p} finish

theorem Block.unique {start finish start' finish' : Nat} (block : c.Block l start finish)
    (other : c.Block l start' finish') : start = start' ∧ finish = finish' :=
  ⟨block.first.unique other.first, block.last.unique other.last⟩

/-- What a node is placed as, and where. -/
theorem Stands.item (stands : c.Stands i l a) :
    c.items[i]? = some ⟨l, c.direction.extent a⟩ := by
  obtain ⟨_, _, _, item, rfl⟩ := stands.exists_place
  rw [item, Direction.extent_box]

theorem Stands.position (stands : c.Stands i l a) : c.direction.position a =
    ⟨Placement.start c.direction.gap c.direction.isReversed c.bands l,
      Placement.margin c.bands l + Placement.advance c.direction.gap (c.items.take i) l⟩ := by
  obtain ⟨place, _, placed, item, rfl⟩ := stands.exists_place
  rw [Placement.getElem?_places _ _ item, Option.some.injEq] at placed
  rw [Direction.position_box, ← placed]
  rfl

theorem Stands.inhabited (stands : c.Stands i l a) : ∃ item ∈ c.items, item.layer = l :=
  ⟨_, List.mem_of_getElem? stands.item, rfl⟩

theorem Stands.layer_lt (stands : c.Stands i l a) : l < c.bands.length :=
  Placement.layer_lt_length_bands c.direction.gap (List.mem_of_getElem? stands.item)

theorem depth_bands (bound : l < c.bands.length) : c.bands[l].depth = c.depth l :=
  congrArg Band.depth (Placement.getElem_bands bound)

/-- How broad a layer is. -/
def breadth (c : Chart) (layer : Nat) : Nat :=
  (Placement.band c.direction.gap (Placement.members c.items layer)).breadth

theorem breadth_bands (bound : l < c.bands.length) : c.bands[l].breadth = c.breadth l :=
  congrArg Band.breadth (Placement.getElem_bands bound)

theorem Stands.breadth_le (stands : c.Stands i l a) :
    c.breadth l ≤ Placement.broadest c.bands :=
  breadth_bands stands.layer_lt ▸ Placement.breadth_le_broadest stands.layer_lt

theorem Stands.margin_eq (stands : c.Stands i l a) : Placement.margin c.bands l =
    (Placement.broadest c.bands - c.breadth l) / 2 :=
  breadth_bands stands.layer_lt ▸ Placement.margin_eq stands.layer_lt

/-- Every layer up to the last one is the layer of a node. -/
theorem layer_le_top_iff (nonempty : c.nodes ≠ []) :
    (∃ id, c.ranks.layer? id = some l) ↔ l ≤ c.top := by
  constructor
  · rintro ⟨id, layer⟩
    obtain ⟨i, m, a, stands, own, _⟩ := exists_stands_of_mem_ids (mem_ids_of_layer? layer)
    obtain rfl := Option.some.inj (own.symm.trans layer)
    have bound := stands.layer_lt
    rw [length_bands] at bound
    omega
  · intro low
    have layers : c.items.map Item.layer ≠ [] := by
      rw [Ne, List.map_eq_nil_iff, ← List.length_eq_zero_iff, length_items, List.length_eq_zero_iff]
      exact nonempty
    obtain ⟨item, member, highest⟩ := List.mem_map.mp (max?_getD_mem layers)
    obtain ⟨i, at_i⟩ := List.mem_iff_getElem?.mp member
    obtain ⟨_, n, _, layer, _⟩ := exists_stands at_i
    have known := mem_ids_of_layer? layer
    rw [layer?_eq_layerOf known, Option.some.injEq, highest] at layer
    obtain ⟨id, known', same⟩ := exists_layerOf_eq known (low.trans layer.ge)
    exact ⟨id, by rw [layer?_eq_layerOf known', same]⟩

theorem exists_stands_of_le (nonempty : c.nodes ≠ []) (low : l ≤ c.top) :
    ∃ i a, c.Stands i l a := by
  obtain ⟨id, layer⟩ := (layer_le_top_iff nonempty).mpr low
  obtain ⟨i, m, a, stands, own, _⟩ := exists_stands_of_mem_ids (mem_ids_of_layer? layer)
  obtain rfl := Option.some.inj (own.symm.trans layer)
  exact ⟨i, a, stands⟩

/-! The places of a layer along the direction. -/

/-- A layer is as deep as its deepest box. -/
theorem Stands.depth_isGreatest (stands : c.Stands i l a) :
    IsGreatest {e | ∃ j b, c.Stands j l b ∧ (c.direction.extent b).along = e} (c.depth l) := by
  constructor
  · obtain ⟨item, member, own⟩ := stands.inhabited
    have inside : item ∈ Placement.members c.items l :=
      List.mem_filter.mpr ⟨member, by simpa using own⟩
    have sizes : (Placement.members c.items l).map (·.size.along) ≠ [] := by
      simpa using List.ne_nil_of_mem inside
    obtain ⟨deepest, within, size⟩ := List.mem_map.mp (max?_getD_mem sizes)
    obtain ⟨member, own⟩ := List.mem_filter.mp within
    have own : deepest.layer = l := by simpa using own
    obtain ⟨j, at_j⟩ := List.mem_iff_getElem?.mp member
    obtain ⟨b, other⟩ := exists_stands at_j
    rw [own] at other
    obtain rfl := Option.some.inj (at_j.symm.trans other.item)
    exact ⟨j, b, other, size⟩
  · rintro _ ⟨j, b, other, rfl⟩
    have bound := other.layer_lt
    have deep : (c.direction.extent b).along ≤ c.bands[l].depth :=
      Placement.along_le_depth (List.mem_of_getElem? other.item) bound
    rwa [depth_bands] at deep

/-- The layers reach as far along the direction as the box that ends last. -/
theorem reach_isGreatest (nonempty : c.nodes ≠ []) :
    IsGreatest {e | ∃ a ∈ c.arrange.placed,
      (c.direction.position a).along + (c.direction.extent a).along = e} c.reach := by
  constructor
  · have final : ∃ l ≤ c.top, if c.direction.isReversed then l = 0 else c.bands.length ≤ l + 1 := by
      cases c.direction.isReversed with
      | false => exact ⟨c.top, Nat.le_refl _, c.length_bands.le⟩
      | true => exact ⟨0, Nat.zero_le _, rfl⟩
    obtain ⟨l, low, last⟩ := final
    obtain ⟨_, _, stands⟩ := exists_stands_of_le nonempty low
    obtain ⟨j, b, deepest, size⟩ := stands.depth_isGreatest.1
    refine ⟨b, deepest.mem_placed, ?_⟩
    rw [deepest.position, size, ← depth_bands deepest.layer_lt]
    exact Placement.start_add_depth_eq _ _ deepest.layer_lt last
  · rintro _ ⟨a, placed, rfl⟩
    obtain ⟨i, l, stands⟩ := exists_stands_of_mem_placed placed
    have size := stands.depth_isGreatest.2 ⟨i, a, stands, rfl⟩
    have sum := Placement.start_add_depth_le c.direction.gap c.direction.isReversed stands.layer_lt
    rw [depth_bands] at sum
    rw [stands.position]
    exact (Nat.add_le_add_left size _).trans sum

theorem reach_eq (c : Chart) : c.reach =
    ∑ l ∈ Finset.range (c.top + 1), c.depth l + c.top * c.direction.gap.along := by
  have depths : c.bands.map Band.depth = (List.range (c.top + 1)).map c.depth := by
    simp [bands, Placement.bands, top, depth, Function.comp_def]
  have sum := Placement.reach_eq c.direction.gap c.bands_ne_nil
  rwa [depths, length_bands, Nat.add_sub_cancel] at sum

/-! The places of a layer across the direction. -/

theorem Stands.across_end (stands : c.Stands i l a) :
    (c.direction.position a).across + (c.direction.extent a).across + c.direction.gap.across =
      Placement.margin c.bands l +
        Placement.advance c.direction.gap (c.items.take (i + 1)) l := by
  obtain ⟨bound, own⟩ := List.getElem?_eq_some_iff.mp stands.item
  have further := Placement.advance_take_succ c.direction.gap bound
  simp only [own] at further
  simp only [stands.position, further]
  omega

/-- The nodes of a layer stand between the margins. -/
theorem Stands.block (stands : c.Stands i l a) : c.Block l (Placement.margin c.bands l)
    (Placement.margin c.bands l + c.breadth l) := by
  have whole : Placement.advance c.direction.gap c.items l =
      c.breadth l + c.direction.gap.across :=
    Placement.advance_eq c.direction.gap stands.inhabited
  constructor
  · constructor
    · obtain ⟨j, item, at_j, rfl, none⟩ :=
        Placement.exists_advance_eq_zero c.direction.gap stands.inhabited
      obtain ⟨b, first⟩ := exists_stands at_j
      exact ⟨j, b, first, by rw [first.position, none, Nat.add_zero]⟩
    · rintro _ ⟨j, b, other, rfl⟩
      rw [other.position]
      exact Nat.le_add_right _ _
  · constructor
    · obtain ⟨j, item, at_j, rfl, all⟩ :=
        Placement.exists_advance_eq c.direction.gap stands.inhabited
      obtain ⟨b, last⟩ := exists_stands at_j
      have far := last.across_end
      exact ⟨j, b, last, by omega⟩
    · rintro _ ⟨j, b, other, rfl⟩
      have far := other.across_end
      have part := Placement.advance_take_le c.direction.gap c.items (j + 1) l
      omega

theorem exists_stands_broadest (nonempty : c.nodes ≠ []) :
    ∃ i l a, c.Stands i l a ∧ c.breadth l = Placement.broadest c.bands := by
  obtain ⟨l, bound, same⟩ := Placement.exists_breadth_eq c.bands_ne_nil
  have low : l ≤ c.top := by
    have size := c.length_bands
    omega
  obtain ⟨i, a, stands⟩ := exists_stands_of_le nonempty low
  exact ⟨i, l, a, stands, breadth_bands bound ▸ same⟩

theorem broadest_isGreatest (nonempty : c.nodes ≠ []) :
    IsGreatest {b | ∃ l start, c.Block l start (start + b)} (Placement.broadest c.bands) := by
  constructor
  · obtain ⟨i, l, a, stands, same⟩ := exists_stands_broadest nonempty
    exact ⟨l, _, same ▸ stands.block⟩
  · rintro b ⟨l, start, block⟩
    obtain ⟨i, a, stands, _⟩ := block.first.1
    obtain ⟨rfl, far⟩ := block.unique stands.block
    rw [Nat.add_left_cancel far]
    exact stands.breadth_le

/-- The boxes reach as far across the direction as the broadest layer. -/
theorem across_isGreatest (nonempty : c.nodes ≠ []) :
    IsGreatest {e | ∃ a ∈ c.arrange.placed,
      (c.direction.position a).across + (c.direction.extent a).across = e}
      (Placement.broadest c.bands) := by
  constructor
  · obtain ⟨i, l, a, stands, same⟩ := exists_stands_broadest nonempty
    obtain ⟨j, b, last, far⟩ := stands.block.last.1
    rw [stands.margin_eq, same, Nat.sub_self, Nat.zero_div, Nat.zero_add] at far
    exact ⟨b, last.mem_placed, far⟩
  · rintro _ ⟨a, placed, rfl⟩
    obtain ⟨i, l, stands⟩ := exists_stands_of_mem_placed placed
    have far := stands.block.last.2 ⟨i, a, stands, rfl⟩
    have narrow := stands.breadth_le
    rw [stands.margin_eq] at far
    omega

/-- The layers up to the last one, `top`, fill a drawing: along the direction they reach as far as
`reach`, and across it the broadest of them takes up `broad` cells. -/
structure Filled (c : Chart) (top reach broad : Nat) (depth : Nat → Nat) : Prop where
  /-- No layer is empty. -/
  layers : ∀ l, (∃ id, c.ranks.layer? id = some l) ↔ l ≤ top
  /-- The layer that is placed first starts at zero. -/
  first : ∀ i a, c.Stands i (if c.direction.isReversed then top else 0) a →
    (c.direction.position a).along = 0
  /-- A layer stands in the middle of the broadest one, and if that cannot be, half a cell before
  it. -/
  centred : ∀ l ≤ top, ∃ start breadth, c.Block l start (start + breadth) ∧ breadth ≤ broad ∧
    start = (broad - breadth) / 2 ∧ broad - (start + breadth) = (broad - breadth + 1) / 2
  broadest : IsGreatest {breadth | ∃ l start, c.Block l start (start + breadth)} broad
  deepest : ∀ l ≤ top,
    IsGreatest {e | ∃ i a, c.Stands i l a ∧ (c.direction.extent a).along = e} (depth l)
  /-- Just a gap lies between one layer and the next. -/
  reach_eq : reach = ∑ l ∈ Finset.range (top + 1), depth l + top * c.direction.gap.along
  right : IsGreatest {e | ∃ a ∈ c.arrange.placed, a.right = e}
    (if c.direction.isHorizontal then reach else broad)
  bottom : IsGreatest {e | ∃ a ∈ c.arrange.placed, a.bottom = e}
    (if c.direction.isHorizontal then broad else reach)

/-- The layers of a chart that has nodes fill its drawing. -/
theorem area_filled (c : Chart) (nonempty : c.nodes ≠ []) :
    ∃ top reach broad depth, c.Filled top reach broad depth := by
  have along := reach_isGreatest nonempty
  have across := across_isGreatest nonempty
  simp only [Direction.position_add_extent] at along across
  refine ⟨c.top, c.reach, Placement.broadest c.bands, c.depth, ?_⟩
  constructor
  case layers => exact fun l => layer_le_top_iff nonempty
  case first =>
    intro i a stands
    rw [stands.position]
    cases order : c.direction.isReversed with
    | false => exact Placement.start_zero c.direction.gap c.bands
    | true => exact Placement.start_eq_zero _ c.length_bands.le
  case centred =>
    intro l low
    obtain ⟨i, a, stands⟩ := exists_stands_of_le nonempty low
    have narrow := stands.breadth_le
    have start := stands.margin_eq
    exact ⟨_, _, stands.block, narrow, start, by omega⟩
  case broadest => exact broadest_isGreatest nonempty
  case deepest =>
    intro l low
    obtain ⟨i, a, stands⟩ := exists_stands_of_le nonempty low
    exact stands.depth_isGreatest
  case reach_eq => exact c.reach_eq
  case right =>
    cases horizontal : c.direction.isHorizontal with
    | false => simpa [horizontal] using across
    | true => simpa [horizontal] using along
  case bottom =>
    cases horizontal : c.direction.isHorizontal with
    | false => simpa [horizontal] using along
    | true => simpa [horizontal] using across

/-- The first node of `fed` and the one behind its cycle share a layer of eight rows, so the other
layer has two blank rows above it and three below. -/
theorem area_filled_fed :
    fed.nodes ≠ [] ∧ fed.Stands 0 0 ⟨0, 0, 5, 3⟩ ∧ fed.Stands 1 1 ⟨9, 2, 5, 3⟩ ∧
      fed.Stands 2 0 ⟨0, 5, 5, 3⟩ ∧ fed.Block 1 2 (2 + 3) ∧
      IsGreatest {breadth | ∃ l start, fed.Block l start (start + breadth)} 8 ∧
      IsGreatest {e | ∃ a ∈ fed.arrange.placed, a.right = e} (5 + 4 + 5) := by
  have boxes : fed.arrange.placed = [⟨0, 0, 5, 3⟩, ⟨9, 2, 5, 3⟩, ⟨0, 5, 5, 3⟩] := by
    decide +kernel
  have standsX : fed.Stands 0 0 ⟨0, 0, 5, 3⟩ :=
    ⟨⟨"X", "X", some ⟨0, 0, 5, 3⟩⟩, by decide +kernel, by decide +kernel, rfl⟩
  have standsA : fed.Stands 1 1 ⟨9, 2, 5, 3⟩ :=
    ⟨⟨"A", "A", some ⟨9, 2, 5, 3⟩⟩, by decide +kernel, by decide +kernel, rfl⟩
  have standsB : fed.Stands 2 0 ⟨0, 5, 5, 3⟩ :=
    ⟨⟨"B", "B", some ⟨0, 5, 5, 3⟩⟩, by decide +kernel, by decide +kernel, rfl⟩
  have layers : fed.ranks.layers = [("X", 0), ("A", 1), ("B", 0)] := by decide +kernel
  have layerA : fed.ranks.layer? "A" = some 1 := by decide +kernel
  have nonempty : fed.nodes ≠ [] := by decide
  obtain ⟨top, reach, broad, depth, filled⟩ := area_filled fed nonempty
  obtain rfl : top = 1 := by
    obtain ⟨id, last⟩ := (filled.layers top).mpr (Nat.le_refl top)
    have entry := mem_layers_of_layer? last
    have low := (filled.layers 1).mp ⟨"A", layerA⟩
    simp only [layers, List.mem_cons, Prod.mk.injEq, List.not_mem_nil, or_false] at entry
    omega
  obtain rfl : broad = 8 := by
    refine filled.bottom.unique ⟨⟨_, standsB.mem_placed, rfl⟩, ?_⟩
    rintro _ ⟨a, member, rfl⟩
    rw [boxes] at member
    revert a
    decide
  have five (l : Nat) (low : l ≤ 1) : depth l = 5 := by
    obtain ⟨i, a, stands, size⟩ := (filled.deepest l low).1
    have member := stands.mem_placed
    simp only [boxes, List.mem_cons, List.not_mem_nil, or_false] at member
    rcases member with rfl | rfl | rfl <;> exact size.symm
  obtain rfl : reach = 5 + 4 + 5 := by
    rw [filled.reach_eq, Finset.sum_range_succ, Finset.sum_range_one, five 0 (by decide),
      five 1 (by decide)]
    rfl
  have alone (i : Nat) (a : Box) (stands : fed.Stands i 1 a) : a = ⟨9, 2, 5, 3⟩ := by
    have level := stands.along_eq_of_layer_eq standsA
    have member := stands.mem_placed
    simp only [boxes, List.mem_cons, List.not_mem_nil, or_false] at member
    rcases member with rfl | rfl | rfl
    · exact absurd level (by decide)
    · rfl
    · exact absurd level (by decide)
  obtain ⟨start, breadth, block, _⟩ := filled.centred 1 (Nat.le_refl 1)
  obtain ⟨i, a, first, rfl⟩ := block.first.1
  obtain ⟨j, b, last, far⟩ := block.last.1
  obtain rfl := alone i a first
  obtain rfl := alone j b last
  obtain rfl : breadth = 3 := (Nat.add_left_cancel far).symm
  exact ⟨nonempty, standsX, standsA, standsB, block, filled.broadest, filled.right⟩

end Chart

end Flowchart
