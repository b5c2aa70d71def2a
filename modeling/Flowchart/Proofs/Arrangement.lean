import Flowchart.Drawing
import Flowchart.Proofs.Placement
import Flowchart.Proofs.Ranks

/-! The boxes of an arranged chart do not overlap: layers are kept apart along the direction of the
chart, and the nodes of a layer across it. -/
namespace Flowchart

/-- A cell lies in a box. -/
def Box.Covers (b : Box) (x y : Nat) : Prop := b.x ≤ x ∧ x < b.right ∧ b.y ≤ y ∧ y < b.bottom

namespace Direction

/-- Where a box starts, as seen in a direction. -/
def position (d : Direction) (b : Box) : Measure := d.measure b.x b.y

/-- How large a box is, as seen in a direction. -/
def extent (d : Direction) (b : Box) : Measure := d.measure b.width b.height

@[simp] theorem position_box (d : Direction) (place : Measure) (width height : Nat) :
    d.position (d.box place width height) = place := by
  cases d <;> rfl

@[simp] theorem extent_box (d : Direction) (place : Measure) (width height : Nat) :
    d.extent (d.box place width height) = d.measure width height := by
  cases d <;> rfl

@[simp] theorem width_box (d : Direction) (place : Measure) (width height : Nat) :
    (d.box place width height).width = width := by
  cases d <;> rfl

@[simp] theorem height_box (d : Direction) (place : Measure) (width height : Nat) :
    (d.box place width height).height = height := by
  cases d <;> rfl

/-- Boxes that are apart along a direction have no cell in common. -/
theorem not_covers_of_along (d : Direction) {a b : Box} {x y : Nat}
    (apart : (d.position a).along + (d.extent a).along ≤ (d.position b).along) :
    ¬(a.Covers x y ∧ b.Covers x y) := by
  rintro ⟨⟨_, inA, _, inA'⟩, ⟨inB, _, inB', _⟩⟩
  simp only [Box.right, Box.bottom] at inA inA'
  cases d <;> simp only [position, extent, measure, isHorizontal, Bool.false_eq_true, if_true,
    if_false] at apart <;> omega

/-- Boxes that are apart across a direction have no cell in common. -/
theorem not_covers_of_across (d : Direction) {a b : Box} {x y : Nat}
    (apart : (d.position a).across + (d.extent a).across ≤ (d.position b).across) :
    ¬(a.Covers x y ∧ b.Covers x y) := by
  rintro ⟨⟨_, inA, _, inA'⟩, ⟨inB, _, inB', _⟩⟩
  simp only [Box.right, Box.bottom] at inA inA'
  cases d <;> simp only [position, extent, measure, isHorizontal, Bool.false_eq_true, if_true,
    if_false] at apart <;> omega

end Direction

namespace Chart

variable {c : Chart}

/-- The node at a position is in a layer and has been given a box. -/
def Stands (c : Chart) (i layer : Nat) (box : Box) : Prop :=
  ∃ n, c.arrange.nodes[i]? = some n ∧ c.ranks.layer? n.id = some layer ∧ n.box = some box

@[simp] theorem length_items (c : Chart) : c.items.length = c.nodes.length := by simp [items]

@[simp] theorem length_boxes (c : Chart) : c.boxes.length = c.nodes.length := by simp [boxes]

@[simp] theorem length_arrange (c : Chart) : c.arrange.nodes.length = c.nodes.length := by
  simp [arrange]

theorem getElem?_items {i : Nat} {n : Node} (node : c.nodes[i]? = some n) :
    ∃ layer, c.ranks.layer? n.id = some layer ∧
      c.items[i]? = some ⟨layer, c.direction.measure n.width Node.height⟩ := by
  obtain ⟨bound, rfl⟩ := List.getElem?_eq_some_iff.mp node
  refine ⟨_, layer?_ranks ⟨i, bound⟩, ?_⟩
  change c.items[i]? = some ⟨c.layering.layer[i], c.direction.measure c.nodes[i].width Node.height⟩
  simp [items, bound]

/-- The box that a node gets. -/
theorem getElem?_arrange {i : Nat} {n : Node} (node : c.nodes[i]? = some n) :
    ∃ place, (Placement.places c.direction.gap c.direction.isReversed c.items)[i]? = some place ∧
      c.arrange.nodes[i]? =
        some { n with box := some (c.direction.box place n.width Node.height) } := by
  obtain ⟨bound, rfl⟩ := List.getElem?_eq_some_iff.mp node
  have inside : i < (Placement.places c.direction.gap c.direction.isReversed c.items).length := by
    simpa using bound
  exact ⟨_, List.getElem?_eq_getElem inside, by simp [arrange, boxes, bound]⟩

theorem exists_of_getElem?_arrange {i : Nat} {n : Node} (node : c.arrange.nodes[i]? = some n) :
    ∃ m place, c.nodes[i]? = some m ∧
      (Placement.places c.direction.gap c.direction.isReversed c.items)[i]? = some place ∧
      n = { m with box := some (c.direction.box place m.width Node.height) } := by
  have bound : i < c.nodes.length := by
    simpa using (List.getElem?_eq_some_iff.mp node).1
  have known := List.getElem?_eq_getElem bound
  obtain ⟨place, at_i, given⟩ := getElem?_arrange known
  exact ⟨_, place, known, at_i, Option.some.inj (node.symm.trans given)⟩

/-- What the layer and the box of a node are made of. -/
theorem Stands.exists_place {i layer : Nat} {box : Box} (stands : c.Stands i layer box) :
    ∃ place width,
      (Placement.places c.direction.gap c.direction.isReversed c.items)[i]? = some place ∧
      c.items[i]? = some ⟨layer, c.direction.measure width Node.height⟩ ∧
      box = c.direction.box place width Node.height := by
  obtain ⟨_, node, inLayer, inBox⟩ := stands
  obtain ⟨m, place, known, at_i, rfl⟩ := exists_of_getElem?_arrange node
  obtain ⟨l, own, item⟩ := getElem?_items known
  obtain rfl := Option.some.inj (own.symm.trans inLayer)
  exact ⟨place, _, at_i, item, (Option.some.inj inBox).symm⟩

theorem exists_stands {i : Nat} {item : Item} (at_i : c.items[i]? = some item) :
    ∃ box, c.Stands i item.layer box := by
  have bound : i < c.nodes.length := by
    simpa using (List.getElem?_eq_some_iff.mp at_i).1
  have known := List.getElem?_eq_getElem bound
  obtain ⟨layer, own, same⟩ := getElem?_items known
  obtain rfl := Option.some.inj (same.symm.trans at_i)
  obtain ⟨place, _, given⟩ := getElem?_arrange known
  exact ⟨_, _, given, own, rfl⟩

namespace Stands

variable {i j l m : Nat} {a b : Box}

theorem along_eq (first : c.Stands i l a) (second : c.Stands j l b) (order : i < j) :
    (c.direction.position a).along = (c.direction.position b).along := by
  obtain ⟨p, w, place_i, at_i, rfl⟩ := first.exists_place
  obtain ⟨q, w', place_j, at_j, rfl⟩ := second.exists_place
  simpa using (Placement.places_same_layer at_i at_j place_i place_j order rfl).1

/-- What pushes a node away from an earlier one of its layer is that node, the gap after it and
whatever nodes of the layer stand between them. -/
theorem across_eq (first : c.Stands i l a) (second : c.Stands j l b) (order : i < j) :
    (c.direction.position b).across =
      (c.direction.position a).across + (c.direction.extent a).across + c.direction.gap.across +
        Placement.advance c.direction.gap ((c.items.take j).drop (i + 1)) l := by
  obtain ⟨p, w, place_i, at_i, rfl⟩ := first.exists_place
  obtain ⟨q, w', place_j, at_j, rfl⟩ := second.exists_place
  simpa using (Placement.places_same_layer at_i at_j place_i place_j order rfl).2

theorem advance_eq_zero (neighbours : ∀ k box, i < k → k < j → ¬c.Stands k l box) :
    Placement.advance c.direction.gap ((c.items.take j).drop (i + 1)) l = 0 := by
  apply Placement.advance_eq_zero
  intro item member same
  obtain ⟨k, at_k⟩ := List.mem_iff_getElem?.mp member
  rw [List.getElem?_drop, List.getElem?_take] at at_k
  split at at_k
  · next before =>
    obtain ⟨box, stands⟩ := exists_stands at_k
    exact neighbours _ box (by omega) before (same ▸ stands)
  · cases at_k

theorem lower_layer (first : c.Stands i l a) (second : c.Stands j m b) (lower : l < m) :
    if c.direction.isReversed then
      (c.direction.position b).along + (c.direction.extent b).along + c.direction.gap.along ≤
        (c.direction.position a).along
    else
      (c.direction.position a).along + (c.direction.extent a).along + c.direction.gap.along ≤
        (c.direction.position b).along := by
  obtain ⟨p, w, place_i, at_i, rfl⟩ := first.exists_place
  obtain ⟨q, w', place_j, at_j, rfl⟩ := second.exists_place
  simpa using Placement.places_lower_layer at_i at_j place_i place_j lower

theorem next_layer (first : c.Stands i l a) (second : c.Stands j (l + 1) b) {depth : Nat}
    (shallow : ∀ item ∈ c.items, item.size.along ≤ depth) :
    if c.direction.isReversed then
      (c.direction.position a).along ≤
        (c.direction.position b).along + depth + c.direction.gap.along
    else
      (c.direction.position b).along ≤
        (c.direction.position a).along + depth + c.direction.gap.along := by
  obtain ⟨p, w, place_i, at_i, rfl⟩ := first.exists_place
  obtain ⟨q, w', place_j, at_j, rfl⟩ := second.exists_place
  simpa using Placement.places_next_layer at_i at_j place_i place_j rfl shallow

theorem disjoint_of_lower (first : c.Stands i l a) (second : c.Stands j m b) (lower : l < m)
    (x y : Nat) : ¬(a.Covers x y ∧ b.Covers x y) := by
  have apart := first.lower_layer second lower
  split at apart
  · exact fun both => c.direction.not_covers_of_along (by omega) both.symm
  · exact c.direction.not_covers_of_along (by omega)

theorem disjoint_of_before (first : c.Stands i l a) (second : c.Stands j l b) (order : i < j)
    (x y : Nat) : ¬(a.Covers x y ∧ b.Covers x y) := by
  have := first.across_eq second order
  exact c.direction.not_covers_of_across (by omega)

theorem disjoint (first : c.Stands i l a) (second : c.Stands j m b) (distinct : i ≠ j)
    (x y : Nat) : ¬(a.Covers x y ∧ b.Covers x y) := by
  rcases Nat.lt_trichotomy l m with lower | rfl | higher
  · exact first.disjoint_of_lower second lower x y
  · rcases Nat.lt_or_gt_of_ne distinct with before | after
    · exact first.disjoint_of_before second before x y
    · exact fun both => second.disjoint_of_before first after x y both.symm
  · exact fun both => second.disjoint_of_lower first higher x y both.symm

end Stands

/-- Every node gets a box, and no two boxes overlap. Nodes of one layer start together along the
direction and follow each other across it in order, neighbours with just the gap between them. Of
two layers the one that is placed first ends a gap before the other starts. -/
theorem boxes_apart (c : Chart) :
    c.direction.gap = (if c.direction.isHorizontal then ⟨4, 2⟩ else ⟨2, 4⟩) ∧
    (∀ i < c.nodes.length, ∃ layer box, c.Stands i layer box) ∧
    ∀ i j l m a b, c.Stands i l a → c.Stands j m b →
      (i ≠ j → ∀ x y, ¬(a.Covers x y ∧ b.Covers x y)) ∧
      (i < j → l = m →
        (c.direction.position a).along = (c.direction.position b).along ∧
        (c.direction.position a).across + (c.direction.extent a).across + c.direction.gap.across ≤
          (c.direction.position b).across ∧
        ((∀ k box, i < k → k < j → ¬c.Stands k l box) →
          (c.direction.position b).across = (c.direction.position a).across +
            (c.direction.extent a).across + c.direction.gap.across)) ∧
      (l < m →
        if c.direction.isReversed then
          (c.direction.position b).along + (c.direction.extent b).along + c.direction.gap.along ≤
            (c.direction.position a).along
        else
          (c.direction.position a).along + (c.direction.extent a).along + c.direction.gap.along ≤
            (c.direction.position b).along) := by
  refine ⟨rfl, ?_, ?_⟩
  · intro i bound
    obtain ⟨layer, _, item⟩ := getElem?_items (List.getElem?_eq_getElem bound)
    exact ⟨layer, exists_stands item⟩
  · intro i j l m a b first second
    refine ⟨first.disjoint second, ?_, first.lower_layer second⟩
    rintro order rfl
    have across := first.across_eq second order
    refine ⟨first.along_eq second order, by omega, fun neighbours => ?_⟩
    rw [across, Stands.advance_eq_zero neighbours, Nat.add_zero]

/-- Two nodes in one layer. -/
def fork : Chart where
  direction := .leftRight
  nodes := [⟨"A", "A", none⟩, ⟨"B", "B", none⟩, ⟨"C", "C", none⟩]
  edges := [⟨"A", "B"⟩, ⟨"A", "C"⟩]
  distinct := by decide

theorem boxes_apart_fork :
    fork.Stands 1 1 ⟨9, 0, 5, 3⟩ ∧ fork.Stands 2 1 ⟨9, 5, 5, 3⟩ ∧
      ∀ x y, ¬((⟨9, 0, 5, 3⟩ : Box).Covers x y ∧ (⟨9, 5, 5, 3⟩ : Box).Covers x y) := by
  have first : fork.Stands 1 1 ⟨9, 0, 5, 3⟩ :=
    ⟨⟨"B", "B", some ⟨9, 0, 5, 3⟩⟩, by decide +kernel, by decide +kernel, rfl⟩
  have second : fork.Stands 2 1 ⟨9, 5, 5, 3⟩ :=
    ⟨⟨"C", "C", some ⟨9, 5, 5, 3⟩⟩, by decide +kernel, by decide +kernel, rfl⟩
  exact ⟨first, second, ((boxes_apart fork).2.2 _ _ _ _ _ _ first second).1 (by decide)⟩

end Chart

end Flowchart
