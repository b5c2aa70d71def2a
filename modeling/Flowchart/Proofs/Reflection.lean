import Flowchart.Proofs.Extents

/-! The layers of an arrangement and of the one in the opposite direction. What is the same in both
are the ranks, the sizes of the boxes and their places across the direction. Along the direction
the two places of a node, and between them the depth of its layer, make up the reach of the layers:
a layer is reflected as a whole, and its boxes are aligned to the same side of it both times. All
boxes are equally deep in the vertical directions, so there every box is reflected. -/
namespace Flowchart

namespace Chart

variable {c : Chart} {i : Nat} {n : Node}

@[simp] theorem ranks_reversed (c : Chart) : c.reversed.ranks = c.ranks := rfl

theorem box?_of_getElem? (node : c.nodes[i]? = some n) : c.box? n.id = n.box := by
  rw [box?, node?_eq_some (List.mem_of_getElem? node)]
  rfl

/-- The boxes `a` and `a'` of a node, and the depth of its layer, in the arrangement of a chart and in
the one in the opposite direction, which both reach as far as `reach`. -/
structure Reflected (c : Chart) (reach : Nat) (id : String) (layer depth : Nat) (a a' : Box) :
    Prop where
  layer?_eq : c.ranks.layer? id = some layer
  box?_eq : c.arrange.box? id = some a
  box?_reversed : c.reversed.arrange.box? id = some a'
  width : a'.width = a.width
  height : a'.height = a.height
  across : (c.direction.position a').across = (c.direction.position a).across
  deepest : IsGreatest {e | ∃ i b, c.Stands i layer b ∧ (c.direction.extent b).along = e} depth
  furthest : IsGreatest {e | ∃ b ∈ c.arrange.placed,
    (c.direction.position b).along + (c.direction.extent b).along = e} reach
  /-- The distances of the node from the two ends leave just the depth of its layer. -/
  along : (c.direction.position a).along + (c.direction.position a').along + depth = reach
  /-- In the vertical directions they leave the three rows of its box. -/
  upright : c.direction.isHorizontal = false → a.y + a'.y + 3 = reach

/-- Two directions along the same axis give the same ranks, sizes and places across them, and along
them every layer is reflected. -/
theorem layers_reflected (c : Chart) :
    c.reversed.ranks = c.ranks ∧
      ∃ reach, ∀ id ∈ c.ids, ∃ layer depth a a', c.Reflected reach id layer depth a a' := by
  refine ⟨c.ranks_reversed, c.reach, fun id known => ?_⟩
  obtain ⟨i, rfl⟩ := exists_position known
  have node : c.nodes[i.val]? = some (c.nodes.get i) := List.getElem?_eq_getElem i.isLt
  have nonempty : c.nodes ≠ [] := List.ne_nil_of_mem (List.mem_of_getElem? node)
  obtain ⟨layer, p, q, item, given, given', across, along⟩ := exists_places_reversed node
  obtain ⟨_, own, item'⟩ := getElem?_items node
  obtain ⟨rfl, _⟩ := Item.mk.inj (Option.some.inj (item.symm.trans item'))
  have stands : c.Stands i layer (c.direction.box p (c.nodes.get i).width Node.height) :=
    ⟨_, given, own, rfl⟩
  have rows (vertical : c.direction.isHorizontal = false) (place : Measure) (width : Nat) :
      (c.direction.box place width Node.height).y = place.along := by
    rw [Direction.box, vertical]
    rfl
  refine ⟨layer, c.depth layer, c.direction.box p (c.nodes.get i).width Node.height,
    c.direction.box q (c.nodes.get i).width Node.height, ?_⟩
  constructor
  case layer?_eq => exact own
  case box?_eq => exact box?_of_getElem? given
  case box?_reversed => exact box?_of_getElem? given'
  case width => simp
  case height => simp
  case across => simpa using across
  case deepest => exact stands.depth_isGreatest
  case furthest => exact reach_isGreatest nonempty
  case along => simpa using along
  case upright =>
    intro vertical
    rw [depth_eq vertical (List.mem_of_getElem? item)] at along
    rw [rows vertical, rows vertical]
    exact along

/-- Layers of different depths. The first node is narrower than its layer. -/
def uneven : Chart where
  direction := .leftRight
  nodes := [⟨"A", "A", none⟩, ⟨"B", "Start", none⟩, ⟨"C", "C", none⟩]
  edges := [⟨"A", "C"⟩, ⟨"B", "C"⟩]
  distinct := by decide

/-- The same nodes from top to bottom. -/
def upright : Chart := { uneven with direction := .topBottom }

theorem layers_reflected_uneven :
    ("A" ∈ uneven.ids ∧ uneven.arrange.box? "A" = some ⟨0, 0, 5, 3⟩ ∧
      uneven.reversed.arrange.box? "A" = some ⟨9, 0, 5, 3⟩ ∧
      ∃ depth reach,
        IsGreatest {e | ∃ i b, uneven.Stands i 0 b ∧ (uneven.direction.extent b).along = e} depth ∧
        IsGreatest {e | ∃ b ∈ uneven.arrange.placed,
          (uneven.direction.position b).along + (uneven.direction.extent b).along = e} reach ∧
        0 + 9 + depth = reach) ∧
    "A" ∈ upright.ids ∧ upright.direction.isHorizontal = false ∧
      upright.arrange.box? "A" = some ⟨0, 0, 5, 3⟩ ∧
      upright.reversed.arrange.box? "A" = some ⟨0, 5, 5, 3⟩ ∧
      IsGreatest {e | ∃ b ∈ upright.arrange.placed,
        (upright.direction.position b).along + (upright.direction.extent b).along = e}
        (0 + 5 + 3) := by
  constructor
  · have known : "A" ∈ uneven.ids := by decide
    have box : uneven.arrange.box? "A" = some ⟨0, 0, 5, 3⟩ := by decide +kernel
    have box' : uneven.reversed.arrange.box? "A" = some ⟨9, 0, 5, 3⟩ := by decide +kernel
    have own : uneven.ranks.layer? "A" = some 0 := by decide +kernel
    obtain ⟨_, reach, reflected⟩ := layers_reflected uneven
    obtain ⟨layer, depth, a, a', own'⟩ := reflected "A" known
    obtain rfl := Option.some.inj (own.symm.trans own'.layer?_eq)
    obtain rfl := Option.some.inj (box.symm.trans own'.box?_eq)
    obtain rfl := Option.some.inj (box'.symm.trans own'.box?_reversed)
    exact ⟨known, box, box', depth, reach, own'.deepest, own'.furthest, own'.along⟩
  · have known : "A" ∈ upright.ids := by decide
    have box : upright.arrange.box? "A" = some ⟨0, 0, 5, 3⟩ := by decide +kernel
    have box' : upright.reversed.arrange.box? "A" = some ⟨0, 5, 5, 3⟩ := by decide +kernel
    obtain ⟨_, reach, reflected⟩ := layers_reflected upright
    obtain ⟨_, _, a, a', own⟩ := reflected "A" known
    obtain rfl := Option.some.inj (box.symm.trans own.box?_eq)
    obtain rfl := Option.some.inj (box'.symm.trans own.box?_reversed)
    exact ⟨known, rfl, box, box', own.upright rfl ▸ own.furthest⟩

end Chart

end Flowchart
