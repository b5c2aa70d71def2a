import Flowchart.Proofs.Routes

/-! The edges of an arranged chart with the layers and the boxes of their ends: which routes are
drawn, and which boxes an edge to the next layer can come near. Such an edge stays between its two
layers. A layer is as deep as its deepest box, so an edge comes near to a box only if that stands
beside one end of the edge and reaches further. -/
namespace Flowchart

theorem Direction.arrival_line (d : Direction) (a : Box) : (d.arrival a).2 = (d.departure a).2 := by
  cases d <;> rfl

namespace Chart

variable {c : Chart} {e : Edge} {i j h k l m n : Nat} {a b box : Box} {strokes : List Stroke}

/-- The route of an edge, if it joins two nodes with boxes. -/
def route? (c : Chart) (e : Edge) : Option (List Stroke) := do
  return c.direction.route (← c.box? e.source) (← c.box? e.target)

/-- An edge leads from a box in one layer to a box in another. -/
structure Spans (c : Chart) (e : Edge) (l m : Nat) (a b : Box) : Prop where
  layer : c.ranks.layer? e.source = some l
  layer' : c.ranks.layer? e.target = some m
  box : c.arrange.box? e.source = some a
  box' : c.arrange.box? e.target = some b

theorem exists_stands_of_layer? {id : String} (layer : c.ranks.layer? id = some l)
    (box : c.arrange.box? id = some a) : ∃ i, c.Stands i l a := by
  obtain ⟨i, l', a', stands, layer', box'⟩ := exists_stands_of_mem_ids (mem_ids_of_layer? layer)
  obtain rfl := Option.some.inj (layer.symm.trans layer')
  obtain rfl := Option.some.inj (box.symm.trans box')
  exact ⟨i, stands⟩

theorem mem_ids_of_box? {id : String} (box : c.arrange.box? id = some a) : id ∈ c.ids := by
  obtain ⟨n, node, _⟩ := Option.bind_eq_some_iff.mp box
  obtain ⟨i, found⟩ := List.mem_iff_getElem?.mp (List.mem_of_find?_eq_some node)
  obtain ⟨m, _, known, _, rfl⟩ := exists_of_getElem?_arrange found
  have same : m.id = id := by simpa using List.find?_some node
  exact List.mem_map.mpr ⟨m, List.mem_of_getElem? known, same⟩

theorem exists_spans (known : e.source ∈ c.ids) (known' : e.target ∈ c.ids) :
    ∃ l m a b, c.Spans e l m a b := by
  obtain ⟨_, l, a, _, layer, box⟩ := exists_stands_of_mem_ids known
  obtain ⟨_, m, b, _, layer', box'⟩ := exists_stands_of_mem_ids known'
  exact ⟨l, m, a, b, layer, layer', box, box'⟩

namespace Spans

theorem source (spans : c.Spans e l m a b) : ∃ i, c.Stands i l a :=
  exists_stands_of_layer? spans.layer spans.box

theorem target (spans : c.Spans e l m a b) : ∃ j, c.Stands j m b :=
  exists_stands_of_layer? spans.layer' spans.box'

theorem route (spans : c.Spans e l m a b) :
    c.arrange.route? e = some (c.direction.route a b) := by
  rw [route?, spans.box, spans.box']
  rfl

theorem route_mem (spans : c.Spans e l m a b) (member : e ∈ c.edges) :
    c.direction.route a b ∈ c.arrange.routes :=
  List.mem_filterMap.mpr ⟨e, member, spans.route⟩

end Spans

theorem exists_spans_of_route (found : c.arrange.route? e = some strokes) :
    ∃ l m a b, c.Spans e l m a b ∧ strokes = c.direction.route a b := by
  obtain ⟨a, box, found⟩ := Option.bind_eq_some_iff.mp found
  obtain ⟨b, box', same⟩ := Option.bind_eq_some_iff.mp found
  obtain ⟨l, m, a', b', spans⟩ := exists_spans (mem_ids_of_box? box) (mem_ids_of_box? box')
  obtain rfl := Option.some.inj (box.symm.trans spans.box)
  obtain rfl := Option.some.inj (box'.symm.trans spans.box')
  exact ⟨l, m, a, b, spans, (Option.some.inj same).symm⟩

theorem exists_spans_of_mem_routes (drawn : strokes ∈ c.arrange.routes) :
    ∃ e ∈ c.edges, ∃ l m a b, c.Spans e l m a b ∧ strokes = c.direction.route a b := by
  obtain ⟨e, member, found⟩ := List.mem_filterMap.mp drawn
  exact ⟨e, member, exists_spans_of_route found⟩

/-- If both ends of every edge are nodes, every edge is drawn, in order. -/
theorem forall₂_routes {R : Edge → List Stroke → Prop}
    (known : ∀ e ∈ c.edges, e.source ∈ c.ids ∧ e.target ∈ c.ids)
    (each : ∀ e ∈ c.edges, ∀ l m a b, c.Spans e l m a b → R e (c.direction.route a b)) :
    List.Forall₂ R c.edges c.arrange.routes := by
  refine forall₂_filterMap fun e member => ?_
  obtain ⟨l, m, a, b, spans⟩ := exists_spans (known e member).1 (known e member).2
  exact ⟨_, spans.route, each e member l m a b spans⟩

/-- Every edge leads from a node of some layer to one of the next layer. -/
def Stepwise (c : Chart) : Prop :=
  ∀ e ∈ c.edges, ∃ k ∈ c.ranks.layer? e.source, c.ranks.layer? e.target = some (k + 1)

instance (c : Chart) : Decidable c.Stepwise :=
  inferInstanceAs (Decidable (∀ e ∈ c.edges, _))

namespace Stepwise

theorem known (stepwise : c.Stepwise) :
    ∀ e ∈ c.edges, e.source ∈ c.ids ∧ e.target ∈ c.ids := by
  intro e member
  obtain ⟨k, layer, layer'⟩ := stepwise e member
  exact ⟨mem_ids_of_layer? layer, mem_ids_of_layer? layer'⟩

/-- Where the ends of an edge stand. -/
theorem stands (stepwise : c.Stepwise) (member : e ∈ c.edges) (spans : c.Spans e l m a b) :
    m = l + 1 ∧ ∃ i j, c.Stands i l a ∧ c.Stands j (l + 1) b := by
  obtain ⟨k, layer, layer'⟩ := stepwise e member
  obtain rfl := Option.some.inj (spans.layer.symm.trans layer)
  obtain rfl := Option.some.inj (spans.layer'.symm.trans layer')
  obtain ⟨i, first⟩ := spans.source
  obtain ⟨j, second⟩ := spans.target
  exact ⟨rfl, i, j, first, second⟩

end Stepwise

namespace Stands

theorem unique (first : c.Stands i l a) (second : c.Stands i m b) : l = m ∧ a = b := by
  obtain ⟨n, node, layer, boxA⟩ := first
  obtain ⟨n', node', layer', boxB⟩ := second
  obtain rfl := Option.some.inj (node.symm.trans node')
  exact ⟨Option.some.inj (layer.symm.trans layer'), Option.some.inj (boxA.symm.trans boxB)⟩

/-- The middle line of a box meets no other box of the layer. -/
theorem line_ne (first : c.Stands i l a) (other : c.Stands h l box) (distinct : i ≠ h)
    {across : Int} (low : (c.direction.position box).across ≤ across)
    (high : across < (c.direction.position box).across + (c.direction.extent box).across) :
    across ≠ (c.direction.departure a).2 := by
  have gap : 0 < c.direction.gap.across := by cases c.direction <;> decide
  rw [Direction.departure_across]
  rcases Nat.lt_or_gt_of_ne distinct with before | after
  · have apart := first.across_eq other before
    omega
  · have apart := other.across_eq first after
    omega

theorem middle_ne (first : c.Stands i l a) (other : c.Stands h l box) (distinct : i ≠ h) :
    (c.direction.departure box).2 ≠ (c.direction.departure a).2 := by
  have broad := other.three_le_breadth
  have middle := c.direction.departure_across box
  exact first.line_ne other distinct (by omega) (by omega)

/-- An edge to the next layer comes no nearer to a box than its ends, unless the box stands beside
the end at which the layer starts. -/
theorem beside (first : c.Stands i k a) (second : c.Stands j (k + 1) b) (other : c.Stands h m box)
    {along across : Int} (on : c.direction.OnRoute a b along across)
    (low : (c.direction.position box).along ≤ along)
    (high : along < (c.direction.position box).along + (c.direction.extent box).along) :
    if c.direction.isReversed then
      m = k + 1 ∧ (c.direction.extent b).along < (c.direction.extent box).along
    else m = k ∧ (c.direction.extent a).along < (c.direction.extent box).along := by
  have apart := first.lower_layer second (Nat.lt_succ_self k)
  have between := on.between
  rw [Direction.departure_along, Direction.arrival_along] at between
  rcases Nat.lt_trichotomy m k with lower | rfl | higher
  · have before := other.lower_layer first lower
    cases order : c.direction.isReversed <;>
      simp only [order, Bool.false_eq_true, if_true, if_false] at apart before between ⊢ <;> omega
  · have level := other.along_eq_of_layer_eq first
    cases order : c.direction.isReversed <;>
      simp only [order, Bool.false_eq_true, if_true, if_false, true_and] at apart between ⊢ <;>
      omega
  · rcases Nat.lt_or_eq_of_le higher with further | rfl
    · have after := second.lower_layer other further
      cases order : c.direction.isReversed <;>
        simp only [order, Bool.false_eq_true, if_true, if_false] at apart after between ⊢ <;> omega
    · have level := other.along_eq_of_layer_eq second
      cases order : c.direction.isReversed <;>
        simp only [order, Bool.false_eq_true, if_true, if_false, true_and] at apart between ⊢ <;>
        omega

end Stands

end Chart

end Flowchart
