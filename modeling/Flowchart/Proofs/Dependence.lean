import Flowchart.Proofs.Arrangement

/-! What an arrangement depends on: the direction, how wide the labels are, and between which nodes
there is an edge. Layers and released nodes follow from the three laws of a layering alone, so the
order in which a propagation comes to the nodes leaves no trace, and neither do the ids, the number
of edges between the same nodes, edges at undeclared ids or the boxes that nodes have had. -/
namespace Flowchart

namespace Settled

variable {α : Type*} {joined : α → α → Prop} {released released' : α → Prop} {layer layer' : α → Nat}

theorem released_unique [Finite α] (first : Settled joined released layer)
    (second : Settled joined released' layer') (v : α) : released v ↔ released' v := by
  have mine := first.released_iff_not_behindCycle (v := v)
  have other := second.released_iff_not_behindCycle (v := v)
  exact mine.trans other.symm

/-- Induction on the layer: a node above the first one stands right after a released node, and
after that node it stands in every layering. -/
theorem layer_le (first : Settled joined released layer) (second : Settled joined released layer')
    (v : α) : layer v ≤ layer' v := by
  induction size : layer v generalizing v with
  | zero => exact Nat.zero_le _
  | succ k ih =>
    rcases first.reached v with bottom | ⟨u, edge, free, next⟩
    · omega
    · have before := ih u (by omega)
      have after := second.above u v edge free
      omega

theorem layer_unique [Finite α] (first : Settled joined released layer)
    (second : Settled joined released' layer') : layer = layer' := by
  have same : released = released' := funext fun v => propext (first.released_unique second v)
  subst same
  exact funext fun v => Nat.le_antisymm (first.layer_le second v) (second.layer_le first v)

end Settled

/-- Two propagations along the same links, in whatever order and however often these are listed,
end alike. -/
theorem Propagation.finish_congr {m n : Nat} {links : List (Fin m × Fin m)}
    {links' : List (Fin n × Fin n)} (size : m = n)
    (same : ∀ i j, (i, j) ∈ links ↔ (i.cast size, j.cast size) ∈ links') :
    (finish links).layer.toList = (finish links').layer.toList ∧
      (finish links).released.toList = (finish links').released.toList := by
  subst size
  have joined : (fun i j => (i, j) ∈ links) = fun i j => (i, j) ∈ links' :=
    funext fun i => funext fun j => propext (same i j)
  have first := finish_settled links
  rw [joined] at first
  have second := finish_settled links'
  have layers (i : Fin m) : (finish links).layer[i] = (finish links').layer[i] :=
    congrFun (first.layer_unique second) i
  have states (i : Fin m) : (finish links).released[i] = (finish links').released[i] :=
    Bool.eq_iff_iff.mpr (first.released_unique second i)
  constructor
  · exact congrArg Vector.toList (Vector.ext fun i bound => layers ⟨i, bound⟩)
  · exact congrArg Vector.toList (Vector.ext fun i bound => states ⟨i, bound⟩)

namespace Chart

variable {c c' : Chart}

/-- Some edge leads from the node at one position to the node at another. -/
def Linked (c : Chart) (i j : Nat) : Prop :=
  ∃ m n, c.nodes[i]? = some m ∧ c.nodes[j]? = some n ∧ ⟨m.id, n.id⟩ ∈ c.edges

/-- What is the same in both charts is all that an arrangement looks at. -/
structure Alike (c c' : Chart) : Prop where
  direction : c.direction = c'.direction
  widths : c.nodes.map (fun n => Text.displayWidth n.label) =
    c'.nodes.map (fun n => Text.displayWidth n.label)
  linked : ∀ i j, c.Linked i j ↔ c'.Linked i j

theorem linked_iff (i j : Fin c.nodes.length) : c.Linked i j ↔ (i, j) ∈ c.links := by
  have known (k : Fin c.nodes.length) : c.nodes[k.val]? = some (c.nodes.get k) := by simp
  simp only [mem_links, Joined, id_mem_ids, true_and, Linked, known, Option.some.injEq]
  constructor
  · rintro ⟨m, n, rfl, rfl, edge⟩
    exact edge
  · exact fun edge => ⟨_, _, rfl, rfl, edge⟩

theorem unresolved_at_iff (i : Nat) :
    (∃ n, c.nodes[i]? = some n ∧ n.id ∈ c.ranks.unresolved) ↔
      c.layering.released.toList[i]? = some false := by
  constructor
  · rintro ⟨n, known, held⟩
    obtain ⟨bound, rfl⟩ := List.getElem?_eq_some_iff.mp known
    obtain ⟨j, same, state⟩ := mem_unresolved.mp held
    obtain rfl := id_injective (j := ⟨i, bound⟩) same
    change c.layering.released[i] = false at state
    simp [bound, state]
  · intro held
    obtain ⟨bound, state⟩ := List.getElem?_eq_some_iff.mp held
    rw [Vector.length_toList] at bound
    rw [Vector.getElem_toList] at state
    exact ⟨c.nodes[i], List.getElem?_eq_getElem bound, mem_unresolved.mpr ⟨⟨i, bound⟩, rfl, state⟩⟩

namespace Alike

theorem length_eq (alike : c.Alike c') : c.nodes.length = c'.nodes.length := by
  simpa using congrArg List.length alike.widths

theorem layering (alike : c.Alike c') :
    c.layering.layer.toList = c'.layering.layer.toList ∧
      c.layering.released.toList = c'.layering.released.toList := by
  refine Propagation.finish_congr alike.length_eq fun i j => ?_
  have linked := alike.linked i j
  rw [linked_iff] at linked
  exact linked.trans (linked_iff (c := c') (i.cast alike.length_eq) (j.cast alike.length_eq))

theorem map_width (alike : c.Alike c') : c.nodes.map Node.width = c'.nodes.map Node.width := by
  have size (c : Chart) : c.nodes.map Node.width =
      (c.nodes.map fun n => Text.displayWidth n.label).map fun w => max (w + 2) 5 := by
    rw [List.map_map]
    rfl
  rw [size, size, alike.widths]

theorem boxes (alike : c.Alike c') : c.boxes = c'.boxes := by
  have items (c : Chart) : c.items = List.zipWith
      (fun layer width => ⟨layer, c.direction.measure width Node.height⟩)
      c.layering.layer.toList (c.nodes.map Node.width) := by
    rw [Chart.items, List.zipWith_map_right]
  have boxes (c : Chart) : c.boxes = List.zipWith
      (fun width place => c.direction.box place width Node.height) (c.nodes.map Node.width)
      (Placement.places c.direction.gap c.direction.isReversed c.items) := by
    rw [Chart.boxes, List.zipWith_map_left]
  rw [boxes, boxes, items, items, alike.layering.1, alike.map_width, alike.direction]

theorem layers (alike : c.Alike c') :
    c.ranks.layers.map Prod.snd = c'.ranks.layers.map Prod.snd := by
  have own (c : Chart) : c.ranks.layers.map Prod.snd = c.layering.layer.toList :=
    List.map_snd_zip (by simp)
  rw [own, own, alike.layering.1]

theorem unresolved (alike : c.Alike c') (i : Nat) :
    (∃ n, c.nodes[i]? = some n ∧ n.id ∈ c.ranks.unresolved) ↔
      ∃ n, c'.nodes[i]? = some n ∧ n.id ∈ c'.ranks.unresolved := by
  rw [unresolved_at_iff, unresolved_at_iff, alike.layering.2]

end Alike

theorem boxes_arrange (c : Chart) : c.arrange.nodes.map Node.box = c.boxes.map some := by
  apply List.ext_getElem <;> simp [arrange]

theorem described_arrange (c : Chart) :
    c.arrange.nodes.map (fun n => (n.id, n.label)) = c.nodes.map fun n => (n.id, n.label) := by
  apply List.ext_getElem <;> simp [arrange]

theorem linked_arrange (c : Chart) (i j : Nat) : c.Linked i j ↔ c.arrange.Linked i j := by
  constructor
  · rintro ⟨m, n, at_i, at_j, edge⟩
    obtain ⟨_, _, at_i⟩ := getElem?_arrange at_i
    obtain ⟨_, _, at_j⟩ := getElem?_arrange at_j
    exact ⟨_, _, at_i, at_j, edge⟩
  · rintro ⟨m, n, at_i, at_j, edge⟩
    obtain ⟨_, _, known_i, _, rfl⟩ := exists_of_getElem?_arrange at_i
    obtain ⟨_, _, known_j, _, rfl⟩ := exists_of_getElem?_arrange at_j
    exact ⟨_, _, known_i, known_j, edge⟩

/-- A chart and its arrangement differ in nothing that an arrangement looks at. -/
theorem alike_arrange (c : Chart) : c.Alike c.arrange where
  direction := rfl
  widths := by
    have labels := congrArg (List.map fun entry => Text.displayWidth entry.2) (described_arrange c)
    simpa [Function.comp_def] using labels.symm
  linked := c.linked_arrange

theorem ids_arrange (c : Chart) : c.arrange.ids = c.ids := by
  simpa [ids, Function.comp_def] using congrArg (List.map Prod.fst) c.described_arrange

theorem ranks_arrange (c : Chart) : c.arrange.ranks = c.ranks := by
  have same := c.alike_arrange.layering
  simp only [ranks, ids_arrange, same]

/-- The boxes that an arrangement finds are replaced by the ones that it has given before. -/
theorem nodes_arrange_arrange (c : Chart) : c.arrange.arrange.nodes = c.arrange.nodes := by
  change List.zipWith (fun n box => { n with box := some box }) c.arrange.nodes c.arrange.boxes = _
  rw [← c.alike_arrange.boxes]
  apply List.ext_getElem <;> simp [arrange]

theorem arrange_arrange (c : Chart) : c.arrange.arrange = c.arrange :=
  Chart.ext rfl c.nodes_arrange_arrange rfl

/-- Charts with the same direction, labels of the same widths and edges between the same positions
get the same layers, hold back the same nodes and get the same boxes, position by position. An
arrangement changes nothing but boxes, and a second one changes nothing at all. -/
theorem arrange_determined (c : Chart) :
    (∀ c' : Chart, c.Alike c' →
      c.ranks.layers.map Prod.snd = c'.ranks.layers.map Prod.snd ∧
      (∀ i : Nat, (∃ n, c.nodes[i]? = some n ∧ n.id ∈ c.ranks.unresolved) ↔
        ∃ n, c'.nodes[i]? = some n ∧ n.id ∈ c'.ranks.unresolved) ∧
      c.arrange.nodes.map Node.box = c'.arrange.nodes.map Node.box) ∧
    c.arrange.nodes.map (fun n => (n.id, n.label)) = c.nodes.map (fun n => (n.id, n.label)) ∧
    c.arrange.edges = c.edges ∧ c.arrange.direction = c.direction ∧
    c.arrange.arrange = c.arrange ∧ c.arrange.ranks = c.ranks := by
  refine ⟨fun c' alike => ⟨alike.layers, alike.unresolved, ?_⟩, c.described_arrange, rfl, rfl,
    c.arrange_arrange, c.ranks_arrange⟩
  rw [boxes_arrange, boxes_arrange, alike.boxes]

/-- The cycle behind a node once more: with other ids and other labels of one column, the edges in
another order, one of them twice and one at an id that no node has. -/
def refed : Chart where
  direction := .leftRight
  nodes := [⟨"p", "1", none⟩, ⟨"q", "2", some ⟨7, 0, 9, 1⟩⟩, ⟨"X", "3", none⟩]
  edges := [⟨"X", "q"⟩, ⟨"p", "q"⟩, ⟨"q", "X"⟩, ⟨"q", "B"⟩, ⟨"p", "q"⟩]
  distinct := by decide

theorem arrange_determined_refed :
    fed.Alike refed ∧ fed.ranks.layers.map Prod.snd = refed.ranks.layers.map Prod.snd ∧
      fed.arrange.nodes.map Node.box = refed.arrange.nodes.map Node.box := by
  have linked (i j : Nat) : fed.Linked i j ↔ refed.Linked i j := by
    rcases i with _ | _ | _ | i <;> rcases j with _ | _ | _ | j <;> simp [Linked, fed, refed]
  have alike : fed.Alike refed := ⟨rfl, by decide +kernel, linked⟩
  obtain ⟨layers, _, boxes⟩ := (arrange_determined fed).1 refed alike
  exact ⟨alike, layers, boxes⟩

end Chart

end Flowchart
