import Flowchart.Placement
import Flowchart.Ranks
import Flowchart.Text.Columns

/-! The arrangement of a chart: every node gets a box that fits its label, and the boxes are placed
layer by layer in the direction of the chart. -/
namespace Flowchart

namespace Node

/-- Room for the label between two borders, and at least five columns. -/
def width (n : Node) : Nat := max (Text.displayWidth n.label + 2) 5

/-- A line of text between two borders. -/
def height : Nat := 3

end Node

namespace Direction

/-- The blank cells between layers, and between the nodes of a layer. -/
def gap (d : Direction) : Measure := if d.isHorizontal then ⟨4, 2⟩ else ⟨2, 4⟩

/-- The size of a rectangle as seen in a direction. -/
def measure (d : Direction) (width height : Nat) : Measure :=
  if d.isHorizontal then ⟨width, height⟩ else ⟨height, width⟩

/-- The rectangle of a given size at a place seen in a direction. -/
def box (d : Direction) (place : Measure) (width height : Nat) : Box :=
  if d.isHorizontal then ⟨place.along, place.across, width, height⟩
  else ⟨place.across, place.along, width, height⟩

end Direction

namespace Chart

/-- The nodes as items to place, in order. -/
def items (c : Chart) : List Item :=
  List.zipWith (fun layer n => ⟨layer, c.direction.measure n.width Node.height⟩)
    c.layering.layer.toList c.nodes

/-- The box of each node, in order, whatever boxes the nodes have had. -/
def boxes (c : Chart) : List Box :=
  List.zipWith (fun n place => c.direction.box place n.width Node.height) c.nodes
    (Placement.places c.direction.gap c.direction.isReversed c.items)

/-- Gives every node its box. Labels, ids, edges and the direction stay. -/
def arrange (c : Chart) : Chart where
  direction := c.direction
  nodes := List.zipWith (fun n box => { n with box := some box }) c.nodes c.boxes
  edges := c.edges
  distinct := by
    have same : (List.zipWith (fun n box => { n with box := some box }) c.nodes c.boxes).map
        Node.id = c.nodes.map Node.id := by
      apply List.ext_getElem <;> simp [boxes, items]
    rw [same]
    exact c.distinct

end Chart

end Flowchart
