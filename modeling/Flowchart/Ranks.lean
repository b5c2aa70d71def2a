import Flowchart.Chart
import Flowchart.Layering

/-! The layer of every node of a chart, and which nodes a cycle keeps from a layer of their own. -/
namespace Flowchart

structure Ranks where
  /-- The layer of each node, in the order of the nodes. -/
  layers : List (String × Nat)
  /-- The nodes on a cycle or behind one, in the order of the nodes. -/
  unresolved : List String
  deriving DecidableEq, Repr

namespace Ranks

def empty : Ranks := ⟨[], []⟩

def layer? (r : Ranks) (id : String) : Option Nat := r.layers.lookup id

def hasCycle (r : Ranks) : Bool := !r.unresolved.isEmpty

end Ranks

namespace Chart

def position? (c : Chart) (id : String) : Option (Fin c.nodes.length) :=
  c.nodes.findFinIdx? (·.id = id)

/-- The edges between nodes of the chart, by the positions of the nodes. -/
def links (c : Chart) : List (Fin c.nodes.length × Fin c.nodes.length) :=
  c.edges.filterMap fun e => do return (← c.position? e.source, ← c.position? e.target)

/-- The layers of the nodes by their positions. Edges at ids that no node has do not count. -/
def layering (c : Chart) : Propagation c.nodes.length := .finish c.links

def ranks (c : Chart) : Ranks :=
  let s := c.layering
  { layers := c.ids.zip s.layer.toList
    unresolved := ((c.ids.zip s.released.toList).filter fun (_, released) => !released).map (·.1) }

end Chart

end Flowchart
