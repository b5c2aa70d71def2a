import Flowchart.Box
import Flowchart.Direction
import Flowchart.Statement

/-! A chart holds nodes in the order of their first declaration, no two with the same id, and edges
in the order in which they were drawn. An edge may name an id that no node has. -/
namespace Flowchart

structure Node where
  id : String
  label : String
  box : Option Box
  deriving DecidableEq, Repr

structure Edge where
  source : String
  target : String
  deriving DecidableEq, Repr

structure Chart where
  direction : Direction
  nodes : List Node
  edges : List Edge
  distinct : (nodes.map Node.id).Nodup
  deriving DecidableEq, Repr

namespace Chart

theorem ext {c c' : Chart} (direction : c.direction = c'.direction) (nodes : c.nodes = c'.nodes)
    (edges : c.edges = c'.edges) : c = c' := by
  cases c
  cases c'
  cases direction
  cases nodes
  cases edges
  rfl

def empty (direction : Direction) : Chart := ⟨direction, [], [], by simp⟩

def ids (c : Chart) : List String := c.nodes.map Node.id

def node? (c : Chart) (id : String) : Option Node := c.nodes.find? (·.id = id)

/-- Changes the nodes one by one; `keeps` says that their ids stay. -/
def mapNodes (c : Chart) (f : Node → Node) (keeps : ∀ n, (f n).id = n.id) : Chart where
  direction := c.direction
  nodes := c.nodes.map f
  edges := c.edges
  distinct := by
    have same : Node.id ∘ f = Node.id := funext keeps
    simpa [same] using c.distinct

/-- Changes the node of one id, if there is one. -/
def update (c : Chart) (id : String) (f : Node → Node) (keeps : ∀ n, (f n).id = n.id) : Chart :=
  c.mapNodes (fun n => if n.id = id then f n else n) (fun n => by split <;> simp [keeps])

/-- A new node is labelled with its id unless a label is given. The label of a node that exists
already is replaced by a given one only. -/
def declare (c : Chart) (id : String) (label : Option String) : Chart :=
  if known : id ∈ c.ids then
    match label with
    | none => c
    | some label => c.update id ({ · with label }) fun _ => rfl
  else
    { c with
      nodes := c.nodes ++ [⟨id, label.getD id, none⟩]
      distinct := by
        simp only [List.map_append, List.map_cons, List.map_nil]
        exact List.nodup_append.mpr ⟨c.distinct, by simp, by
          intro a member b same
          rw [List.mem_singleton.mp same]
          rintro rfl
          exact known member⟩ }

/-- Adds an edge, but no nodes. -/
def connect (c : Chart) (source target : String) : Chart :=
  { c with edges := c.edges ++ [⟨source, target⟩] }

/-- Declares the nodes of a statement, then connects each to the next. -/
def addStatement (c : Chart) (s : Statement) : Chart :=
  let declared := s.references.foldl (fun c r => c.declare r.id r.label) c
  s.links.foldl (fun c (source, target) => c.connect source.id target.id) declared

/-- Gives a node a box, or takes its box away. -/
def setBox (c : Chart) (id : String) (box : Option Box) : Chart :=
  c.update id ({ · with box }) fun _ => rfl

end Chart

end Flowchart
