import Flowchart.Document

/-! Documents as source text, and charts as documents: every node with its label, then every edge,
each on a line of its own. -/
namespace Flowchart

def Document.spelling (d : Document) : String :=
  String.ofList (List.intercalate ['\n']
    (Header.spelling d.direction :: d.statements.map Statement.spelling))

/-- A document that describes a chart. Boxes are not part of a description. -/
def Chart.document (c : Chart) : Document where
  direction := c.direction
  statements := c.nodes.map (fun n => ⟨⟨n.id, some n.label⟩, []⟩)
    ++ c.edges.map (fun e => ⟨⟨e.source, none⟩, [⟨e.target, none⟩]⟩)

end Flowchart
