import Flowchart.Arrangement
import Flowchart.Grid
import Flowchart.Route

/-! The drawing of a chart as it stands. Nodes without a box are left out, and so are edges that do
not join two nodes with boxes. All boxes are drawn before the first edge. -/
namespace Flowchart

/-- Draws strokes one after another. -/
def Grid.trace (style : Style) (g : Grid width height) (strokes : List Stroke) :
    Grid width height :=
  strokes.foldl (fun g s => g.plot s.x s.y (style.glyph s.mark)) g

namespace Box

/-- The column in which a label starts that is centred in a box, rounded to the left. -/
def labelColumn (b : Box) (label : String) : Nat := b.x + (b.width - Text.displayWidth label) / 2

/-- Draws a box with a label in its second row. -/
def draw (style : Style) (g : Grid columns rows) (b : Box) (label : String) : Grid columns rows :=
  (g.trace style b.frame).write (b.y + 1) (b.labelColumn label) label

end Box

namespace Chart

/-- The box of a node, if there is such a node and it has one. -/
def box? (c : Chart) (id : String) : Option Box := (c.node? id).bind Node.box

def placed (c : Chart) : List Box := c.nodes.filterMap Node.box

/-- Two blank columns follow the rightmost box. -/
def columns (c : Chart) : Nat := (c.placed.map Box.right).max?.getD 0 + 2

/-- Two blank rows follow the lowest box. -/
def rows (c : Chart) : Nat := (c.placed.map Box.bottom).max?.getD 0 + 2

/-- The routes of all edges that are drawn. -/
def routes (c : Chart) : List (List Stroke) :=
  c.edges.filterMap fun e => do return c.direction.route (← c.box? e.source) (← c.box? e.target)

/-- The boxes with their labels. -/
def boxLayer (c : Chart) (style : Style) : Grid c.columns c.rows :=
  c.nodes.foldl (fun g n =>
    match n.box with
    | some box => box.draw style g n.label
    | none => g) (.blank c.columns c.rows)

/-- The boxes and, on top of them, the edges. -/
def grid (c : Chart) (style : Style) : Grid c.columns c.rows :=
  c.routes.foldl (Grid.trace style) (c.boxLayer style)

def draw (c : Chart) (style : Style) : String := (c.grid style).render

end Chart

end Flowchart
