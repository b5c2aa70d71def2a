/-! Where items of given sizes stand when they are arranged in layers. The layers follow one another
along the primary axis, each as deep as its deepest item; within a layer the items stand across it
in order, and the whole row is centred on the broadest layer. -/
namespace Flowchart

/-- A size, a gap or a place, measured along the primary axis and across it. -/
structure Measure where
  along : Nat
  across : Nat
  deriving DecidableEq, Repr

structure Item where
  layer : Nat
  size : Measure
  deriving DecidableEq, Repr

/-- The cells that one layer takes up. -/
structure Band where
  depth : Nat
  breadth : Nat
  deriving DecidableEq, Repr, Inhabited

namespace Placement

/-- The items of one layer, in order. -/
def members (items : List Item) (layer : Nat) : List Item := items.filter (·.layer = layer)

def band (gap : Measure) (row : List Item) : Band where
  depth := (row.map (·.size.along)).max?.getD 0
  breadth := (row.map (·.size.across)).foldr (· + ·) 0 + (row.length - 1) * gap.across

/-- The bands of all layers, from layer zero to the last one that an item has. -/
def bands (gap : Measure) (items : List Item) : List Band :=
  (List.range ((items.map Item.layer).max?.getD 0 + 1)).map fun l => band gap (members items l)

/-- Where a layer starts: after the layers before it, or after the ones behind it if the order is
reversed, with a gap after each. -/
def start (gap : Measure) (reversed : Bool) (table : List Band) (layer : Nat) : Nat :=
  let passed := if reversed then table.drop (layer + 1) else table.take layer
  (passed.map (·.depth + gap.along)).foldr (· + ·) 0

/-- The breadth of the broadest band. -/
def broadest (table : List Band) : Nat := (table.map Band.breadth).max?.getD 0

/-- The blank cells before the first item of a layer, rounded down. -/
def margin (table : List Band) (layer : Nat) : Nat :=
  (broadest table - (table.getD layer default).breadth) / 2

/-- How far the items before it push an item of the same layer. -/
def advance (gap : Measure) (before : List Item) (layer : Nat) : Nat :=
  ((members before layer).map (·.size.across + gap.across)).foldr (· + ·) 0

/-- The place of every item, in the order of the items. -/
def places (gap : Measure) (reversed : Bool) (items : List Item) : List Measure :=
  let table := bands gap items
  items.mapIdx fun i item =>
    { along := start gap reversed table item.layer
      across := margin table item.layer + advance gap (items.take i) item.layer }

@[simp] theorem length_places (gap : Measure) (reversed : Bool) (items : List Item) :
    (places gap reversed items).length = items.length := by
  simp [places]

end Placement

end Flowchart
