/-! The rectangle of cells that a node takes up. Coordinates grow to the right and downwards. -/
namespace Flowchart

structure Box where
  x : Nat
  y : Nat
  width : Nat
  height : Nat
  deriving DecidableEq, Repr

namespace Box

/-- The first column to the right of a box. -/
def right (b : Box) : Nat := b.x + b.width

/-- The first row below a box. -/
def bottom (b : Box) : Nat := b.y + b.height

end Box

end Flowchart
