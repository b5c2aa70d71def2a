/-! The four directions a flowchart can run in. -/
namespace Flowchart

inductive Direction where
  | leftRight
  | rightLeft
  | topBottom
  | bottomTop
  deriving DecidableEq, Repr

namespace Direction

/-- Layers follow one another along the x axis. -/
def isHorizontal : Direction → Bool
  | leftRight | rightLeft => true
  | topBottom | bottomTop => false

/-- The first layer is placed furthest from the origin. -/
def isReversed : Direction → Bool
  | leftRight | topBottom => false
  | rightLeft | bottomTop => true

def keyword : Direction → String
  | leftRight => "LR"
  | rightLeft => "RL"
  | topBottom => "TB"
  | bottomTop => "BT"

/-- Reads a whole text as a keyword, without regard to the case of ASCII letters. -/
def ofKeyword? (cs : List Char) : Option Direction :=
  match cs.map Char.toUpper with
  | ['L', 'R'] => some leftRight
  | ['R', 'L'] => some rightLeft
  | ['T', 'B'] => some topBottom
  | ['B', 'T'] => some bottomTop
  | _ => none

end Direction

end Flowchart
