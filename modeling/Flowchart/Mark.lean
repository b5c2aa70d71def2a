/-! What a drawing is made of: lines, corners and arrowheads. A mark is shown as one character, for
which there are two styles. -/
namespace Flowchart

/-- The sides of a cell. -/
inductive Side where
  | left
  | right
  | above
  | below
  deriving DecidableEq, Repr

inductive Mark where
  | topLeft
  | topRight
  | bottomLeft
  | bottomRight
  | horizontal
  | vertical
  | arrow (toward : Side)
  deriving DecidableEq, Repr

/-- The line or corner that joins two sides of a cell. -/
def Mark.joining : Side → Side → Mark
  | .right, .below | .below, .right => topLeft
  | .left, .below | .below, .left => topRight
  | .right, .above | .above, .right => bottomLeft
  | .left, .above | .above, .left => bottomRight
  | .above, .above | .above, .below | .below, .above | .below, .below => vertical
  | .left, .left | .left, .right | .right, .left | .right, .right => horizontal

inductive Style where
  | unicode
  | ascii
  deriving DecidableEq, Repr

namespace Style

def glyph : Style → Mark → Char
  | unicode, .topLeft => '┌'
  | unicode, .topRight => '┐'
  | unicode, .bottomLeft => '└'
  | unicode, .bottomRight => '┘'
  | unicode, .horizontal => '─'
  | unicode, .vertical => '│'
  | unicode, .arrow .right => '▶'
  | unicode, .arrow .left => '◀'
  | unicode, .arrow .below => '▼'
  | unicode, .arrow .above => '▲'
  | ascii, .topLeft | ascii, .topRight | ascii, .bottomLeft | ascii, .bottomRight => '+'
  | ascii, .horizontal => '-'
  | ascii, .vertical => '|'
  | ascii, .arrow .right => '>'
  | ascii, .arrow .left => '<'
  | ascii, .arrow .below => 'v'
  | ascii, .arrow .above => '^'

end Style

end Flowchart
