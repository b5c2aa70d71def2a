import Flowchart.Direction
import Flowchart.Stroke

/-! The route of an edge from one box to another. It leaves the middle of the side that the chart
runs towards and ends before the middle of the opposite side of its target, as a straight line or
with two bends half way. Both axes are handled alike: a place is known by where it lies along the
direction of the chart and across it. -/
namespace Flowchart

namespace Direction

/-- A mark at a place seen in a direction. -/
def stroke (d : Direction) (along across : Int) (mark : Mark) : Stroke :=
  if d.isHorizontal then ⟨along, across, mark⟩ else ⟨across, along, mark⟩

/-- The side that a step along the direction leads to. -/
def sideAlong (d : Direction) (step : Int) : Side :=
  if d.isHorizontal then if 0 < step then .right else .left
  else if 0 < step then .below else .above

/-- The side that a step across the direction leads to. -/
def sideAcross (d : Direction) (step : Int) : Side :=
  if d.isHorizontal then if 0 < step then .below else .above
  else if 0 < step then .right else .left

def lineAlong (d : Direction) : Mark := if d.isHorizontal then .horizontal else .vertical

def lineAcross (d : Direction) : Mark := if d.isHorizontal then .vertical else .horizontal

/-- Every edge of a chart has the same arrowhead, even one that runs backwards. -/
def arrow : Direction → Mark
  | leftRight => .arrow .right
  | rightLeft => .arrow .left
  | topBottom => .arrow .below
  | bottomTop => .arrow .above

/-- Where an edge leaves a box, just outside of it, along the direction and across it. -/
def departure (d : Direction) (b : Box) : Int × Int :=
  match d with
  | leftRight => (b.x + b.width, b.y + b.height / 2)
  | rightLeft => (b.x - 1, b.y + b.height / 2)
  | topBottom => (b.y + b.height, b.x + b.width / 2)
  | bottomTop => (b.y - 1, b.x + b.width / 2)

/-- Where an edge meets the border of a box, along the direction and across it. -/
def arrival (d : Direction) (b : Box) : Int × Int :=
  match d with
  | leftRight => (b.x, b.y + b.height / 2)
  | rightLeft => (b.x + b.width - 1, b.y + b.height / 2)
  | topBottom => (b.y, b.x + b.width / 2)
  | bottomTop => (b.y + b.height - 1, b.x + b.width / 2)

/-- A line along the direction, with the arrowhead in the last cell before its end. -/
def straight (d : Direction) (start finish across : Int) : List Stroke :=
  (run start finish).map (fun along => d.stroke along across d.lineAlong)
    ++ [d.stroke (finish - toward start finish) across d.arrow]

/-- Three lines that meet at bends half way between start and finish, and the arrowhead in the
last cell before the end. -/
def bent (d : Direction) (start finish across across' : Int) : List Stroke :=
  let step := toward start finish
  let turn := toward across across'
  let middle := start + (finish - start) / 2
  (run start middle).map (fun along => d.stroke along across d.lineAlong)
    ++ [d.stroke middle across (.joining (d.sideAlong (-step)) (d.sideAcross turn))]
    ++ (run (across + turn) across').map (fun across => d.stroke middle across d.lineAcross)
    ++ [d.stroke middle across' (.joining (d.sideAcross (-turn)) (d.sideAlong step))]
    ++ (run (middle + step) finish).map (fun along => d.stroke along across' d.lineAlong)
    ++ [d.stroke (finish - step) across' d.arrow]

/-- The strokes of an edge, in the order in which they are drawn. -/
def route (d : Direction) (source target : Box) : List Stroke :=
  let (start, across) := d.departure source
  let (finish, across') := d.arrival target
  if across = across' then d.straight start finish across else d.bent start finish across across'

end Direction

end Flowchart
