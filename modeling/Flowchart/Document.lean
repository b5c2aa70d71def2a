import Flowchart.Chart
import Flowchart.Header

/-! A document is what a source says: a direction and a list of statements. Reading stops at the
first line that is at fault. -/
namespace Flowchart

structure Document where
  direction : Direction
  statements : List Statement
  deriving DecidableEq, Repr

namespace Document

def read (source : String) : Except ReadError Document :=
  match Text.contentLines source with
  | [] => .error .emptyInput
  | header :: body =>
    match Header.read? header.text with
    | none => .error (.unsupportedDiagram header.number (some Header.suggestion))
    | some direction => (body.mapM Statement.read).map (⟨direction, ·⟩)

def chart (d : Document) : Chart := d.statements.foldl Chart.addStatement (.empty d.direction)

end Document

/-- The chart that a source describes. -/
def Chart.read (source : String) : Except ReadError Chart :=
  (Document.read source).map Document.chart

end Flowchart
