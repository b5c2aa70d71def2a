import Flowchart.Text.Blank

/-! The lines of a source text. Every line has its number, counted from one; those that are
neither blank nor a comment are the content that gets read. -/
namespace Flowchart.Text

/-- A line of a source, without the blank characters at its ends. -/
structure Line where
  number : Nat
  text : List Char
  deriving DecidableEq, Repr

/-- A comment starts with two percent signs. -/
def Line.isContent (line : Line) : Bool :=
  match line.text with
  | [] => false
  | '%' :: '%' :: _ => false
  | _ => true

/-- A carriage return before the line feed is blank, so trimming removes it. -/
def lines (source : String) : List Line :=
  ((source.toList.splitOn '\n').zipIdx 1).map fun (text, number) => ⟨number, trim text⟩

def contentLines (source : String) : List Line := (lines source).filter Line.isContent

end Flowchart.Text
