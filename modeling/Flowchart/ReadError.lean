/-! The reasons for which a text is no flowchart, and how each is worded. -/
namespace Flowchart

inductive ReadError where
  | emptyInput
  | unsupportedDiagram (line : Nat) (suggestion : Option String)
  | invalidSyntax (line : Nat) (text : String) (suggestion : Option String)
  deriving DecidableEq, Repr

namespace ReadError

/-- The line at fault, counted from one. -/
def line? : ReadError → Option Nat
  | emptyInput => none
  | unsupportedDiagram line _ | invalidSyntax line _ _ => some line

/-- The text at fault. -/
def text? : ReadError → Option String
  | invalidSyntax _ text _ => some text
  | emptyInput | unsupportedDiagram _ _ => none

def suggestion? : ReadError → Option String
  | emptyInput => none
  | unsupportedDiagram _ suggestion | invalidSyntax _ _ suggestion => suggestion

/-- How a suggestion follows a message. -/
def advice : Option String → String
  | none => ""
  | some suggestion => " (Suggestion: " ++ suggestion ++ ")"

def message : ReadError → String
  | emptyInput => "Empty input"
  | unsupportedDiagram line suggestion =>
    "Line " ++ toString line ++ ": Unsupported diagram type or missing direction"
      ++ advice suggestion
  | invalidSyntax line text suggestion =>
    "Line " ++ toString line ++ ": Invalid syntax: \"" ++ text ++ "\"" ++ advice suggestion

end ReadError

end Flowchart
