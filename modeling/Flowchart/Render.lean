import Flowchart.Document
import Flowchart.Drawing

/-! From a source text to its drawing. Only reading can fail. -/
namespace Flowchart

structure Options where
  style : Style
  /-- How many columns the caller has room for. Drawings are neither wrapped nor clipped to it. -/
  maxWidth : Option Nat
  deriving DecidableEq, Repr

namespace Options

def default : Options := ⟨.unicode, none⟩

end Options

/-- Reads, arranges and draws a chart. -/
def render (options : Options) (source : String) : Except ReadError String :=
  (Chart.read source).map fun c => c.arrange.draw options.style

/-- What the text of a failure starts with. -/
def failureMark : String := "Error: "

/-- The drawing of a source, or what is wrong with it. -/
def present (options : Options) (source : String) : String :=
  match render options source with
  | .ok drawing => drawing
  | .error e => failureMark ++ e.message

end Flowchart
