import Flowchart.CommandLine

/-! The program: draws the flowchart in a file or on the standard input. -/
namespace Flowchart.CommandLine

/-- The bytes of a file, or of the standard input if no file is named. -/
def readSource (file : Option String) : IO (Except String ByteArray) :=
  try
    match file with
    | some path => .ok <$> IO.FS.readBinFile path
    | none => .ok <$> (← IO.getStdin).readBinToEnd
  catch cause => return .error (toString cause)

end Flowchart.CommandLine

open Flowchart in
def main (args : List String) : IO UInt32 := do
  let outcome ← CommandLine.run CommandLine.readSource args
  IO.eprint outcome.complaint
  IO.print outcome.output
  return outcome.exit.toUInt32
