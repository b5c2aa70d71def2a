import Flowchart.Render

/-! The command line. Arguments are read from left to right, and the first of them that is at fault
or asks for the version or for help settles what happens. -/
namespace Flowchart.CommandLine

inductive UsageError where
  | unknownOption
  | repeatedOption
  | needlessValue
  | missingWidth
  | invalidWidth
  | emptyFile
  | secondFile
  deriving DecidableEq, Repr

structure Settings where
  ascii : Bool
  /-- Asks for more to be logged. The drawing does not depend on it. -/
  verbose : Bool
  width : Option Nat
  /-- Without a file, the standard input is read. -/
  file : Option String
  deriving DecidableEq, Repr

inductive Request where
  | draw (settings : Settings)
  | help
  | version
  deriving DecidableEq, Repr

namespace Settings

def default : Settings := ⟨false, false, none, none⟩

def options (s : Settings) : Options := ⟨if s.ascii then .ascii else .unicode, s.width⟩

def setAscii (s : Settings) : Except UsageError Settings :=
  if s.ascii then .error .repeatedOption else .ok { s with ascii := true }

def setVerbose (s : Settings) : Except UsageError Settings :=
  if s.verbose then .error .repeatedOption else .ok { s with verbose := true }

/-- A number of at most 64 bits in decimal digits, after an optional plus sign. -/
def parseWidth? (cs : List Char) : Option Nat :=
  let digits := match cs with
    | '+' :: rest => rest
    | _ => cs
  if digits.isEmpty || !digits.all Char.isDigit then none
  else
    let value := digits.foldl (fun value c => 10 * value + (c.toNat - '0'.toNat)) 0
    if value < UInt64.size then some value else none

def setWidth (s : Settings) (value : List Char) : Except UsageError Settings :=
  match s.width, parseWidth? value with
  | some _, _ => .error .repeatedOption
  | none, none => .error .invalidWidth
  | none, some width => .ok { s with width := some width }

def setFile (s : Settings) (path : String) : Except UsageError Settings :=
  if path.isEmpty then .error .emptyFile
  else if s.file.isSome then .error .secondFile
  else .ok { s with file := some path }

end Settings

/-- What one argument amounts to. -/
inductive Effect where
  | proceed (settings : Settings)
  | finish (request : Request)
  /-- The next argument is the width. -/
  | takeWidth (settings : Settings)
  /-- The arguments that follow are files. -/
  | endOptions
  deriving DecidableEq, Repr

/-- Short options that share a dash. What follows the letter of the width is its value, with or
without an equals sign. -/
def short (s : Settings) : List Char → Except UsageError Effect
  | [] => .ok (.proceed s)
  | 'a' :: rest => do short (← s.setAscii) rest
  | 'v' :: rest => do short (← s.setVerbose) rest
  | 'w' :: [] => .ok (.takeWidth s)
  | 'w' :: '=' :: value => return .proceed (← s.setWidth value)
  | 'w' :: value => return .proceed (← s.setWidth value)
  | 'h' :: _ => .ok (.finish .help)
  | 'V' :: _ => .ok (.finish .version)
  | _ => .error .unknownOption

/-- A long option, with the text after its first equals sign if there is one. -/
def long (s : Settings) (name : String) (value : Option (List Char)) : Except UsageError Effect :=
  match name, value with
  | "width", some value => return .proceed (← s.setWidth value)
  | "width", none => .ok (.takeWidth s)
  | "ascii", none => return .proceed (← s.setAscii)
  | "verbose", none => return .proceed (← s.setVerbose)
  | "help", none => .ok (.finish .help)
  | "version", none => .ok (.finish .version)
  | "ascii", some _ | "verbose", some _ | "help", some _ | "version", some _ =>
    .error .needlessValue
  | _, _ => .error .unknownOption

/-- A dash alone is the name of a file. -/
def argument (s : Settings) (arg : String) : Except UsageError Effect :=
  match arg.toList with
  | ['-', '-'] => .ok .endOptions
  | '-' :: '-' :: text =>
    long s (String.ofList (text.takeWhile (· ≠ '='))) <|
      match text.dropWhile (· ≠ '=') with
      | [] => none
      | _ :: value => some value
  | '-' :: c :: rest => short s (c :: rest)
  | _ => return .proceed (← s.setFile arg)

def parseFrom (s : Settings) : List String → Except UsageError Request
  | [] => .ok (.draw s)
  | arg :: rest => do
    match ← argument s arg with
    | .proceed s => parseFrom s rest
    | .finish request => return request
    | .endOptions => return .draw (← rest.foldlM Settings.setFile s)
    | .takeWidth s =>
      match rest with
      | [] => .error .missingWidth
      | value :: rest => parseFrom (← s.setWidth value.toList) rest

/-- Reads the arguments, without the name of the program. -/
def parse (args : List String) : Except UsageError Request := parseFrom .default args

/-- What a run leaves behind: its exit code, its output, and what it says on the standard error if
it cannot read its source. -/
structure Outcome where
  exit : Nat
  output : String
  complaint : String
  deriving DecidableEq, Repr

namespace Outcome

/-- A usage error is told apart from a failure by its exit code. -/
def misuse : Outcome := ⟨2, "", ""⟩

def success (output : String) : Outcome := ⟨0, output, ""⟩

/-- The source does not exist, cannot be read or is not UTF-8. -/
def unreadable (file : Option String) (cause : String) : Outcome :=
  ⟨1, "", "ERROR: failed to read " ++ file.getD "stdin" ++ ": " ++ cause ++ "\n"⟩

/-- A text is a failure if it looks like one. -/
def ofText (text : String) : Outcome :=
  ⟨if failureMark.toList.isPrefixOf text.toList then 1 else 0, text ++ "\n", ""⟩

end Outcome

/-- Draws a source, given by its bytes or by the reason why there are none. -/
def Settings.outcome (s : Settings) (source : Except String ByteArray) : Outcome :=
  match source with
  | .error cause => .unreadable s.file cause
  | .ok bytes =>
    match String.fromUTF8? bytes with
    | none => .unreadable s.file "stream did not contain valid UTF-8"
    | some text => .ofText (present s.options text)

def versionText : String := "flowtui 0.1.0\n"

def helpText : String :=
"Render Mermaid flowcharts as Unicode or ASCII art in the terminal

Usage: flowtui [OPTIONS] [FILE]

Arguments:
  [FILE]  Input file (reads from stdin if not provided)

Options:
  -a, --ascii          Use ASCII characters only
  -w, --width <WIDTH>  Maximum output width in columns (advisory)
  -v, --verbose        Log layout diagnostics to stderr
  -h, --help           Print help
  -V, --version        Print version
"

/-- Runs the program on its arguments. A drawing needs the bytes of its source: `source` gets those
of the file, or of the standard input if there is no file. -/
def run [Monad m] (source : Option String → m (Except String ByteArray)) (args : List String) :
    m Outcome := do
  match parse args with
  | .error _ => return .misuse
  | .ok .help => return .success helpText
  | .ok .version => return .success versionText
  | .ok (.draw settings) => return settings.outcome (← source settings.file)

end Flowchart.CommandLine
