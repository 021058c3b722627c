import StructSketch.CommandLine.Arguments

/-!
# The program

* **`Host`** are the operations that the program needs of the system it runs on.
* **`Program.run`** does what a command line asks for and returns the exit code: 0 after
  success, 1 when the sketch fails, 2 for a mistake in the command line.

For a sketch the input is opened first, then the output is created and with that emptied, and
only then the session runs. What fails is reported with the causes behind it.
-/

namespace StructSketch.CommandLine

/-- The operations that the program needs. A failure is told in the words of the system. -/
structure Host (m : Type → Type) (ι ο : Type) where
  standardInput : ι
  standardOutput : ο
  openFile : String → m (Except String ι)
  /-- Creates a file, or empties the one that is there. -/
  createFile : String → m (Except String ο)
  readAll : ι → m (Except String (List UInt8))
  writeAll : ο → List UInt8 → m (Except String Unit)
  flush : ο → m (Except String Unit)
  /-- Prints a text to the standard output. -/
  print : String → m Unit
  /-- Prints a text to the standard error output. -/
  report : String → m Unit

/-- The operations of a session on an input and an output. -/
def Host.channel {m : Type → Type} {ι ο : Type} (host : Host m ι ο) (input : ι) (output : ο) :
    Channel m where
  readAll := host.readAll input
  writeAll := host.writeAll output
  flush := host.flush output

/-- What could not be done, and why, the outermost cause first. -/
structure Complaint where
  context : String
  causes : List String
deriving DecidableEq

/-- The lines of the causes, numbered from a number on. -/
def numberedCauses : Nat → List String → List String
  | _, [] => []
  | number, cause :: causes =>
    ("    " ++ toString number ++ ": " ++ cause ++ "\n") :: numberedCauses (number + 1) causes

/-- The lines of the causes; a single one is not numbered. -/
def causeLines : List String → List String
  | [cause] => ["    " ++ cause ++ "\n"]
  | causes => numberedCauses 0 causes

/-- A complaint in words. -/
def Complaint.report (complaint : Complaint) : String :=
  "Error: " ++ complaint.context ++ "\n\nCaused by:\n" ++
    String.join (causeLines complaint.causes)

/-- The name and the version of the program. -/
def versionText : String := "json2struct 0.1.0\n"

/-- The usage of the program. -/
def helpText : String :=
  "generate Go struct declarations, tagged for encoding/json, from a sample JSON document\n\n" ++
  "Usage: json2struct [OPTIONS]\n\n" ++
  "Options:\n" ++
  "  -i, --input <INPUT>      input .json file (stdin if omitted)\n" ++
  "  -o, --output <OUTPUT>    output .go file (stdout if omitted)\n" ++
  "  -n, --name <NAME>        name of the top-level struct [default: Root]\n" ++
  "  -p, --package <PACKAGE>  name in the package clause [default: main]\n" ++
  "      --import-json        import encoding/json after the package clause\n" ++
  "  -h, --help               Print help\n" ++
  "  -V, --version            Print version\n"

namespace Program

variable {m : Type → Type} [Monad m] {ι ο : Type}

/-- Opens the input of a sketch. -/
def openInput (host : Host m ι ο) : Option String → m (Except Complaint ι)
  | none => return .ok host.standardInput
  | some path => do
    return (← host.openFile path).mapError fun reason => ⟨"failed to open " ++ path, [reason]⟩

/-- Creates the output of a sketch. -/
def createOutput (host : Host m ι ο) : Option String → m (Except Complaint ο)
  | none => return .ok host.standardOutput
  | some path => do
    return (← host.createFile path).mapError fun reason =>
      ⟨"failed to create " ++ path, [reason]⟩

/-- Sketches a sample. -/
def sketch (host : Host m ι ο) (sketch : Sketch) : m (Except Complaint Unit) := do
  match ← openInput host sketch.input with
  | .error complaint => return .error complaint
  | .ok input =>
    match ← createOutput host sketch.output with
    | .error complaint => return .error complaint
    | .ok output =>
      return (← sketch.session.run (host.channel input output)).mapError fun failure =>
        ⟨"failed to generate Go declarations", failure.causes⟩

/-- Does what a command line asks for and returns the exit code. -/
def run (host : Host m ι ο) (arguments : List String) : m UInt32 := do
  match Request.ofArguments arguments with
  | .error mistake =>
    host.report mistake.report
    return 2
  | .ok .version =>
    host.print versionText
    return 0
  | .ok .help =>
    host.print helpText
    return 0
  | .ok (.sketch what) =>
    match ← sketch host what with
    | .ok () => return 0
    | .error complaint =>
      host.report complaint.report
      return 1

end Program

end StructSketch.CommandLine
