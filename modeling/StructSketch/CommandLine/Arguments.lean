import StructSketch.Session

/-!
# Command lines

* **`Request.ofArguments`** reads the arguments of the program from left to right: a request to
  sketch a sample, or to tell the version or the usage, or the first mistake.

The value of an option stands behind its letter or, after an equals sign, behind its letter or
its long name; or it is the next argument, which then must not look like an option. Each option
and the flag may be given once; `--version` and `--help` count as soon as they are reached.
-/

namespace StructSketch.CommandLine

/-- What a sketch is asked of: files for input and output, if they are not the standard ones,
and the session. -/
structure Sketch where
  input : Option String
  output : Option String
  session : Session
deriving DecidableEq

/-- What the program is asked to do. -/
inductive Request where
  | sketch (sketch : Sketch)
  | version
  | help
deriving DecidableEq

/-- A mistake in a command line. -/
inductive Mistake where
  | unexpected (argument : String)
  | valueMissing (option : String)
  | valueUnexpected (flag : String)
  | repeated (option : String)
deriving DecidableEq

/-- The options that take a value. -/
inductive Parameter where
  | input
  | output
  | name
  | package
deriving DecidableEq

namespace Parameter

/-- The long name of an option. -/
def longName : Parameter → String
  | .input => "input"
  | .output => "output"
  | .name => "name"
  | .package => "package"

/-- The letter of an option. -/
def letter : Parameter → Char
  | .input => 'i'
  | .output => 'o'
  | .name => 'n'
  | .package => 'p'

/-- All options that take a value. -/
def all : List Parameter := [.input, .output, .name, .package]

end Parameter

/-- What was given on a command line so far. -/
structure Given where
  input : Option String := none
  output : Option String := none
  name : Option String := none
  package : Option String := none
  importJson : Bool := false

namespace Given

/-- The value of an option. -/
def get? (given : Given) : Parameter → Option String
  | .input => given.input
  | .output => given.output
  | .name => given.name
  | .package => given.package

/-- Gives an option a value. A file name is not empty. -/
def set (given : Given) (parameter : Parameter) (value : String) : Except Mistake Given :=
  if (given.get? parameter).isSome then .error (.repeated parameter.longName)
  else match parameter with
    | .input =>
      if value = "" then .error (.valueMissing parameter.longName)
      else .ok { given with input := some value }
    | .output =>
      if value = "" then .error (.valueMissing parameter.longName)
      else .ok { given with output := some value }
    | .name => .ok { given with name := some value }
    | .package => .ok { given with package := some value }

/-- The sketch that is asked for, with defaults for what was not given. -/
def sketch (given : Given) : Sketch :=
  { input := given.input
    output := given.output
    session :=
      { rootName := given.name.getD "Root"
        options :=
          { package := given.package.getD ({} : Go.FileOptions).package
            importJson := given.importJson } } }

end Given

/-- The forms of arguments. -/
inductive Form where
  /-- Two dashes alone: no options follow. -/
  | rest
  /-- Two dashes and a name, with what follows an equals sign. -/
  | long (name : List Char) (value : Option (List Char))
  /-- A dash and a letter, with what follows them. -/
  | short (letter : Char) (value : List Char)
  /-- Anything else, a lone dash and the empty argument too. -/
  | plain
deriving DecidableEq

/-- The form of an argument. -/
def Form.of (argument : String) : Form :=
  match argument.toList with
  | ['-', '-'] => .rest
  | '-' :: '-' :: text =>
    match text.dropWhile (· ≠ '=') with
    | [] => .long text none
    | _ :: value => .long (text.takeWhile (· ≠ '=')) (some value)
  | '-' :: letter :: value => .short letter value
  | _ => .plain

/-- The value that stands behind the letter of an option; an equals sign before it is dropped. -/
def attached? : List Char → Option String
  | [] => none
  | '=' :: value => some (String.ofList value)
  | value => some (String.ofList value)

/-- What an argument asks for. -/
inductive Meaning where
  | option (parameter : Parameter) (value : Option String)
  | importJson
  | version
  | help
  | rest

/-- What an argument asks for by itself. -/
def Meaning.of (argument : String) : Except Mistake Meaning :=
  match Form.of argument with
  | .rest => .ok .rest
  | .plain => .error (.unexpected argument)
  | .long name value =>
    match Parameter.all.find? (·.longName.toList = name), String.ofList name, value with
    | some parameter, _, value => .ok (.option parameter (value.map String.ofList))
    | none, "import-json", none => .ok .importJson
    | none, "version", none => .ok .version
    | none, "help", none => .ok .help
    | none, "import-json", some _ | none, "version", some _ | none, "help", some _ =>
      .error (.valueUnexpected argument)
    | none, _, _ => .error (.unexpected argument)
  | .short letter value =>
    match Parameter.all.find? (·.letter = letter) with
    | some parameter => .ok (.option parameter (attached? value))
    | none =>
      if letter = 'V' then .ok .version
      else if letter = 'h' then .ok .help
      else .error (.unexpected argument)

/-- Reads the arguments that follow those given. -/
def Given.readArguments (given : Given) : List String → Except Mistake Request
  | [] => .ok (.sketch given.sketch)
  | argument :: arguments =>
    match Meaning.of argument with
    | .error mistake => .error mistake
    | .ok .version => .ok .version
    | .ok .help => .ok .help
    | .ok .rest =>
      match arguments with
      | [] => .ok (.sketch given.sketch)
      | argument :: _ => .error (.unexpected argument)
    | .ok .importJson =>
      if given.importJson then .error (.repeated "import-json")
      else { given with importJson := true }.readArguments arguments
    | .ok (.option parameter (some value)) =>
      match given.set parameter value with
      | .ok given => given.readArguments arguments
      | .error mistake => .error mistake
    | .ok (.option parameter none) =>
      match arguments with
      | [] => .error (.valueMissing parameter.longName)
      | value :: arguments =>
        if Form.of value = .plain then
          match given.set parameter value with
          | .ok given => given.readArguments arguments
          | .error mistake => .error mistake
        else .error (.valueMissing parameter.longName)

/-- Reads the arguments of the program. -/
def Request.ofArguments (arguments : List String) : Except Mistake Request :=
  ({} : Given).readArguments arguments

/-- The wording of a mistake. -/
def Mistake.message : Mistake → String
  | .unexpected argument => "unexpected argument '" ++ argument ++ "' found"
  | .valueMissing option => "a value is required for '--" ++ option ++ "' but none was supplied"
  | .valueUnexpected flag => "unexpected value in '" ++ flag ++ "'"
  | .repeated option => "the argument '--" ++ option ++ "' cannot be used multiple times"

/-- What is said about a mistake. -/
def Mistake.report (mistake : Mistake) : String :=
  "error: " ++ mistake.message ++ "\n\nFor more information, try '--help'.\n"

end StructSketch.CommandLine
