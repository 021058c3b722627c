/-!
# The style of a Go file

* **`FileOptions`** are the settings of a file that its users choose: the package and whether
  `encoding/json` is imported.
* **`Style`** adds the indentation. `FileOptions.style` indents by tabs.
* **`Style.header`** is the text before the declarations.
-/

namespace StructSketch.Go

/-- What a line inside a block begins with. -/
inductive Indentation where
  | tab
  | spaces (count : Nat)
deriving DecidableEq

/-- The text of an indentation. -/
def Indentation.text : Indentation → String
  | .tab => "\t"
  | .spaces count => String.ofList (List.replicate count ' ')

/-- The settings of a Go file that its users choose. -/
structure FileOptions where
  package : String := "main"
  importJson : Bool := false
deriving DecidableEq

/-- The settings that a Go file is written by, with defaults of their own. -/
structure Style extends FileOptions where
  package := "main"
  importJson := false
  indentation : Indentation := .tab
deriving DecidableEq

/-- The style of a file with the given options. -/
def FileOptions.style (options : FileOptions) : Style :=
  { options with indentation := .tab }

/-- The package clause, and the import if the style has one. -/
def Style.header (style : Style) : String :=
  let clause := "package " ++ style.package ++ "\n\n"
  if style.importJson then
    clause ++ "import (\n" ++ style.indentation.text ++ "\"encoding/json\"\n)\n\n"
  else clause

end StructSketch.Go
