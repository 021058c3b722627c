import StructSketch.Go.Style
import StructSketch.Schema.Order

/-!
# Go declarations of a schema

* **`Style.declaration`** is the struct declaration of a record, a line for each field.
* **`Style.declarations`** are the declarations of the records that the root of a schema leads
  to, in their order, and **`Style.source`** is a whole file of them.

A field of record type embeds the record: its line has the name of the record alone. Every other
field has its own name and its type. A reference to a dead entry cannot be written.
-/

namespace StructSketch.Go

/-- A reference to an entry that is no longer in the table. -/
structure DeadReference where
deriving DecidableEq

/-- The Go type of a scalar. -/
def scalarType : Scalar → String
  | .string => "string"
  | .int => "int"
  | .float => "float64"
  | .bool => "bool"
  | .any => "interface\x7b\x7d"

/-- The Go type of what stands behind array links. -/
def baseType : Base → String
  | .scalar scalar => scalarType scalar
  | .record _ record => record.name

/-- The Go type of a target: a pair of brackets for each array link, and the type behind them. -/
def targetType (target : Target) : String :=
  String.join (List.replicate target.links "[]") ++ baseType target.base

/-- What a field line declares: an embedded record, or a name with a type. -/
def fieldDeclaration (name : String) : Target → String
  | ⟨0, .record _ record⟩ => record.name
  | target => name ++ " " ++ targetType target

/-- The tag that ties a field to its key. -/
def tag (key : String) : String := "`json:\"" ++ key ++ "\"`"

namespace Style

/-- The line of a field. -/
def fieldLine (style : Style) (table : TypeTable) (field : Field) :
    Except DeadReference String :=
  match table.target? field.type with
  | some target =>
    .ok (style.indentation.text ++ fieldDeclaration field.name target ++ " " ++ tag field.key ++
      "\n")
  | none => .error ⟨⟩

/-- The declaration of a record. -/
def recordDeclaration (style : Style) (table : TypeTable) (record : Record) :
    Except DeadReference String :=
  (record.sorted.mapM (style.fieldLine table)).map fun lines =>
    "type " ++ record.name ++ " struct \x7b\n" ++ String.join lines ++ "\x7d\n"

/-- The declaration of an entry; one that is no record has an empty one. -/
def declaration (style : Style) (table : TypeTable) (handle : Handle) :
    Except DeadReference String :=
  match table.get? handle with
  | some (.record record) => style.recordDeclaration table record
  | some _ => .ok ""
  | none => .error ⟨⟩

/-- The declarations of the records of a schema. -/
def declarations (style : Style) (schema : Schema) : Except DeadReference (List String) :=
  schema.order.mapM (style.declaration schema.table)

end Style

/-- A Go file: what comes before its declarations, and the declarations. -/
structure Source where
  header : String
  body : String
deriving DecidableEq

/-- The Go file of a schema. -/
def Style.source (style : Style) (schema : Schema) : Except DeadReference Source :=
  (style.declarations schema).map fun declarations => ⟨style.header, String.join declarations⟩

end StructSketch.Go
