import StructSketch.Keyed

/-!
# JSON values

* **`Json`** is the tree of a document. A number keeps its literal; an object keeps its members
  in order, each key once.
* **`Json.Kind`** is the kind of a value, with the noun that diagnostics call it by.
* **`Json.put`** adds a member: a key that is there already keeps its place and takes the new
  value.
-/

namespace StructSketch

/-- A JSON value. -/
inductive Json where
  | null
  | boolean (value : Bool)
  | number (literal : String)
  | string (text : String)
  | array (items : List Json)
  | object (members : List (String × Json))

namespace Json

/-- The kinds of JSON values. -/
inductive Kind where
  | null
  | boolean
  | number
  | string
  | array
  | object
deriving DecidableEq

/-- A short noun for a kind. -/
def Kind.noun : Kind → String
  | .null => "null"
  | .boolean => "a boolean"
  | .number => "a number"
  | .string => "a string"
  | .array => "an array"
  | .object => "an object"

/-- The kind of a value. -/
def kind : Json → Kind
  | .null => .null
  | .boolean _ => .boolean
  | .number _ => .number
  | .string _ => .string
  | .array _ => .array
  | .object _ => .object

/-- Adds a member at the end, or in the place of the member of the same key. -/
def put (key : String) (value : Json) (members : List (String × Json)) :
    List (String × Json) :=
  Keyed.put Prod.fst (key, value) members

end Json

end StructSketch
