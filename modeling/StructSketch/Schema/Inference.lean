import StructSketch.Go.Name
import StructSketch.Json.Basic
import StructSketch.Json.Numeral
import StructSketch.Schema.ClaimedNames
import StructSketch.Schema.Order

/-!
# Inferring a schema from a sample

* **`Draft.infer`** puts the type of a value into a table: scalars are interned, an array takes
  the type of its first item, and an object becomes a record with a name of its own.
* **`Schema.infer?`** infers the schema of a sample, whose root must be an object.

An object claims its name before its members are looked at, and its record enters the table
after the types of all its members.
-/

namespace StructSketch

/-- A schema in the making: the types so far and the names given out. -/
structure Draft where
  table : TypeTable
  claimed : ClaimedNames

/-- The type of a number: a float if its literal has a fraction or an exponent or is no integer of
64 bits. -/
def Scalar.ofNumber (literal : String) : Scalar :=
  if Json.Numeral.isFractional literal then .float
  else if Json.Numeral.fitsInteger literal then .int
  else .float

namespace Draft

/-- A schema without types of its own. -/
def new : Draft := ⟨.new, ∅⟩

/-- Puts an entry into the table. -/
def insert (draft : Draft) (entry : Entry) : Handle × Draft :=
  let (handle, table) := draft.table.insert entry
  (handle, { draft with table })

/-- Gives out a record name. -/
def claim (draft : Draft) (base : String) : String × Draft :=
  let (name, claimed) := draft.claimed.claim base
  (name, { draft with claimed })

mutual

/-- Puts the type of a value into the table; an object there is named after `base`. -/
def infer (draft : Draft) (base : String) : Json → Handle × Draft
  | .null => (Scalar.any.handle, draft)
  | .boolean _ => (Scalar.bool.handle, draft)
  | .number literal => ((Scalar.ofNumber literal).handle, draft)
  | .string _ => (Scalar.string.handle, draft)
  | .array [] => draft.insert (.array Scalar.any.handle)
  | .array (item :: _) =>
    let (element, draft) := draft.infer base item
    draft.insert (.array element)
  | .object members =>
    let (name, draft) := draft.claim base
    let (fields, draft) := draft.inferFields members
    draft.insert (.record ⟨name, fields⟩)

/-- Puts the types of the members of an object into the table. -/
def inferFields (draft : Draft) : List (String × Json) → List Field × Draft
  | [] => ([], draft)
  | (key, value) :: rest =>
    let name := Go.nameOfKey key
    let (type, draft) := draft.infer name value
    let (fields, draft) := draft.inferFields rest
    (⟨key, name, type⟩ :: fields, draft)

end

end Draft

/-- The schema of a sample whose root record is named `rootName`; fails with the kind of a root
that is no object. -/
def Schema.infer? (rootName : String) (sample : Json) : Except Json.Kind Schema :=
  match sample with
  | .object _ =>
    let (root, draft) := Draft.new.infer rootName sample
    .ok ⟨draft.table, root⟩
  | other => .error other.kind

end StructSketch
