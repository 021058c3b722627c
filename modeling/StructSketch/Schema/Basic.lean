import StructSketch.Keyed
import StructSketch.Text.Utf8

/-!
# Inferred types

* **`Handle`** refers to an entry of a type table: a place there, and the serial number of the
  insertion that filled it.
* **`Entry`** is a type: a scalar, an array of what a handle refers to, or a record.
* **`Record.sorted`** lists the fields of a record by the bytes of their names; fields of one
  name stay in order.
-/

namespace StructSketch

/-- A reference to an entry of a type table. -/
structure Handle where
  place : Nat
  serial : Nat
deriving DecidableEq

/-- The types without parts. -/
inductive Scalar where
  | string
  | int
  | float
  | bool
  | any
deriving DecidableEq

/-- A field of a record: the key of a member, the name made of it, and its type. -/
structure Field where
  key : String
  name : String
  type : Handle
deriving DecidableEq

/-- A named list of fields, in the order of the members. -/
structure Record where
  name : String
  fields : List Field
deriving DecidableEq

/-- A type. -/
inductive Entry where
  | scalar (scalar : Scalar)
  | array (element : Handle)
  | record (record : Record)
deriving DecidableEq

/-- The record that an entry is. -/
def Entry.record? : Entry → Option Record
  | .record r => some r
  | _ => none

namespace Record

/-- The fields by the bytes of their names. -/
def sorted (record : Record) : List Field :=
  record.fields.mergeSort fun f g => Text.byteLE f.name g.name

/-- Sorting keeps the number of fields. -/
@[simp]
theorem length_sorted (record : Record) : record.sorted.length = record.fields.length :=
  List.length_mergeSort record.fields

/-- A record of the given fields; a repeated key keeps its first place and its last field. -/
def ofFields (name : String) (fields : List Field) : Record :=
  ⟨name, Keyed.ofList Field.key fields⟩

end Record

end StructSketch
