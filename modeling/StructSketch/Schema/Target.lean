import StructSketch.Schema.Table

/-!
# What a reference comes to

Arrays nest, so a reference may have to pass some array links before it comes to a scalar or a
record.

* **`TypeTable.target?`** follows the array links of a reference: it counts them and finds the
  scalar or record behind the last one, or fails where a link is dead.

An array refers to an entry that was inserted before it, so each link leads to a smaller serial
number; a link that does not counts as dead.
-/

namespace StructSketch

/-- A type that is not an array. -/
inductive Base where
  | scalar (scalar : Scalar)
  | record (handle : Handle) (record : Record)

/-- What a reference comes to: the number of array links, and the type behind them. -/
structure Target where
  links : Nat
  base : Base

/-- Follows the array links of a reference. -/
def TypeTable.target? (table : TypeTable) (handle : Handle) : Option Target :=
  match table.get? handle with
  | none => none
  | some (.scalar scalar) => some ⟨0, .scalar scalar⟩
  | some (.record record) => some ⟨0, .record handle record⟩
  | some (.array element) =>
    if element.serial < handle.serial then
      (table.target? element).map fun target => { target with links := target.links + 1 }
    else none
termination_by handle.serial

/-- The record that a reference comes to. -/
def TypeTable.targetRecord? (table : TypeTable) (handle : Handle) : Option (Handle × Record) :=
  match table.target? handle with
  | some ⟨_, .record handle record⟩ => some (handle, record)
  | _ => none

/-- The record that a reference comes to is live under its handle. -/
theorem TypeTable.get?_of_target? {table : TypeTable} {handle found : Handle} {links : Nat}
    {record : Record} (h : table.target? handle = some ⟨links, .record found record⟩) :
    table.get? found = some (.record record) := by
  fun_induction table.target? handle generalizing links with
  | case1 => cases h
  | case2 => cases h
  | case3 handle r hget => cases h; exact hget
  | case4 handle element hget hlt ih =>
    obtain ⟨⟨n, base⟩, htarget, heq⟩ := Option.map_eq_some_iff.1 h
    cases heq
    exact ih htarget
  | case5 => cases h

/-- The record that a reference comes to is live under its handle. -/
theorem TypeTable.get?_of_targetRecord? {table : TypeTable} {handle found : Handle}
    {record : Record} (h : table.targetRecord? handle = some (found, record)) :
    table.get? found = some (.record record) := by
  unfold targetRecord? at h
  split at h
  · rename_i htarget
    cases h
    exact get?_of_target? htarget
  · cases h

end StructSketch
