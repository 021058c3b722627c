import StructSketch.Schema.Target

/-!
# The order of declarations

* **`Schema`** is a type table with a root.
* **`Schema.order`** lists the records that the root leads to, each once: depth first, a record
  before those that its fields lead to, the fields taken as `Record.sorted` lists them.
* **`Schema.record?`** looks a record up by its name.

The walk keeps the references that are still to be followed and the records that were listed.
Listing a record adds its fields to the first and takes it from the records to come, so the
fields and records to come together with the references to be followed become fewer at each step.
-/

namespace StructSketch

/-- A type table with a root. -/
structure Schema where
  table : TypeTable
  root : Handle

/-- One more than the number of fields of a record, and nothing for other entries. -/
def Entry.breadth (entry : Entry) : Nat :=
  match entry.record? with
  | some r => r.fields.length + 1
  | none => 0

/-- The breadth of the entries whose handles were not yet seen. -/
def breadthOutside (seen : List Handle) : List (Handle × Entry) → Nat
  | [] => 0
  | (handle, entry) :: rest =>
    (if handle ∈ seen then 0 else entry.breadth) + breadthOutside seen rest

/-- Seeing more handles takes nothing in. -/
theorem breadthOutside_cons_le (seen : List Handle) (handle : Handle)
    (entries : List (Handle × Entry)) :
    breadthOutside (handle :: seen) entries ≤ breadthOutside seen entries := by
  induction entries with
  | nil => exact Nat.le_refl _
  | cons e rest ih =>
    refine Nat.add_le_add ?_ ih
    split
    · exact Nat.zero_le _
    · rename_i hnew
      have hold : e.1 ∉ seen := fun h => hnew (List.mem_cons_of_mem _ h)
      exact Nat.le_of_eq (if_neg hold).symm

/-- Seeing an entry takes at least its breadth from what is to come. -/
theorem breadthOutside_cons_add_le {seen : List Handle} {handle : Handle} {entry : Entry}
    {entries : List (Handle × Entry)} (hmem : (handle, entry) ∈ entries)
    (hnew : handle ∉ seen) :
    breadthOutside (handle :: seen) entries + entry.breadth ≤ breadthOutside seen entries := by
  induction entries with
  | nil => cases hmem
  | cons e rest ih =>
    have hrest := breadthOutside_cons_le seen handle rest
    have hhead := breadthOutside_cons_le seen handle [e]
    rcases List.mem_cons.1 hmem with rfl | hmem
    · show (if handle ∈ handle :: seen then 0 else entry.breadth) + _ + entry.breadth ≤
        (if handle ∈ seen then 0 else entry.breadth) + _
      rw [if_pos List.mem_cons_self, if_neg hnew]
      omega
    · have := ih hmem
      simp only [breadthOutside] at hhead ⊢
      omega

namespace TypeTable

/-- Walks from the pending references on; `listed` holds the records listed so far, the latest
first. -/
def walk (table : TypeTable) (pending listed : List Handle) : List Handle :=
  match pending with
  | [] => listed.reverse
  | reference :: pending =>
    match _h : table.targetRecord? reference with
    | none => table.walk pending listed
    | some (handle, record) =>
      if handle ∈ listed then table.walk pending listed
      else table.walk (record.sorted.map (·.type) ++ pending) (handle :: listed)
termination_by breadthOutside listed table.live + pending.length
decreasing_by
  · simp
  · simp
  · rename_i hnew
    have := breadthOutside_cons_add_le (mem_live_of_get? (get?_of_targetRecord? ‹_›)) hnew
    simp only [Entry.breadth, Entry.record?] at this
    simp only [List.length_append, List.length_map, Record.length_sorted, List.length_cons]
    omega

end TypeTable

namespace Schema

/-- The records that the root leads to, in the order of their declarations. -/
def order (schema : Schema) : List Handle := schema.table.walk [schema.root] []

/-- The record at the root. -/
def rootRecord? (schema : Schema) : Option Record :=
  (schema.table.get? schema.root).bind Entry.record?

/-- The first record of a name, by place. -/
def record? (schema : Schema) (name : String) : Option Record :=
  schema.table.live.findSome? fun (_, entry) =>
    match entry.record? with
    | some record => if record.name = name then some record else none
    | none => none

end Schema

end StructSketch
