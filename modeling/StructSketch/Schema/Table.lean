import StructSketch.Schema.Basic

/-!
# Type tables

A type table gives out a handle for every entry that is put into it.

* **`TypeTable.new`** holds the five scalars, each under its interned handle `Scalar.handle`.
* **`insert`** fills the place that became vacant last, or else a new place, and numbers the
  insertion.
* **`remove?`** makes a place vacant. Its handle is dead for good: a later entry in that place
  has another serial number.
* **`replace?`** puts another entry under a live handle.

The places are numbered from zero, and `live` lists the entries by place.
-/

namespace StructSketch

/-- A table of types. A place is vacant or holds an entry with the number of its insertion. -/
structure TypeTable where
  places : Array (Option (Nat × Entry))
  /-- The vacant places, the one that became vacant last first. -/
  vacancies : List Nat
  nextSerial : Nat

/-- Where a scalar is interned. -/
def Scalar.place : Scalar → Nat
  | .string => 0
  | .int => 1
  | .float => 2
  | .bool => 3
  | .any => 4

/-- The interned handle of a scalar. -/
def Scalar.handle (scalar : Scalar) : Handle := ⟨scalar.place, scalar.place⟩

namespace TypeTable

/-- A table without entries. -/
def empty : TypeTable := ⟨#[], [], 0⟩

/-- The entry under a handle, unless the handle is dead. -/
def get? (table : TypeTable) (handle : Handle) : Option Entry :=
  match table.places[handle.place]? with
  | some (some (serial, entry)) => if serial = handle.serial then some entry else none
  | _ => none

/-- Puts an entry into the table. -/
def insert (table : TypeTable) (entry : Entry) : Handle × TypeTable :=
  let filled := some (table.nextSerial, entry)
  match table.vacancies with
  | [] =>
    (⟨table.places.size, table.nextSerial⟩,
      ⟨table.places.push filled, [], table.nextSerial + 1⟩)
  | place :: vacancies =>
    (⟨place, table.nextSerial⟩,
      ⟨table.places.setIfInBounds place filled, vacancies, table.nextSerial + 1⟩)

/-- A table that holds only the interned scalars. -/
def new : TypeTable :=
  [Scalar.string, .int, .float, .bool, .any].foldl
    (fun table scalar => (table.insert (.scalar scalar)).2) empty

/-- Takes the entry under a handle out of the table. -/
def remove? (table : TypeTable) (handle : Handle) : Option (Entry × TypeTable) :=
  (table.get? handle).map fun entry =>
    (entry,
      ⟨table.places.setIfInBounds handle.place none, handle.place :: table.vacancies,
        table.nextSerial⟩)

/-- Puts another entry under a live handle. -/
def replace? (table : TypeTable) (handle : Handle) (entry : Entry) : Option TypeTable :=
  (table.get? handle).map fun _ =>
    { table with
      places := table.places.setIfInBounds handle.place (some (handle.serial, entry)) }

/-- The live entries with their handles, by place. -/
def live (table : TypeTable) : List (Handle × Entry) :=
  (table.places.toList.zipIdx).filterMap fun (filled?, place) =>
    filled?.map fun (serial, entry) => (⟨place, serial⟩, entry)

/-- The number of live entries. -/
def size (table : TypeTable) : Nat := table.live.length

/-- A live entry is listed. -/
theorem mem_live_of_get? {table : TypeTable} {handle : Handle} {entry : Entry}
    (h : table.get? handle = some entry) : (handle, entry) ∈ table.live := by
  unfold get? at h
  split at h
  · rename_i serial found hplace
    split at h
    · rename_i hserial
      obtain rfl := Option.some.inj h
      obtain ⟨place, s⟩ := handle
      obtain rfl : serial = s := hserial
      refine List.mem_filterMap.2 ⟨(some (serial, found), place), ?_, rfl⟩
      rw [List.mk_mem_zipIdx_iff_getElem?, Array.getElem?_toList]
      exact hplace
    · cases h
  · cases h

end TypeTable

end StructSketch
