import Mathlib.Data.List.Induction
import StructSketch.Schema.Table

/-!
# Tables that only grow

While nothing is removed, a type table is the list of its entries in the order of their insertion:
place, serial number and position in the list are the same number.

* **`TypeTable.ofEntries`** is the table of a list of entries, and **`new_eq`** says that a new
  table is one of the five scalars.
* **`insert_ofEntries`**: insertion appends to the list and gives out the next number.
* **`live_ofEntries`**: the live entries are those of the list, each under its number, and
  **`mem_live_iff`** says that being listed is being live.
-/

namespace StructSketch

/-- The handle of the insertion of a number into a table that only grows. -/
def Handle.nth (number : Nat) : Handle := ⟨number, number⟩

theorem Handle.nth_injective : Function.Injective Handle.nth :=
  fun _ _ h => congrArg Handle.serial h

/-- The scalars in the order in which they are interned. -/
def Scalar.all : List Scalar := [.string, .int, .float, .bool, .any]

theorem Scalar.getElem?_all (scalar : Scalar) : Scalar.all[scalar.place]? = some scalar := by
  cases scalar <;> rfl

theorem Scalar.place_lt (scalar : Scalar) : scalar.place < Scalar.all.length := by
  cases scalar <;> decide

namespace TypeTable

theorem get?_of_mem_live {table : TypeTable} {handle : Handle} {entry : Entry}
    (h : (handle, entry) ∈ table.live) : table.get? handle = some entry := by
  obtain ⟨⟨filled, place⟩, hplace, hentry⟩ := List.mem_filterMap.mp h
  rw [List.mk_mem_zipIdx_iff_getElem?, Array.getElem?_toList] at hplace
  obtain ⟨⟨serial, e⟩, rfl, heq⟩ := Option.map_eq_some_iff.mp hentry
  obtain ⟨rfl, rfl⟩ := Prod.mk.inj heq
  simp [get?, hplace]

theorem mem_live_iff {table : TypeTable} {handle : Handle} {entry : Entry} :
    (handle, entry) ∈ table.live ↔ table.get? handle = some entry :=
  ⟨get?_of_mem_live, mem_live_of_get?⟩

/-- The table of some entries, inserted one after the other. -/
def ofEntries (entries : List Entry) : TypeTable :=
  ⟨(entries.mapIdx fun number entry => some (number, entry)).toArray, [], entries.length⟩

theorem new_eq : new = ofEntries (Scalar.all.map .scalar) := rfl

/-- Insertion appends, and gives out the next number. -/
theorem insert_ofEntries (entries : List Entry) (entry : Entry) :
    (ofEntries entries).insert entry =
      (.nth entries.length, ofEntries (entries ++ [entry])) := by
  simp [insert, ofEntries, Handle.nth, List.mapIdx_concat]

/-- The live entries are all entries, each under its number. -/
theorem live_ofEntries (entries : List Entry) :
    (ofEntries entries).live = entries.mapIdx fun number entry => (.nth number, entry) := by
  -- an entry comes in at the end, so the induction takes the last entry off
  induction entries using List.reverseRecOn with
  | nil => rfl
  | append_singleton entries entry ih =>
    simp only [live, ofEntries, List.mapIdx_concat, List.zipIdx_append, List.filterMap_append]
      at ih ⊢
    rw [ih]
    simp [Handle.nth]

end TypeTable

end StructSketch
