import Mathlib.Data.List.Nodup
import StructSketch.Proofs.ArrayLinks
import StructSketch.Proofs.Preorder

/-!
# Ways to the records of a table

* **`TypeTable.Way`** is a way from a reference to a record: at each record on the way the place of
  the field to take, among the fields by the bytes of their names.
* **`TypeTable.WaysUnique`**: no record is come to in two ways, so what a reference leads to is a
  tree.
* **`WaysUnique.exists_preorder`**: there the plain recursion, which remembers nothing, comes to an
  end and lists no record twice.
-/

namespace StructSketch.TypeTable

/-- `Way table reference places handle`: from the record that the reference comes to, the fields at
some places, one after the other, lead to the record of a handle. -/
inductive Way (table : TypeTable) : Handle → List Nat → Handle → Prop
  | here {reference handle record} : table.targetRecord? reference = some (handle, record) →
      Way table reference [] handle
  | field {reference handle record place field places target} :
      table.targetRecord? reference = some (handle, record) →
      record.sorted[place]? = some field → Way table field.type places target →
      Way table reference (place :: places) target

/-- No record is come to in two ways. -/
def WaysUnique (table : TypeTable) (reference : Handle) : Prop :=
  ∀ handle places places', table.Way reference places handle →
    table.Way reference places' handle → places = places'

section

variable {table : TypeTable} {reference handle : Handle} {places : List Nat}

theorem Way.isRecord (h : table.Way reference places handle) :
    ∃ record, table.get? handle = some (.record record) := by
  induction h with
  | here htarget => exact ⟨_, get?_of_targetRecord? htarget⟩
  | field _ _ _ ih => exact ih

/-- The records on a way, each with the part of the way that leads to it. -/
theorem Way.exists_trail (h : table.Way reference places handle) :
    ∃ trail : List Handle, trail.length = places.length + 1 ∧
      ∀ (n : Nat) (hn : n < trail.length), table.Way reference (places.take n) trail[n] := by
  induction h with
  | @here reference handle record htarget =>
    refine ⟨[handle], rfl, ?_⟩
    intro n hn
    obtain rfl : n = 0 := Nat.lt_one_iff.mp hn
    exact .here htarget
  | @field reference first record place field places target htarget hfield _ ih =>
    obtain ⟨trail, hlength, htrail⟩ := ih
    refine ⟨first :: trail, by simp [hlength], ?_⟩
    intro n hn
    cases n with
    | zero => exact .here htarget
    | succ n => exact .field htarget hfield (htrail n (Nat.lt_of_succ_lt_succ hn))

/-- Where ways are unique, a way comes to a different record at each step, so it is no longer than
the table. -/
theorem WaysUnique.length_lt (h : table.WaysUnique reference)
    (hway : table.Way reference places handle) : places.length < table.size := by
  obtain ⟨trail, hlength, htrail⟩ := hway.exists_trail
  have hnodup : trail.Nodup := by
    rw [List.nodup_iff_injective_getElem]
    rintro ⟨m, hm⟩ ⟨n, hn⟩ heq
    have heq : trail[m] = trail[n] := heq
    have hm' := htrail m hm
    rw [heq] at hm'
    have htake := congrArg List.length (h _ _ _ hm' (htrail n hn))
    simp only [List.length_take] at htake
    exact Fin.ext (by show m = n; omega)
  have hlive : trail ⊆ table.live.map Prod.fst := by
    intro x hx
    obtain ⟨n, hn, rfl⟩ := List.mem_iff_getElem.mp hx
    obtain ⟨record, hrecord⟩ := (htrail n hn).isRecord
    exact List.mem_map_of_mem (mem_live_of_get? hrecord)
  have hle := (List.subperm_of_subset hnodup hlive).length_le
  rw [List.length_map] at hle
  show places.length < table.live.length
  omega

/-! ## The plain recursion where ways are unique -/

/-- The plain recursion from a reference comes to an end, without repetition and along ways. -/
def ListsWays (table : TypeTable) (reference : Handle) : Prop :=
  ∃ handles, table.Preorder [reference] handles ∧ handles.Nodup ∧
    ∀ handle ∈ handles, ∃ places, table.Way reference places handle

/-- No record is come to through fields at different places. -/
def FieldsApart (table : TypeTable) (fields : List Field) : Prop :=
  ∀ (m n : Nat) (field field' : Field) (places places' : List Nat) (handle : Handle),
    fields[m]? = some field → fields[n]? = some field' → table.Way field.type places handle →
    table.Way field'.type places' handle → m = n

theorem FieldsApart.tail {field : Field} {fields : List Field}
    (h : table.FieldsApart (field :: fields)) : table.FieldsApart fields := by
  intro m n field field' places places' handle hm hn hway hway'
  exact Nat.succ.inj (h (m + 1) (n + 1) field field' places places' handle hm hn hway hway')

theorem listsWays_of_targetRecord?_eq_none (h : table.targetRecord? reference = none) :
    table.ListsWays reference := by
  refine ⟨[], .skip h .done, List.nodup_nil, ?_⟩
  intro handle hmem
  cases hmem

/-- Fields that lead apart are listed one after the other. -/
theorem FieldsApart.exists_preorder {fields : List Field} (h : table.FieldsApart fields)
    (hfields : ∀ field ∈ fields, table.ListsWays field.type) :
    ∃ handles, table.Preorder (fields.map (·.type)) handles ∧ handles.Nodup ∧
      ∀ handle ∈ handles, ∃ (n : Nat) (field : Field) (places : List Nat),
        fields[n]? = some field ∧ table.Way field.type places handle := by
  induction fields with
  | nil =>
    refine ⟨[], .done, List.nodup_nil, ?_⟩
    intro handle hmem
    cases hmem
  | cons field fields ih =>
    obtain ⟨hfield, hfields⟩ := List.forall_mem_cons.mp hfields
    obtain ⟨inner, hinner, hinnerNodup, hinnerWays⟩ := hfield
    obtain ⟨rest, hrest, hrestNodup, hrestWays⟩ := ih h.tail hfields
    refine ⟨inner ++ rest, hinner.append hrest, ?_, ?_⟩
    · refine List.nodup_append.mpr ⟨hinnerNodup, hrestNodup, ?_⟩
      rintro x hx _ hx' rfl
      obtain ⟨places, hway⟩ := hinnerWays x hx
      obtain ⟨n, field', places', hn, hway'⟩ := hrestWays x hx'
      have hplace := h 0 (n + 1) field field' places places' x rfl hn hway hway'
      omega
    · intro x hx
      rcases List.mem_append.mp hx with hx | hx
      · obtain ⟨places, hway⟩ := hinnerWays x hx
        exact ⟨0, field, places, rfl, hway⟩
      · obtain ⟨n, field', places', hn, hway'⟩ := hrestWays x hx
        exact ⟨n + 1, field', places', hn, hway'⟩

/-- Where ways are unique, the plain recursion comes to an end, by induction on a bound on the
length of the ways. -/
theorem WaysUnique.listsWays {bound : Nat} (h : table.WaysUnique reference)
    (hbound : ∀ places handle, table.Way reference places handle → places.length < bound) :
    table.ListsWays reference := by
  induction bound generalizing reference with
  | zero =>
    cases htarget : table.targetRecord? reference with
    | none => exact listsWays_of_targetRecord?_eq_none htarget
    | some target => exact absurd (hbound _ _ (.here htarget)) (Nat.not_lt_zero _)
  | succ bound ih =>
    cases htarget : table.targetRecord? reference with
    | none => exact listsWays_of_targetRecord?_eq_none htarget
    | some target =>
      obtain ⟨first, record⟩ := target
      -- a way from a field of the record is a way from the reference, one step longer
      have hfields : ∀ field ∈ record.sorted, table.ListsWays field.type := by
        intro field hfield
        obtain ⟨place, hplace⟩ := List.mem_iff_getElem?.mp hfield
        apply ih
        · intro handle places places' hway hway'
          have heq := h handle _ _ (.field htarget hplace hway) (.field htarget hplace hway')
          exact (List.cons.inj heq).2
        · intro places handle hway
          have hlt := hbound _ _ (.field htarget hplace hway)
          simp only [List.length_cons] at hlt
          omega
      have hapart : table.FieldsApart record.sorted := by
        intro m n field field' places places' handle hm hn hway hway'
        have heq := h handle _ _ (.field htarget hm hway) (.field htarget hn hway')
        exact (List.cons.inj heq).1
      obtain ⟨inner, hinner, hnodup, hways⟩ := hapart.exists_preorder hfields
      refine ⟨first :: (inner ++ []), .enter htarget hinner .done, ?_, ?_⟩
      · rw [List.append_nil]
        refine List.nodup_cons.mpr ⟨?_, hnodup⟩
        -- the way to the first record takes no field, and every way behind it takes one
        intro hmem
        obtain ⟨place, field, places, hplace, hway⟩ := hways first hmem
        cases h first _ _ (.here htarget) (.field htarget hplace hway)
      · rw [List.append_nil]
        intro handle hmem
        rcases List.mem_cons.mp hmem with rfl | hmem
        · exact ⟨[], .here htarget⟩
        · obtain ⟨place, field, places, hplace, hway⟩ := hways handle hmem
          exact ⟨place :: places, .field htarget hplace hway⟩

/-- Where ways are unique, the plain recursion lists each record once. -/
theorem WaysUnique.exists_preorder (h : table.WaysUnique reference) :
    ∃ handles, table.Preorder [reference] handles ∧ handles.Nodup := by
  obtain ⟨handles, hpreorder, hnodup, _⟩ := h.listsWays fun _ _ hway => h.length_lt hway
  exact ⟨handles, hpreorder, hnodup⟩

end

end StructSketch.TypeTable
