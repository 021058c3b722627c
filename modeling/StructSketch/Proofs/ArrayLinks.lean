import Mathlib.Logic.Relation
import StructSketch.Schema.Target

/-!
# Following array links

* **`TypeTable.Links`** follows array links, as many as there are, without regard to the order of
  insertion; **`TypeTable.LeadsTo`** ends at a record.
* **`TypeTable.ArraysDescend`**: every array refers to an entry that was inserted before it.
* In such a table the way through the arrays always comes to an end, and `target?` finds that end:
  it fails exactly if a dead handle is met (**`target?_eq_none_iff`**), and finds a record exactly
  if the links lead there (**`targetRecord?_eq_some_iff`**).
-/

namespace StructSketch.TypeTable

/-- Array links, none or more, lead from a handle to another. -/
def Links (table : TypeTable) : Handle → Handle → Prop :=
  Relation.ReflTransGen fun array element => table.get? array = some (.array element)

/-- Array links, none or more, lead from a handle to a record. -/
def LeadsTo (table : TypeTable) (reference handle : Handle) : Prop :=
  table.Links reference handle ∧ ∃ record, table.get? handle = some (.record record)

/-- Every array refers to an entry that was inserted before it. -/
def ArraysDescend (table : TypeTable) : Prop :=
  ∀ handle element, table.get? handle = some (.array element) → element.serial < handle.serial

variable {table : TypeTable} {reference handle element : Handle} {record : Record}

theorem target?_of_array (hget : table.get? handle = some (.array element))
    (hlt : element.serial < handle.serial) :
    table.target? handle =
      (table.target? element).map fun target => { target with links := target.links + 1 } := by
  rw [target?]
  simp only [hget, if_pos hlt]

/-- An array comes to the record that its element comes to. -/
theorem targetRecord?_of_array (hget : table.get? handle = some (.array element))
    (hlt : element.serial < handle.serial) :
    table.targetRecord? handle = table.targetRecord? element := by
  rw [targetRecord?, targetRecord?, target?_of_array hget hlt]
  cases table.target? element with
  | none => rfl
  | some target =>
    obtain ⟨links, base⟩ := target
    cases base <;> rfl

theorem targetRecord?_of_record (hget : table.get? handle = some (.record record)) :
    table.targetRecord? handle = some (handle, record) := by
  rw [targetRecord?, target?]
  simp only [hget]

/-- What is reached by array links is found where they begin. -/
theorem targetRecord?_eq_of_links (h : table.ArraysDescend)
    (hlinks : table.Links reference handle) :
    table.targetRecord? reference = table.targetRecord? handle := by
  induction hlinks using Relation.ReflTransGen.head_induction_on with
  | refl => rfl
  | head hlink _ ih => rw [targetRecord?_of_array hlink (h _ _ hlink), ih]

/-- A reference comes to the record that its array links lead to. -/
theorem targetRecord?_eq_some_iff (h : table.ArraysDescend) :
    table.targetRecord? reference = some (handle, record) ↔
      table.Links reference handle ∧ table.get? handle = some (.record record) := by
  constructor
  · intro htarget
    refine ⟨?_, get?_of_targetRecord? htarget⟩
    -- the induction follows the links that `target?` takes
    unfold targetRecord? at htarget
    split at htarget
    · rename_i links _ _ hsome
      cases htarget
      fun_induction table.target? reference generalizing links with
      | case1 => cases hsome
      | case2 => cases hsome
      | case3 reference record hget =>
        cases hsome
        exact .refl
      | case4 reference element hget _ ih =>
        obtain ⟨⟨_, _⟩, hrest, heq⟩ := Option.map_eq_some_iff.mp hsome
        cases heq
        exact .head hget (ih _ hrest)
      | case5 => cases hsome
    · cases htarget
  · rintro ⟨hlinks, hget⟩
    rw [targetRecord?_eq_of_links h hlinks, targetRecord?_of_record hget]

theorem leadsTo_iff (h : table.ArraysDescend) :
    table.LeadsTo reference handle ↔
      ∃ record, table.targetRecord? reference = some (handle, record) := by
  simp only [targetRecord?_eq_some_iff h, LeadsTo, exists_and_left]

/-- Following the links of a reference fails exactly if they lead to a dead handle. -/
theorem target?_eq_none_iff (h : table.ArraysDescend) :
    table.target? reference = none ↔
      ∃ dead, table.Links reference dead ∧ table.get? dead = none := by
  constructor
  · intro hnone
    fun_induction table.target? reference with
    | case1 reference hget => exact ⟨reference, .refl, hget⟩
    | case2 => cases hnone
    | case3 => cases hnone
    | case4 reference element hget _ ih =>
      obtain ⟨dead, hlinks, hdead⟩ := ih (Option.map_eq_none_iff.mp hnone)
      exact ⟨dead, .head hget hlinks, hdead⟩
    | case5 reference element hget hge => exact absurd (h _ _ hget) hge
  · rintro ⟨dead, hlinks, hdead⟩
    induction hlinks using Relation.ReflTransGen.head_induction_on with
    | refl =>
      rw [target?]
      simp only [hdead]
    | head hlink _ ih => rw [target?_of_array hlink (h _ _ hlink), ih, Option.map_none]

end StructSketch.TypeTable
