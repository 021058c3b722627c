import Mathlib.Data.List.Count
import Mathlib.Data.List.Nodup
import Mathlib.Data.List.Perm.Basic
import StructSketch.Schema.Order

/-!
# The plain order of a table

Without the list of what was seen, the walk over a table is a recursion on what each reference
comes to.

* **`TypeTable.Preorder table references handles`** is that recursion: a reference to no record
  is passed over, and a record is followed by what its fields lead to and then by what the other
  references lead to.
* **`Preorder.unique`**: the recursion has one result at most.
* **`Preorder.walk`**: where the recursion comes to no record twice, the walk lists exactly
  what the recursion does, so that is the order of the declarations (`Preorder.order_eq`).
* **`Preorder.sublist_of_field`** and **`Preorder.perm`**: a record comes before those that its
  fields lead to, and each record that is come to is the target of exactly one reference.
-/

namespace StructSketch

theorem Record.mem_sorted {record : Record} {field : Field} :
    field ∈ record.sorted ↔ field ∈ record.fields :=
  List.mem_mergeSort

namespace TypeTable

/-- The records that references lead to, each as often as the references come to it. -/
inductive Preorder (table : TypeTable) : List Handle → List Handle → Prop
  | done : Preorder table [] []
  | skip {reference references handles} : table.targetRecord? reference = none →
      Preorder table references handles → Preorder table (reference :: references) handles
  | enter {reference references handle record inner rest} :
      table.targetRecord? reference = some (handle, record) →
      Preorder table (record.sorted.map (·.type)) inner → Preorder table references rest →
      Preorder table (reference :: references) (handle :: (inner ++ rest))

variable {table : TypeTable}

theorem Preorder.append {references references' handles handles' : List Handle}
    (h : table.Preorder references handles) (h' : table.Preorder references' handles') :
    table.Preorder (references ++ references') (handles ++ handles') := by
  induction h with
  | done => exact h'
  | skip htarget _ ih => exact .skip htarget ih
  | enter htarget hinner _ _ ih =>
    rw [List.cons_append, List.cons_append, List.append_assoc]
    exact .enter htarget hinner ih

/-- References that come to one record have the same orders. -/
theorem Preorder.congr {reference reference' : Handle} {references handles : List Handle}
    (h : table.Preorder (reference :: references) handles)
    (htarget : table.targetRecord? reference' = table.targetRecord? reference) :
    table.Preorder (reference' :: references) handles := by
  cases h with
  | skip hnone hrest => exact .skip (htarget.trans hnone) hrest
  | enter hsome hinner hrest => exact .enter (htarget.trans hsome) hinner hrest

/-- The plain recursion has one result at most. -/
theorem Preorder.unique {references handles handles' : List Handle}
    (h : table.Preorder references handles) (h' : table.Preorder references handles') :
    handles = handles' := by
  induction h generalizing handles' with
  | done =>
    cases h'
    rfl
  | skip hnone _ ih =>
    cases h' with
    | skip _ hrest => exact ih hrest
    | enter hsome _ _ =>
      rw [hnone] at hsome
      cases hsome
  | enter hsome _ _ ihinner ihrest =>
    cases h' with
    | skip hnone _ =>
      rw [hsome] at hnone
      cases hnone
    | enter hsome' hinner hrest =>
      rw [hsome] at hsome'
      cases hsome'
      rw [ihinner hinner, ihrest hrest]

/-- Where no record is come to twice, nor one that is listed already, the walk lists what the
plain recursion does. -/
theorem Preorder.walk {references handles : List Handle} (h : table.Preorder references handles)
    (hnodup : handles.Nodup) {listed : List Handle} (hnew : ∀ x ∈ handles, x ∉ listed)
    (pending : List Handle) :
    table.walk (references ++ pending) listed =
      table.walk pending (handles.reverse ++ listed) := by
  induction h generalizing listed pending with
  | done => rfl
  | skip htarget _ ih =>
    rw [List.cons_append, TypeTable.walk]
    split
    · exact ih hnodup hnew pending
    · rename_i heq
      rw [htarget] at heq
      cases heq
  | @enter reference references handle record inner rest htarget _ _ ihinner ihrest =>
    obtain ⟨hhandle, hnodup⟩ := List.nodup_cons.mp hnodup
    obtain ⟨hinner, hrest, hdisjoint⟩ := List.nodup_append.mp hnodup
    -- what the fields lead to is not listed when they are followed, nor is what the other
    -- references lead to when the fields are done
    have hnewInner : ∀ x ∈ inner, x ∉ handle :: listed := by
      intro x hx hlisted
      rcases List.mem_cons.mp hlisted with rfl | hlisted
      · exact hhandle (List.mem_append_left rest hx)
      · exact hnew x (List.mem_cons_of_mem _ (List.mem_append_left rest hx)) hlisted
    have hnewRest : ∀ x ∈ rest, x ∉ inner.reverse ++ handle :: listed := by
      intro x hx hlisted
      rcases List.mem_append.mp hlisted with hlisted | hlisted
      · exact hdisjoint x (List.mem_reverse.mp hlisted) x hx rfl
      · rcases List.mem_cons.mp hlisted with rfl | hlisted
        · exact hhandle (List.mem_append_right inner hx)
        · exact hnew x (List.mem_cons_of_mem _ (List.mem_append_right inner hx)) hlisted
    rw [List.cons_append, TypeTable.walk]
    split
    · rename_i heq
      rw [htarget] at heq
      cases heq
    · rename_i heq
      rw [htarget] at heq
      cases heq
      rw [if_neg (hnew handle List.mem_cons_self), ihinner hinner hnewInner,
        ihrest hrest hnewRest]
      simp

/-- Without repetition, what the plain recursion lists is the order of the declarations. -/
theorem Preorder.order_eq {root : Handle} {handles : List Handle}
    (h : table.Preorder [root] handles) (hnodup : handles.Nodup) :
    (⟨table, root⟩ : Schema).order = handles := by
  have hwalk := h.walk hnodup (fun _ _ => List.not_mem_nil) []
  -- nothing is pending behind the root, so the walk ends with what it has listed
  rw [List.append_nil, List.append_nil, TypeTable.walk, List.reverse_reverse] at hwalk
  exact hwalk

theorem Preorder.mem_of_reference {references handles : List Handle}
    (h : table.Preorder references handles) {reference handle : Handle} {record : Record}
    (hmem : reference ∈ references)
    (htarget : table.targetRecord? reference = some (handle, record)) : handle ∈ handles := by
  induction h with
  | done => cases hmem
  | skip hnone _ ih =>
    rcases List.mem_cons.mp hmem with rfl | hmem
    · rw [hnone] at htarget
      cases htarget
    · exact ih hmem
  | enter hsome _ _ _ ih =>
    rcases List.mem_cons.mp hmem with rfl | hmem
    · rw [hsome] at htarget
      cases htarget
      exact List.mem_cons_self
    · exact List.mem_cons_of_mem _ (List.mem_append_right _ (ih hmem))

theorem Preorder.head?_eq {reference target : Handle} {found : Record} {handles : List Handle}
    (h : table.Preorder [reference] handles)
    (htarget : table.targetRecord? reference = some (target, found)) :
    handles.head? = some target := by
  cases h with
  | skip hnone _ =>
    rw [hnone] at htarget
    cases htarget
  | enter hsome _ _ =>
    rw [hsome] at htarget
    cases htarget
    rfl

/-- A listed record comes before those that its fields come to. -/
theorem Preorder.sublist_of_field {references handles : List Handle}
    (h : table.Preorder references handles) {handle target : Handle} {record found : Record}
    (hmem : handle ∈ handles) (hrecord : table.get? handle = some (.record record))
    {field : Field} (hfield : field ∈ record.fields)
    (htarget : table.targetRecord? field.type = some (target, found)) :
    [handle, target].Sublist handles := by
  induction h with
  | done => cases hmem
  | skip _ _ ih => exact ih hmem
  | @enter _ _ _ entered inner rest hentered hinner _ ihinner ihrest =>
    rcases List.mem_cons.mp hmem with rfl | hmem
    -- the record that is entered is the one whose field it is, and what the field comes to is
    -- among what its fields lead to
    · obtain rfl : entered = record := by
        have := (get?_of_targetRecord? hentered).symm.trans hrecord
        cases this
        rfl
      have hlisted : target ∈ inner := by
        refine hinner.mem_of_reference ?_ htarget
        exact List.mem_map_of_mem (Record.mem_sorted.mpr hfield)
      exact (List.singleton_sublist.mpr (List.mem_append_left rest hlisted)).cons_cons _
    · refine List.Sublist.cons _ ?_
      rcases List.mem_append.mp hmem with hmem | hmem
      · exact (ihinner hmem).trans (List.sublist_append_left inner rest)
      · exact (ihrest hmem).trans (List.sublist_append_right inner rest)

/-- The records that references come to, one for each reference to a record. -/
def targets (table : TypeTable) (references : List Handle) : List Handle :=
  references.filterMap fun reference => (table.targetRecord? reference).map Prod.fst

/-- The fields of the records under some handles. -/
def fieldsOf (table : TypeTable) (handles : List Handle) : List Field :=
  handles.flatMap fun handle =>
    match table.get? handle with
    | some (.record record) => record.fields
    | _ => []

theorem targets_cons_none {reference : Handle} (h : table.targetRecord? reference = none)
    (references : List Handle) :
    table.targets (reference :: references) = table.targets references :=
  List.filterMap_cons_none (by rw [h]; rfl)

theorem targets_cons_some {reference handle : Handle} {record : Record}
    (h : table.targetRecord? reference = some (handle, record)) (references : List Handle) :
    table.targets (reference :: references) = handle :: table.targets references :=
  List.filterMap_cons_some (by rw [h]; rfl)

theorem targets_append (references references' : List Handle) :
    table.targets (references ++ references') =
      table.targets references ++ table.targets references' :=
  List.filterMap_append

theorem fieldsOf_append (handles handles' : List Handle) :
    table.fieldsOf (handles ++ handles') = table.fieldsOf handles ++ table.fieldsOf handles' :=
  List.flatMap_append

theorem fieldsOf_cons {handle : Handle} {record : Record}
    (h : table.get? handle = some (.record record)) (handles : List Handle) :
    table.fieldsOf (handle :: handles) = record.fields ++ table.fieldsOf handles := by
  simp [fieldsOf, h]

/-- The listed records are the targets of the references and of the fields of the listed records,
each as often as the other. -/
theorem Preorder.perm {references handles : List Handle}
    (h : table.Preorder references handles) :
    handles.Perm
      (table.targets references ++ table.targets ((table.fieldsOf handles).map (·.type))) := by
  induction h with
  | done => exact .nil
  | skip htarget _ ih => rwa [targets_cons_none htarget]
  | @enter reference references handle record inner rest htarget _ _ ihinner ihrest =>
    have hfields : (table.targets (record.sorted.map (·.type))).Perm
        (table.targets (record.fields.map (·.type))) :=
      ((List.mergeSort_perm _ _).map _).filterMap _
    rw [targets_cons_some htarget, fieldsOf_cons (get?_of_targetRecord? htarget),
      fieldsOf_append, List.map_append, List.map_append, targets_append, targets_append]
    -- counted, each record is entered once here and otherwise within one of the two orders
    rw [List.perm_iff_count] at *
    intro x
    have hinner := ihinner x
    have hrest := ihrest x
    have hrecord := hfields x
    simp only [List.cons_append, List.count_cons, List.count_append] at *
    omega

/-- Without repetition, each listed record but the first is what one field of the listed records
comes to. -/
theorem Preorder.countP_fieldsOf {reference target : Handle} {found : Record}
    {handles : List Handle} (h : table.Preorder [reference] handles)
    (htarget : table.targetRecord? reference = some (target, found)) (hnodup : handles.Nodup)
    {handle : Handle} (hmem : handle ∈ handles) (hother : handle ≠ target) :
    (table.fieldsOf handles).countP
      (fun field => (table.targetRecord? field.type).map Prod.fst == some handle) = 1 := by
  -- the listed records are the first one and what the fields come to
  have hcount := h.perm.count_eq handle
  rw [List.count_eq_one_of_mem hnodup hmem, targets_cons_some htarget, List.count_append,
    List.count_cons_of_ne hother.symm] at hcount
  have hfields : (table.targets ((table.fieldsOf handles).map (·.type))).count handle = 1 := by
    rw [hcount]
    exact (Nat.zero_add _).symm
  rw [targets, List.count_filterMap, List.countP_map] at hfields
  exact hfields

end TypeTable

end StructSketch
