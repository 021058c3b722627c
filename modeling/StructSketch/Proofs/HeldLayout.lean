import StructSketch.Proofs.ArrayLinks
import StructSketch.Proofs.Inference
import StructSketch.Proofs.Preorder

/-!
# Layouts that a table holds

* **`TypeTable.Holds`**: the table has the nodes of a layout, and each of them refers to entries
  that were inserted before it.
* **`Holds.target?`**: a reference to a held layout comes to what the layout says.
* **`Holds.preorder`**: a reference to a held layout leads to the records of the layout, in the
  order of the layout.
* **`Outline.order_schema`**: the declarations of the schema of an outline stand in the order of
  its layout, and they are exactly the records of the schema (`mem_order_schema`).
-/

namespace StructSketch

/-- The table has the nodes of a layout, each behind what it refers to. -/
structure TypeTable.Holds (table : TypeTable) (layout : Layout) : Prop where
  scalar : ∀ s : Scalar, table.get? s.handle = some (.scalar s)
  node : ∀ p ∈ layout.nodes, table.get? p.1 = some p.2
  descends : ∀ p ∈ layout.nodes, ∀ r ∈ p.2.references, r.serial < p.1.serial

/-- What a reference to a layout comes to. -/
def Layout.target : Layout → Target
  | .scalar s => ⟨0, .scalar s⟩
  | .array _ element => { element.target with links := element.target.links + 1 }
  | .record handle name members => ⟨0, .record handle ⟨name, members.map Layout.field⟩⟩

namespace TypeTable.Holds

variable {table : TypeTable} {handle : Handle}

theorem get?_array {element : Layout} (h : table.Holds (.array handle element)) :
    table.get? handle = some (.array element.root) ∧ element.root.serial < handle.serial := by
  have hmem : (handle, Entry.array element.root) ∈ (Layout.array handle element).nodes :=
    List.mem_append_right _ List.mem_cons_self
  exact ⟨h.node _ hmem, h.descends _ hmem _ List.mem_cons_self⟩

theorem get?_record {name : String} {members : List (String × Layout)}
    (h : table.Holds (.record handle name members)) :
    table.get? handle = some (.record ⟨name, members.map Layout.field⟩) :=
  h.node _ (List.mem_append_right _ List.mem_cons_self)

theorem element {element : Layout} (h : table.Holds (.array handle element)) :
    table.Holds element :=
  ⟨h.scalar, fun p hp => h.node p (List.mem_append_left _ hp),
    fun p hp => h.descends p (List.mem_append_left _ hp)⟩

theorem member {name : String} {members : List (String × Layout)}
    (h : table.Holds (.record handle name members)) {m : String × Layout} (hm : m ∈ members) :
    table.Holds m.2 := by
  have hsub : ∀ p ∈ m.2.nodes, p ∈ (Layout.record handle name members).nodes := by
    intro p hp
    rw [Layout.nodes_record]
    exact List.mem_append_left _ (List.mem_flatMap.mpr ⟨m, hm, hp⟩)
  exact ⟨h.scalar, fun p hp => h.node p (hsub p hp), fun p hp => h.descends p (hsub p hp)⟩

/-- A reference to a held layout comes to the target of the layout. -/
theorem target? {layout : Layout} (h : table.Holds layout) :
    table.target? layout.root = some layout.target := by
  induction layout using Layout.induct with
  | scalar s =>
    show table.target? s.handle = _
    rw [TypeTable.target?]
    simp only [h.scalar, Layout.target]
  | array handle element ih =>
    -- the element was inserted before the array, so the link is followed
    obtain ⟨hget, hlt⟩ := h.get?_array
    show table.target? handle = _
    rw [TypeTable.target?_of_array hget hlt, ih h.element]
    rfl
  | record handle name members =>
    show table.target? handle = _
    rw [TypeTable.target?]
    simp only [h.get?_record, Layout.target]

/-- A reference to a held layout leads to the records of the layout in their order. -/
theorem preorder {layout : Layout} (h : table.Holds layout) :
    table.Preorder [layout.root] layout.order := by
  induction layout using Layout.induct with
  | scalar s =>
    refine .skip ?_ .done
    rw [targetRecord?, h.target?]
    rfl
  | array handle element ih =>
    obtain ⟨hget, hlt⟩ := h.get?_array
    exact (ih h.element).congr (targetRecord?_of_array hget hlt)
  | record handle name members ih =>
    have hmembers : ∀ m ∈ byName members, table.Preorder [m.2.root] m.2.order := by
      intro m hm
      have hm := (byName_perm members).mem_iff.mp hm
      exact ih m hm (h.member hm)
    rw [Layout.order_record, ← List.append_nil (List.flatMap _ _)]
    refine .enter (targetRecord?_of_record h.get?_record) ?_ .done
    rw [Layout.sorted_fields, List.map_map]
    -- the sorted members, one after the other
    generalize byName members = sorted at hmembers
    induction sorted with
    | nil => exact .done
    | cons m rest ihrest =>
      obtain ⟨hm, hrest⟩ := List.forall_mem_cons.mp hmembers
      exact hm.append (ihrest hrest)

end TypeTable.Holds

namespace Layout

/-- The handles of the order are those of the record nodes. -/
theorem order_perm (layout : Layout) :
    layout.order.Perm ((recordsOf layout.nodes).map Prod.fst) := by
  induction layout using Layout.induct with
  | scalar s => exact .nil
  | array handle element ih =>
    rw [recordsOf_nodes_array]
    exact ih
  | record handle name members ih =>
    have hsorted : ((byName members).flatMap fun m => m.2.order).Perm
        (members.flatMap fun m => m.2.order) := (byName_perm members).flatMap_right _
    have hmembers := List.Perm.flatMap_left members ih
    -- the nodes end with the record and the order begins with it
    rw [recordsOf_nodes_record, order_record, List.map_append, List.map_flatMap]
    exact ((hsorted.trans hmembers).cons handle).trans
      (List.perm_append_singleton handle _).symm

end Layout

namespace Outline

/-- The schema of an outline holds the layout of the outline. -/
theorem holds_laidOut (o : Outline) : o.schema.table.Holds o.laidOut where
  scalar s := get?_schema.mpr (.inl ⟨s, rfl, rfl⟩)
  node _ hp := get?_schema.mpr (.inr hp)
  descends := descends_layout (Nat.le_refl _) o

/-- An entry of the schema of an outline was inserted behind what it refers to. -/
theorem serial_lt_of_mem_references {o : Outline} {handle r : Handle} {entry : Entry}
    (hlive : o.schema.table.get? handle = some entry) (hr : r ∈ entry.references) :
    r.serial < handle.serial := by
  rcases get?_schema.mp hlive with ⟨s, _, rfl⟩ | hmem
  · cases hr
  · exact o.holds_laidOut.descends _ hmem r hr

theorem arraysDescend_schema (o : Outline) : o.schema.table.ArraysDescend :=
  fun _ _ harray => serial_lt_of_mem_references harray List.mem_cons_self

theorem get?_schema_record {o : Outline} {handle : Handle} {record : Record} :
    o.schema.table.get? handle = some (.record record) ↔
      (handle, .record record) ∈ o.laidOut.nodes := by
  rw [get?_schema]
  refine ⟨?_, .inr⟩
  rintro (⟨s, _, hscalar⟩ | hmem)
  · cases hscalar
  · exact hmem

theorem nodup_order_laidOut (o : Outline) : o.laidOut.order.Nodup := by
  rw [(Layout.order_perm _).nodup_iff]
  exact o.nodup_handles_laidOut.sublist (handles_recordsOf_sublist _)

/-- The declarations of the schema of an outline stand in the order of its layout. -/
theorem order_schema (o : Outline) : o.schema.order = o.laidOut.order :=
  o.holds_laidOut.preorder.order_eq o.nodup_order_laidOut

/-- The declarations of the schema of an outline are exactly its records. -/
theorem mem_order_schema {o : Outline} {handle : Handle} :
    handle ∈ o.schema.order ↔
      ∃ record, o.schema.table.get? handle = some (.record record) := by
  rw [order_schema, (Layout.order_perm _).mem_iff, List.mem_map]
  constructor
  · rintro ⟨⟨_, record⟩, hmem, rfl⟩
    exact ⟨record, get?_schema_record.mpr (mem_recordsOf.mp hmem)⟩
  · rintro ⟨record, hrecord⟩
    exact ⟨_, mem_recordsOf.mpr (get?_schema_record.mp hrecord), rfl⟩

end Outline

end StructSketch
