import StructSketch.Proofs.HeldLayout

/-!
# What is written for a held layout

The writer looks every reference up in the table. For a layout that the table holds it finds what
the outline says, so it writes what the outline is written as.

* **`Holds.fieldLine`**, **`Holds.fieldLines`** and **`Holds.recordDeclaration`**: a field, the
  fields of a record and a record of a held layout are written like those of the outline.
* **`Holds.declarations`**: the records of a held layout are written like the outline.
* **`Outline.declarations_schema`**: so is the schema of an outline, in every style, and writing
  it never fails.
-/

namespace StructSketch

/-! ## Writing lists -/

section

variable {α β γ ε : Type}

/-- Where every item can be written, the list is written item by item. -/
theorem mapM_eq_ok_map {write : α → Except ε β} {f : α → β} {items : List α}
    (h : ∀ a ∈ items, write a = .ok (f a)) : items.mapM write = .ok (items.map f) := by
  induction items with
  | nil => rfl
  | cons a rest ih =>
    obtain ⟨ha, hrest⟩ := List.forall_mem_cons.mp h
    rw [List.mapM_cons, ha, ih hrest]
    rfl

/-- Lists that can be written one by one can be written in a row. -/
theorem mapM_flatMap_eq_ok {write : α → Except ε β} {f : γ → List α} {g : γ → List β}
    {groups : List γ} (h : ∀ c ∈ groups, (f c).mapM write = .ok (g c)) :
    (groups.flatMap f).mapM write = .ok (groups.flatMap g) := by
  induction groups with
  | nil => rfl
  | cons c rest ih =>
    obtain ⟨hc, hrest⟩ := List.forall_mem_cons.mp h
    rw [List.flatMap_cons, List.mapM_append, hc, ih hrest]
    rfl

/-- What is written for a list can be written for each of its items. -/
theorem forall₂_of_mapM_eq_ok {write : α → Except ε β} {items : List α}
    {written : List β} (h : items.mapM write = .ok written) :
    List.Forall₂ (fun item text => write item = .ok text) items written := by
  induction items generalizing written with
  | nil =>
    cases h
    exact .nil
  | cons item rest ih =>
    rw [List.mapM_cons] at h
    cases hitem : write item with
    | error cause =>
      rw [hitem] at h
      cases h
    | ok text =>
      rw [hitem] at h
      cases hrest : rest.mapM write with
      | error cause =>
        rw [hrest] at h
        cases h
      | ok texts =>
        rw [hrest] at h
        cases h
        exact .cons hitem (ih hrest)

end

/-! ## Types and lines -/

namespace Layout

theorem targetType_target (layout : Layout) :
    Go.targetType layout.target = layout.outline.type := by
  induction layout using Layout.induct with
  | scalar s => rfl
  | array handle element ih =>
    rw [outline, Outline.type, ← ih]
    simp [target, Go.targetType, List.replicate_succ, String.append_assoc]
  | record handle name members => rfl

theorem fieldDeclaration_target (key : String) (layout : Layout) :
    Go.fieldDeclaration (Go.nameOfKey key) layout.target = layout.outline.declared key := by
  have htype := layout.targetType_target
  cases layout with
  | scalar s => rfl
  | array handle element =>
    show Go.nameOfKey key ++ " " ++ Go.targetType (array handle element).target =
      Go.nameOfKey key ++ " " ++ (array handle element).outline.type
    rw [htype]
  | record handle name members => rfl

end Layout

namespace TypeTable.Holds

variable {table : TypeTable} {handle : Handle} {name : String}
  {members : List (String × Layout)}

theorem fieldLine {m : String × Layout} (h : table.Holds m.2) (style : Go.Style) :
    style.fieldLine table (Layout.field m) =
      .ok (Outline.line style.indentation.text (m.1, m.2.outline)) := by
  simp only [Go.Style.fieldLine, Layout.field, h.target?, Layout.fieldDeclaration_target,
    Outline.line]

/-- The fields of a held record are written line by line like the members of the outline. -/
theorem fieldLines (h : table.Holds (.record handle name members)) (style : Go.Style) :
    (⟨name, members.map Layout.field⟩ : Record).sorted.mapM (style.fieldLine table) =
      .ok ((byName (members.map fun m => (m.1, m.2.outline))).map
        (Outline.line style.indentation.text)) := by
  rw [Layout.sorted_fields, List.mapM_map, byName_map, List.map_map]
  refine mapM_eq_ok_map fun m hm => ?_
  exact (h.member ((byName_perm members).mem_iff.mp hm)).fieldLine style

theorem recordDeclaration (h : table.Holds (.record handle name members)) (style : Go.Style) :
    style.recordDeclaration table ⟨name, members.map Layout.field⟩ =
      .ok (Outline.block style.indentation.text name
        (members.map fun m => (m.1, m.2.outline))) := by
  rw [Go.Style.recordDeclaration, h.fieldLines, Outline.block]
  rfl

/-- The records of a layout are written like the outline. -/
theorem declarations {layout : Layout} (h : table.Holds layout) (style : Go.Style) :
    layout.order.mapM (style.declaration table) =
      .ok (layout.outline.blocks style.indentation.text) := by
  induction layout using Layout.induct with
  | scalar s => rfl
  | array handle element ih => exact ih h.element
  | record handle name members ih =>
    have hrecord : style.declaration table handle =
        .ok (Outline.block style.indentation.text name
          (members.map fun m => (m.1, m.2.outline))) := by
      rw [Go.Style.declaration, h.get?_record]
      exact h.recordDeclaration style
    -- the declarations of the members follow, each a list of its own
    have hmembers : ∀ m ∈ byName members, m.2.order.mapM (style.declaration table) =
        .ok (m.2.outline.blocks style.indentation.text) := by
      intro m hm
      have hm := (byName_perm members).mem_iff.mp hm
      exact ih m hm (h.member hm)
    rw [Layout.order_record, List.mapM_cons, hrecord, mapM_flatMap_eq_ok hmembers,
      Layout.outline_record, Outline.blocks_record, byName_map, List.flatMap_map]
    rfl

end TypeTable.Holds

/-- The schema of an outline is written like the outline. -/
theorem Outline.declarations_schema (o : Outline) (style : Go.Style) :
    style.declarations o.schema = .ok (o.blocks style.indentation.text) := by
  rw [Go.Style.declarations, o.order_schema, o.holds_laidOut.declarations style,
    o.outline_laidOut]

/-- A text is the declaration of the record under a handle, with a line for each field. -/
def Go.Style.Declares (style : Go.Style) (table : TypeTable) (handle : Handle)
    (text : String) : Prop :=
  ∃ record lines, table.get? handle = some (.record record) ∧
    record.sorted.mapM (style.fieldLine table) = .ok lines ∧
    text = "type " ++ record.name ++ " struct \x7b\n" ++ String.join lines ++ "\x7d\n"

theorem Go.Style.declares_of_declaration {style : Go.Style} {table : TypeTable}
    {handle : Handle} {record : Record} {text : String}
    (hrecord : table.get? handle = some (.record record))
    (h : style.declaration table handle = .ok text) : style.Declares table handle text := by
  rw [declaration, hrecord] at h
  simp only [recordDeclaration] at h
  cases hlines : record.sorted.mapM (style.fieldLine table) with
  | error dead =>
    rw [hlines] at h
    cases h
  | ok lines =>
    rw [hlines] at h
    cases h
    exact ⟨record, lines, hrecord, hlines, rfl⟩

/-- The declarations of an outline are those of its records, in their order. -/
theorem Outline.declares_schema (o : Outline) (style : Go.Style) :
    List.Forall₂ (style.Declares o.schema.table) o.schema.order
      (o.blocks style.indentation.text) := by
  have hrecords : ∀ handle ∈ o.schema.order,
      ∃ record, o.schema.table.get? handle = some (.record record) :=
    fun _ => mem_order_schema.mp
  have hwritten := forall₂_of_mapM_eq_ok (o.declarations_schema style)
  refine ((List.forall₂_and_left _ _).mpr ⟨hrecords, hwritten⟩).imp ?_
  rintro handle text ⟨⟨record, hrecord⟩, htext⟩
  exact Go.Style.declares_of_declaration hrecord htext

end StructSketch
