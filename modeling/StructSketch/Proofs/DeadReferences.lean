import StructSketch.Proofs.Rendering
import StructSketch.Proofs.Traversal

/-!
# Writing a schema that was built by hand

A schema that was built by hand can have references to entries that were taken out.

* **`Go.Style.writeBehind`** writes declarations one after the other into one body, and
  **`source_eq_writtenSource`** says that a Go file is what is written so.
* **`declarations_eq_error_iff`**: the declarations cannot be written exactly if a field of a listed
  record comes to nothing.
* **`Schema.MeetsRemoved`** says of a field of a listed record that its array links meet an entry
  that was taken out, and **`Go.Style.declarations_of_built`** that this alone makes writing fail.
-/

namespace StructSketch

/-! ## One body -/

namespace Go.Style

/-- Writes the declarations of some records behind a text, and stops at the first one that cannot
be written. -/
def writeBehind (style : Style) (table : TypeTable) (body : String) :
    List Handle → Except DeadReference String
  | [] => .ok body
  | handle :: handles =>
    match style.declaration table handle with
    | .ok text => style.writeBehind table (body ++ text) handles
    | .error dead => .error dead

/-- The Go file of a schema, its declarations written one after the other into one body. -/
def writtenSource (style : Style) (schema : Schema) : Except DeadReference Source :=
  (style.writeBehind schema.table "" schema.order).map fun body => ⟨style.header, body⟩

/-- Writing into one body gives the declarations in a row. -/
theorem writeBehind_eq (style : Style) (table : TypeTable) (body : String)
    (handles : List Handle) :
    style.writeBehind table body handles =
      (handles.mapM (style.declaration table)).map fun texts => body ++ String.join texts := by
  induction handles generalizing body with
  | nil => simp [writeBehind, Except.map, pure, Except.pure]
  | cons handle handles ih =>
    rw [writeBehind, List.mapM_cons]
    cases style.declaration table handle with
    | error dead => rfl
    | ok text =>
      show style.writeBehind table (body ++ text) handles = _
      rw [ih]
      cases handles.mapM (style.declaration table) with
      | error dead => rfl
      | ok texts =>
        show Except.ok _ = Except.ok _
        simp [String.append_assoc]

theorem source_eq_writtenSource (style : Style) (schema : Schema) :
    style.source schema = style.writtenSource schema := by
  rw [writtenSource, writeBehind_eq, source, declarations]
  cases schema.order.mapM (style.declaration schema.table) with
  | error dead => rfl
  | ok texts =>
    show Except.ok _ = Except.ok _
    simp

end Go.Style

/-! ## What cannot be written -/

theorem map_eq_error_iff {α β ε : Type} {f : α → β} {outcome : Except ε α} {cause : ε} :
    outcome.map f = .error cause ↔ outcome = .error cause := by
  cases outcome with
  | error cause' => simp [Except.map]
  | ok value => simp [Except.map]

/-- A list can be written unless one of its items cannot. -/
theorem mapM_eq_error_iff {α β : Type} {write : α → Except Go.DeadReference β} {items : List α} :
    items.mapM write = .error ⟨⟩ ↔ ∃ item ∈ items, write item = .error ⟨⟩ := by
  induction items with
  | nil => simp [pure, Except.pure]
  | cons item items ih =>
    rw [List.mapM_cons, List.exists_mem_cons_iff, ← ih]
    cases write item with
    | error dead =>
      show Except.error dead = _ ↔ _
      simp
    | ok text =>
      cases items.mapM write with
      | error dead =>
        show Except.error dead = _ ↔ _
        simp
      | ok texts =>
        show Except.ok _ = _ ↔ _
        simp

namespace Go.Style

variable {style : Style} {table : TypeTable} {handle : Handle} {record : Record}

theorem fieldLine_eq_error_iff {field : Field} :
    style.fieldLine table field = .error ⟨⟩ ↔ table.target? field.type = none := by
  rw [fieldLine]
  cases table.target? field.type with
  | none => simp
  | some target => simp

theorem declaration_eq_error_iff (hrecord : table.get? handle = some (.record record)) :
    style.declaration table handle = .error ⟨⟩ ↔
      ∃ field ∈ record.fields, table.target? field.type = none := by
  rw [declaration, hrecord]
  show style.recordDeclaration table record = _ ↔ _
  rw [recordDeclaration, map_eq_error_iff, mapM_eq_error_iff]
  simp only [fieldLine_eq_error_iff, Record.mem_sorted]

/-- The declarations of a schema cannot be written exactly if a field of a listed record comes to
nothing. -/
theorem declarations_eq_error_iff (style : Style) (schema : Schema) :
    style.declarations schema = .error ⟨⟩ ↔
      ∃ handle ∈ schema.order, ∃ record, schema.table.get? handle = some (.record record) ∧
        ∃ field ∈ record.fields, schema.table.target? field.type = none := by
  rw [declarations, mapM_eq_error_iff]
  constructor
  · rintro ⟨handle, hmem, herror⟩
    obtain ⟨record, hrecord⟩ := Schema.isRecord_of_mem_order hmem
    exact ⟨handle, hmem, record, hrecord, (declaration_eq_error_iff hrecord).mp herror⟩
  · rintro ⟨handle, hmem, record, hrecord, hfield⟩
    exact ⟨handle, hmem, (declaration_eq_error_iff hrecord).mpr hfield⟩

end Go.Style

/-! ## What was taken out -/

namespace TypeTable.Orderly

variable {table : TypeTable} {issued removed : List Handle} {reference handle : Handle}

/-- Array links lead from handles that were given out to such handles. -/
theorem issued_of_links (h : table.Orderly issued removed) (hissued : reference ∈ issued)
    (hlinks : table.Links reference handle) : handle ∈ issued := by
  induction hlinks with
  | refl => exact hissued
  | tail _ hlink _ => exact h.known _ _ hlink _ List.mem_cons_self

/-- A handle that was given out comes to nothing exactly if its array links meet one that was taken
out. -/
theorem target?_eq_none_iff (h : table.Orderly issued removed) (hissued : reference ∈ issued) :
    table.target? reference = none ↔ ∃ gone ∈ removed, table.Links reference gone := by
  rw [TypeTable.target?_eq_none_iff h.descends]
  constructor
  · rintro ⟨dead, hlinks, hdead⟩
    exact ⟨dead, (h.get?_eq_none_iff (h.issued_of_links hissued hlinks)).mp hdead, hlinks⟩
  · rintro ⟨gone, hgone, hlinks⟩
    exact ⟨gone, hlinks, (h.get?_eq_none_iff (h.given gone hgone)).mpr hgone⟩

end TypeTable.Orderly

/-- The array links of a field of a listed record, none or more, meet an entry that was taken
out. -/
def Schema.MeetsRemoved (schema : Schema) (removed : List Handle) : Prop :=
  ∃ handle ∈ schema.order, ∃ record, schema.table.get? handle = some (.record record) ∧
    ∃ field ∈ record.fields, ∃ gone ∈ removed, schema.table.Links field.type gone

theorem Go.Style.declarations_eq_error_iff_meetsRemoved {schema : Schema}
    {issued removed : List Handle} (h : schema.table.Orderly issued removed) (style : Go.Style) :
    style.declarations schema = .error ⟨⟩ ↔ schema.MeetsRemoved removed := by
  rw [Go.Style.declarations_eq_error_iff, Schema.MeetsRemoved]
  constructor
  · rintro ⟨handle, hmem, record, hrecord, field, hfield, hnone⟩
    have hissued := h.known _ _ hrecord _ (List.mem_map_of_mem hfield)
    exact ⟨handle, hmem, record, hrecord, field, hfield, (h.target?_eq_none_iff hissued).mp hnone⟩
  · rintro ⟨handle, hmem, record, hrecord, field, hfield, hgone⟩
    have hissued := h.known _ _ hrecord _ (List.mem_map_of_mem hfield)
    exact ⟨handle, hmem, record, hrecord, field, hfield, (h.target?_eq_none_iff hissued).mpr hgone⟩

/-- The declarations of a schema and its Go file are written together or not at all, whatever
operations the table came about by: they fail where a field of a listed record meets an entry that
was taken out. Otherwise the body of the file is the declarations in a row, one for each listed
record. -/
theorem Go.Style.declarations_of_built {schema : Schema} {issued removed : List Handle}
    (h : schema.table.Built issued removed) (style : Go.Style) :
    style.source schema = style.writtenSource schema ∧
      (schema.MeetsRemoved removed →
        style.declarations schema = .error ⟨⟩ ∧ style.source schema = .error ⟨⟩) ∧
      (¬ schema.MeetsRemoved removed →
        ∃ texts, style.declarations schema = .ok texts ∧
          style.source schema = .ok ⟨style.header, String.join texts⟩ ∧
          List.Forall₂ (fun handle text => style.declaration schema.table handle = .ok text)
            schema.order texts) := by
  have hmeets := Go.Style.declarations_eq_error_iff_meetsRemoved h.orderly style
  refine ⟨source_eq_writtenSource style schema, ?_, ?_⟩
  · intro hremoved
    have herror := hmeets.mpr hremoved
    exact ⟨herror, map_eq_error_iff.mpr herror⟩
  · intro hremoved
    cases htexts : style.declarations schema with
    | error dead => exact absurd (hmeets.mp htexts) hremoved
    | ok texts =>
      refine ⟨texts, rfl, ?_, forall₂_of_mapM_eq_ok htexts⟩
      rw [source, htexts]
      rfl

theorem meetsRemoved_circularSchema : circularSchema.MeetsRemoved [⟨1, 1⟩] := by
  have hreaches : circularSchema.table.Reaches ⟨6, 6⟩ ⟨7, 7⟩ :=
    .head ⟨_, rfl, List.mem_cons_self⟩ (.head ⟨_, rfl, List.mem_cons_self⟩ .refl)
  have hmem : (⟨7, 7⟩ : Handle) ∈ circularSchema.order :=
    (Schema.mem_order_iff built_circularTable.orderly.descends).mpr ⟨hreaches, _, rfl⟩
  exact ⟨_, hmem, _, rfl, _, List.mem_cons_of_mem _ List.mem_cons_self, _, List.mem_cons_self,
    .refl⟩

theorem Go.Style.declarations_of_built_circularSchema :
    (∃ issued, circularSchema.table.Built issued [⟨1, 1⟩]) ∧
      circularSchema.MeetsRemoved [⟨1, 1⟩] ∧
      ({} : Go.Style).declarations circularSchema = .error ⟨⟩ ∧
      ({} : Go.Style).source circularSchema = .error ⟨⟩ :=
  ⟨⟨_, built_circularTable⟩, meetsRemoved_circularSchema,
    (declarations_of_built built_circularTable {}).2.1 meetsRemoved_circularSchema⟩

end StructSketch
