import Mathlib.Data.List.Count
import StructSketch.Proofs.HeldLayout
import StructSketch.Proofs.WellKeyed

/-!
# Inferred schemas are trees

* **`Schema.IsTree`**: references are live and lead to entries inserted before, every array and
  every record but the root is referred to once, and scalars stand under their interned handles.
* **`Layout.count_root_references`**: the root of a layout and the references of its nodes come
  to each node once.
* **`Json.observed`** are the values that inference looks at, and **`Outline.length_nodes`**
  counts the nodes by them.
* **`Schema.ofFields_of_infer?`**: the fields of a record have distinct keys, so that no field
  takes the place of another one.
* **`Schema.isTree_of_infer?`**: the schema of every object is a tree that has an entry for each
  observed array and object, and each of its records is declared once.
-/

namespace StructSketch

/-- The references of all entries of a table, each as often as it is held. -/
def TypeTable.references (table : TypeTable) : List Handle :=
  table.live.flatMap fun p => p.2.references

/-- The arrays and records of a schema are a tree over the interned scalars. -/
structure Schema.IsTree (schema : Schema) : Prop where
  /-- What an entry refers to is live, and was inserted before it. -/
  descends : ∀ handle entry, schema.table.get? handle = some entry →
    ∀ r ∈ entry.references, (schema.table.get? r).isSome ∧ r.serial < handle.serial
  /-- A scalar stands under its interned handle and nowhere else. -/
  interned : ∀ handle scalar,
    schema.table.get? handle = some (.scalar scalar) ↔ handle = scalar.handle
  /-- Every array and every record but the root is referred to once. -/
  once : ∀ handle entry, schema.table.get? handle = some entry →
    (∀ scalar, entry ≠ .scalar scalar) → handle ≠ schema.root →
      schema.table.references.count handle = 1
  /-- Nothing refers to the root. -/
  unreferred : schema.root ∉ schema.table.references
  /-- The root is a record. -/
  root : ∃ record, schema.table.get? schema.root = some (.record record)
  /-- The root is inserted last. -/
  last : ∀ handle entry, schema.table.get? handle = some entry → handle ≠ schema.root →
    handle.serial < schema.root.serial

/-! ## References within a layout -/

theorem Layout.scalar_notMem_nodes {handle : Handle} {s : Scalar} (layout : Layout) :
    (handle, Entry.scalar s) ∉ layout.nodes := by
  induction layout using Layout.induct with
  | scalar s => exact List.not_mem_nil
  | array node element ih =>
    intro hmem
    rcases List.mem_append.mp hmem with hmem | hmem
    · exact ih hmem
    · cases List.mem_singleton.mp hmem
  | record node name members ih =>
    intro hmem
    rw [nodes_record] at hmem
    rcases List.mem_append.mp hmem with hmem | hmem
    · obtain ⟨m, hm, hmem⟩ := List.mem_flatMap.mp hmem
      exact ih m hm hmem
    · cases List.mem_singleton.mp hmem

/-- Where the root and the references of each member come to its nodes once, those of all members
together do. -/
theorem Layout.count_member_references {handle : Handle} {members : List (String × Layout)}
    (h : ∀ m ∈ members, (m.2.root :: m.2.nodes.flatMap fun p => p.2.references).count handle =
      (m.2.nodes.map Prod.fst).count handle) :
    ((members.map fun m => m.2.root) ++
      (members.flatMap fun m => m.2.nodes).flatMap fun p => p.2.references).count handle =
        ((members.flatMap fun m => m.2.nodes).map Prod.fst).count handle := by
  induction members with
  | nil => rfl
  | cons m rest ih =>
    obtain ⟨hm, hrest⟩ := List.forall_mem_cons.mp h
    have hrest := ih hrest
    simp only [List.map_cons, List.flatMap_cons, List.flatMap_append, List.map_append,
      List.count_cons, List.count_append, List.cons_append] at hm hrest ⊢
    omega

/-- The root and the references of the nodes come to each node once, and to no other array or
record. -/
theorem Layout.count_root_references {handle : Handle} (h : ∀ s : Scalar, handle ≠ s.handle)
    (layout : Layout) :
    (layout.root :: layout.nodes.flatMap fun p => p.2.references).count handle =
      (layout.nodes.map Prod.fst).count handle := by
  induction layout using Layout.induct with
  | scalar s =>
    exact List.count_eq_zero_of_not_mem fun hmem => h s (List.mem_singleton.mp hmem)
  | array node element ih =>
    -- the array refers to the root of its element
    show (node :: (array node element).nodes.flatMap fun p => p.2.references).count handle = _
    simp only [nodes, Entry.references, List.flatMap_append, List.flatMap_singleton,
      List.map_append, List.map_singleton, List.count_cons, List.count_append,
      List.count_nil] at ih ⊢
    omega
  | record node name members ih =>
    -- the record refers to the roots of its members
    have hmembers := count_member_references ih
    show (node :: (record node name members).nodes.flatMap fun p => p.2.references).count handle = _
    rw [nodes_record]
    simp only [references_fields, List.flatMap_append, List.flatMap_singleton,
      List.map_append, List.map_singleton, List.count_cons, List.count_append,
      List.count_nil] at hmembers ⊢
    omega

namespace Outline

theorem references_schema (o : Outline) :
    o.schema.table.references = o.laidOut.nodes.flatMap fun p => p.2.references := by
  rw [TypeTable.references, live_schema, List.flatMap_append, List.flatMap_map]
  simp [Entry.references]

theorem ne_handle_of_mem {o : Outline} {handle : Handle} {entry : Entry}
    (hmem : (handle, entry) ∈ o.laidOut.nodes) (s : Scalar) : handle ≠ s.handle := by
  rintro rfl
  exact absurd s.place_lt (Nat.not_lt.mpr (scalars_le_of_mem hmem))

/-- The root and the references come to each node once. -/
theorem count_root_references_of_mem {o : Outline} {handle : Handle} {entry : Entry}
    (hmem : (handle, entry) ∈ o.laidOut.nodes) :
    (o.schema.root :: o.schema.table.references).count handle = 1 := by
  rw [references_schema]
  refine (Layout.count_root_references (ne_handle_of_mem hmem) o.laidOut).trans ?_
  exact List.count_eq_one_of_mem o.nodup_handles_laidOut (List.mem_map_of_mem hmem)

theorem isSome_get?_of_mem_references {o : Outline} {r : Handle}
    (hr : r ∈ o.schema.table.references) : (o.schema.table.get? r).isSome := by
  by_cases hscalar : ∃ s : Scalar, r = s.handle
  · obtain ⟨s, rfl⟩ := hscalar
    rw [o.holds_laidOut.scalar s]
    rfl
  -- any other reference is counted, so it is one of the nodes
  · have hcount := Layout.count_root_references (fun s h => hscalar ⟨s, h⟩) o.laidOut
    rw [references_schema] at hr
    have hpos := List.count_pos_iff.mpr (List.mem_cons_of_mem o.laidOut.root hr)
    rw [hcount] at hpos
    obtain ⟨p, hp, rfl⟩ := List.mem_map.mp (List.count_pos_iff.mp hpos)
    rw [o.holds_laidOut.node p hp]
    rfl

theorem root_mem_nodes (name : String) (members : List (String × Outline)) :
    ∃ record, ((Outline.record name members).schema.root, Entry.record record) ∈
      (Outline.record name members).laidOut.nodes :=
  ⟨_, List.mem_append_right _ List.mem_cons_self⟩

/-- The root of a record has the greatest number. -/
theorem serial_lt_root {name : String} {members : List (String × Outline)} {handle : Handle}
    {entry : Entry} (hlive : (Outline.record name members).schema.table.get? handle = some entry)
    (hroot : handle ≠ (Outline.record name members).schema.root) :
    handle.serial < (Outline.record name members).schema.root.serial := by
  have hnext := layout_next Scalar.all.length (.record name members)
  have hlast : (Outline.record name members).schema.root.serial + 1 =
      ((Outline.record name members).layout Scalar.all.length).2 := rfl
  rcases get?_schema.mp hlive with ⟨s, rfl, _⟩ | hmem
  · obtain ⟨record, hrecord⟩ := root_mem_nodes name members
    exact Nat.lt_of_lt_of_le s.place_lt (scalars_le_of_mem hrecord)
  · have hhandle := List.mem_map_of_mem (f := Prod.fst) hmem
    rw [handles_laidOut] at hhandle
    obtain ⟨number, hnumber, rfl⟩ := List.mem_map.mp hhandle
    have hlt := (List.mem_range'_1.mp hnumber).2
    have hne : number ≠ (Outline.record name members).schema.root.serial := by
      intro heq
      exact hroot (congrArg Handle.nth heq)
    show number < _
    unfold laidOut at hlt
    omega

/-- What an entry refers to is live, and was inserted before the entry. -/
theorem descends_schema {o : Outline} {handle : Handle} {entry : Entry}
    (hlive : o.schema.table.get? handle = some entry) {r : Handle} (hr : r ∈ entry.references) :
    (o.schema.table.get? r).isSome ∧ r.serial < handle.serial := by
  have hreferences : r ∈ o.schema.table.references :=
    List.mem_flatMap.mpr ⟨_, TypeTable.mem_live_of_get? hlive, hr⟩
  exact ⟨isSome_get?_of_mem_references hreferences, serial_lt_of_mem_references hlive hr⟩

theorem get?_schema_scalar {o : Outline} {handle : Handle} {s : Scalar} :
    o.schema.table.get? handle = some (.scalar s) ↔ handle = s.handle := by
  constructor
  · intro hlive
    rcases get?_schema.mp hlive with ⟨s', hhandle, heq⟩ | hmem
    · cases heq
      exact hhandle
    · exact absurd hmem (Layout.scalar_notMem_nodes _)
  · rintro rfl
    exact o.holds_laidOut.scalar s

/-- The schema of a record is a tree. -/
theorem isTree_schema (name : String) (members : List (String × Outline)) :
    (Outline.record name members).schema.IsTree where
  descends _ _ hlive _ hr := descends_schema hlive hr
  interned _ _ := get?_schema_scalar
  once handle entry hlive hentry hroot := by
    rcases get?_schema.mp hlive with ⟨s, _, heq⟩ | hmem
    · exact absurd heq (hentry s)
    · have hcount := count_root_references_of_mem hmem
      rwa [List.count_cons_of_ne hroot.symm] at hcount
  unreferred := by
    obtain ⟨record, hrecord⟩ := root_mem_nodes name members
    have hcount := count_root_references_of_mem hrecord
    rw [List.count_cons_self] at hcount
    -- the root comes to its node, so no reference is left for it
    exact List.count_eq_zero.mp (by omega)
  root := by
    obtain ⟨record, hrecord⟩ := root_mem_nodes name members
    exact ⟨record, get?_schema_record.mpr hrecord⟩
  last _ _ := serial_lt_root

end Outline

/-! ## What inference looks at -/

namespace Json

mutual

/-- The values that inference looks at: a value, and of an array the first item alone. -/
def observed : Json → List Json
  | .null => [.null]
  | .boolean value => [.boolean value]
  | .number literal => [.number literal]
  | .string text => [.string text]
  | .array [] => [.array []]
  | .array (item :: rest) => .array (item :: rest) :: item.observed
  | .object members => .object members :: observedMembers members

/-- The values that inference looks at in the members of an object. -/
def observedMembers : List (String × Json) → List Json
  | [] => []
  | (_, value) :: rest => value.observed ++ observedMembers rest

end

/-- How many values of a kind are among some values. -/
def countKind (kind : Kind) (values : List Json) : Nat := (values.map Json.kind).count kind

end Json

namespace Outline

mutual

/-- The nodes of the outline of a value are its observed arrays and objects. -/
theorem length_nodes (used : Finset String) (base : String) (next : Nat) : (value : Json) →
    ((ofJson used base value).1.layout next).1.nodes.length =
      Json.countKind .array value.observed + Json.countKind .object value.observed
  | .null => rfl
  | .boolean _ => rfl
  | .number _ => rfl
  | .string _ => rfl
  | .array [] => rfl
  | .array (item :: rest) => by
    have hitem := length_nodes used base next item
    simp only [Json.countKind, ofJson, layout, Layout.nodes, Json.observed, Json.kind,
      List.length_append, List.length_singleton, List.map_cons, List.count_cons, BEq.rfl,
      beq_iff_eq, reduceCtorEq, if_true, if_false] at hitem ⊢
    omega
  | .object members => by
    have hmembers := length_memberNodes (insert (ClaimedNames.freeName used base) used) next
      members
    simp only [Json.countKind, ofJson, layout, Layout.nodes, Json.observed, Json.kind,
      List.length_append, List.length_singleton, List.map_cons, List.count_cons, BEq.rfl,
      beq_iff_eq, reduceCtorEq, if_true, if_false] at hmembers ⊢
    omega

theorem length_memberNodes (used : Finset String) (next : Nat) :
    (members : List (String × Json)) →
    (Layout.memberNodes (layoutMembers next (ofMembers used members).1).1).length =
      Json.countKind .array (Json.observedMembers members) +
        Json.countKind .object (Json.observedMembers members)
  | [] => rfl
  | (key, value) :: rest => by
    have hvalue := length_nodes used (Go.nameOfKey key) next value
    have hrest := length_memberNodes (ofJson used (Go.nameOfKey key) value).2
      ((ofJson used (Go.nameOfKey key) value).1.layout next).2 rest
    simp only [Json.countKind, ofMembers, layoutMembers, Layout.memberNodes,
      Json.observedMembers, List.length_append, List.map_append, List.count_append]
      at hvalue hrest ⊢
    omega

end

/-! ## The keys of the fields -/

theorem keys_layoutMembers (used : Finset String) (next : Nat) (members : List (String × Json)) :
    (((layoutMembers next (ofMembers used members).1).1.map Layout.field).map Field.key) =
      members.map Prod.fst := by
  induction members generalizing used next with
  | nil => rfl
  | cons m rest ih => exact congrArg (List.cons m.1) (ih _ _)

mutual

/-- Where no object has a key twice, no record has. -/
theorem nodup_keys_of_mem_nodes {used : Finset String} {base : String} {next : Nat}
    {handle : Handle} {record : Record} : (value : Json) → value.WellKeyed →
    (handle, Entry.record record) ∈ ((ofJson used base value).1.layout next).1.nodes →
    (record.fields.map Field.key).Nodup
  | .null, _ => by
    intro hmem
    cases hmem
  | .boolean _, _ => by
    intro hmem
    cases hmem
  | .number _, _ => by
    intro hmem
    cases hmem
  | .string _, _ => by
    intro hmem
    cases hmem
  | .array [], _ => by
    intro hmem
    cases List.mem_singleton.mp hmem
  | .array (item :: _), h => by
    cases h with | array hitems
    intro hmem
    rcases List.mem_append.mp hmem with hmem | hmem
    · exact nodup_keys_of_mem_nodes item (hitems item List.mem_cons_self) hmem
    · cases List.mem_singleton.mp hmem
  | .object members, h => by
    cases h with | object hkeys hvalues
    intro hmem
    rcases List.mem_append.mp hmem with hmem | hmem
    · exact nodup_keys_of_mem_memberNodes members hvalues hmem
    · cases List.mem_singleton.mp hmem
      rwa [keys_layoutMembers]

theorem nodup_keys_of_mem_memberNodes {used : Finset String} {next : Nat} {handle : Handle}
    {record : Record} : (members : List (String × Json)) →
    (∀ member ∈ members, member.2.WellKeyed) →
    (handle, Entry.record record) ∈
      Layout.memberNodes (layoutMembers next (ofMembers used members).1).1 →
    (record.fields.map Field.key).Nodup
  | [], _ => by
    intro hmem
    cases hmem
  | (_, value) :: rest, h => by
    intro hmem
    obtain ⟨hvalue, hrest⟩ := List.forall_mem_cons.mp h
    rcases List.mem_append.mp hmem with hmem | hmem
    · exact nodup_keys_of_mem_nodes value hvalue hmem
    · exact nodup_keys_of_mem_memberNodes rest hrest hmem

end

theorem size_schema (o : Outline) : o.schema.table.size = 5 + o.laidOut.nodes.length := by
  rw [TypeTable.size, live_schema, List.length_append, List.length_map]
  rfl

end Outline

/-- Where no object of a sample has a key twice, putting the fields of a record one after the
other, each in the place of one of the same key, would give the record as it was inferred. -/
theorem Schema.ofFields_of_infer? {rootName : String} {members : List (String × Json)}
    {schema : Schema} {handle : Handle} {record : Record}
    (hkeys : (Json.object members).WellKeyed)
    (hschema : Schema.infer? rootName (.object members) = .ok schema)
    (hrecord : schema.table.get? handle = some (.record record)) :
    Record.ofFields record.name record.fields = record := by
  rw [Schema.infer?_object] at hschema
  cases hschema
  have hnodup := Outline.nodup_keys_of_mem_nodes _ hkeys
    (Outline.get?_schema_record.mp hrecord)
  rw [Record.ofFields, Keyed.ofList_of_nodup hnodup]

/-- The schema of an object is a tree with an entry for each scalar and for each array and object
that inference looks at, and its records are declared once each. -/
theorem Schema.isTree_of_infer? (rootName : String) (members : List (String × Json)) :
    ∃ schema, Schema.infer? rootName (.object members) = .ok schema ∧ schema.IsTree ∧
      schema.table.size =
        5 + Json.countKind .array (Json.object members).observed +
          Json.countKind .object (Json.object members).observed ∧
      schema.order.Nodup ∧
      ∀ handle, handle ∈ schema.order ↔
        ∃ record, schema.table.get? handle = some (.record record) := by
  refine ⟨_, Schema.infer?_object rootName members, Outline.isTree_schema _ _, ?_, ?_, ?_⟩
  · have hnodes := Outline.length_nodes ∅ rootName Scalar.all.length (.object members)
    rw [Outline.size_schema, Nat.add_assoc, ← hnodes]
    rfl
  · rw [Outline.order_schema]
    exact Outline.nodup_order_laidOut _
  · intro handle
    exact Outline.mem_order_schema

end StructSketch
