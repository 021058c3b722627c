import StructSketch.Proofs.RecordNames

/-!
# The objects of a sample and the records of its outline

* **`Json.objects`** lists the observed objects of a value, those that are reached without passing
  an item of an array that is not the first; each stands with the name it asks for.
* **`Outline.records`** lists the records of an outline with their members. They are the observed
  objects, key by key (`Outline.keys_records_ofJson`).
* **`Outline.exists_of_get?_schema`**: a record in the schema of an outline is one of them, and the
  table holds its members.
-/

namespace StructSketch

/-! ## Observed objects -/

namespace Json

mutual

/-- The observed objects of a value whose first object asks for the name `base`, an object before
those of its members. -/
def objects (base : String) : Json → List (String × List (String × Json))
  | .null => []
  | .boolean _ => []
  | .number _ => []
  | .string _ => []
  | .array [] => []
  | .array (item :: _) => objects base item
  | .object members => (base, members) :: memberObjects members

/-- The observed objects that the members of an object lead to. -/
def memberObjects : List (String × Json) → List (String × List (String × Json))
  | [] => []
  | (key, value) :: rest => objects (Go.nameOfKey key) value ++ memberObjects rest

end

theorem memberObjects_eq_flatMap (members : List (String × Json)) :
    memberObjects members = members.flatMap fun m => m.2.objects (Go.nameOfKey m.1) := by
  induction members with
  | nil => rfl
  | cons m rest ih => rw [List.flatMap_cons, ← ih]; rfl

end Json

/-! ## Records of an outline -/

namespace Outline

mutual

/-- The records of an outline with their members, a record before those of its members. -/
def records : Outline → List (String × List (String × Outline))
  | .scalar _ => []
  | .array element => element.records
  | .record name members => (name, members) :: memberRecords members

/-- The records that the members of a record lead to. -/
def memberRecords : List (String × Outline) → List (String × List (String × Outline))
  | [] => []
  | (_, outline) :: rest => outline.records ++ memberRecords rest

end

theorem memberRecords_eq_flatMap (members : List (String × Outline)) :
    memberRecords members = members.flatMap fun m => m.2.records := by
  induction members with
  | nil => rfl
  | cons m rest ih => rw [List.flatMap_cons, ← ih]; rfl

theorem records_record (name : String) (members : List (String × Outline)) :
    records (.record name members) =
      (name, members) :: members.flatMap fun m => m.2.records := by
  rw [records, memberRecords_eq_flatMap]

/-- What holds for the records of a record holds for those of each member. -/
theorem mem_records_of_member {name : String} {members : List (String × Outline)}
    {m : String × Outline} (hm : m ∈ members) {r : String × List (String × Outline)}
    (hr : r ∈ m.2.records) : r ∈ records (.record name members) := by
  rw [records_record]
  exact List.mem_cons_of_mem _ (List.mem_flatMap.mpr ⟨m, hm, hr⟩)

theorem keys_ofMembers (used : Finset String) (members : List (String × Json)) :
    (ofMembers used members).1.map Prod.fst = members.map Prod.fst := by
  induction members generalizing used with
  | nil => rfl
  | cons m rest ih =>
    obtain ⟨key, value⟩ := m
    simp only [ofMembers, List.map_cons, ih]

mutual

/-- The records of the outline of a value have the keys of its observed objects. -/
theorem keys_records_ofJson (used : Finset String) (base : String) : (value : Json) →
    ((ofJson used base value).1.records.map fun r => r.2.map Prod.fst) =
      (value.objects base).map fun o => o.2.map Prod.fst
  | .null => rfl
  | .boolean _ => rfl
  | .number _ => rfl
  | .string _ => rfl
  | .array [] => rfl
  | .array (item :: _) => keys_records_ofJson used base item
  | .object members => by
    simp only [ofJson, records, Json.objects, List.map_cons, keys_ofMembers,
      keys_memberRecords_ofMembers]

theorem keys_memberRecords_ofMembers (used : Finset String) :
    (members : List (String × Json)) →
    ((memberRecords (ofMembers used members).1).map fun r => r.2.map Prod.fst) =
      (Json.memberObjects members).map fun o => o.2.map Prod.fst
  | [] => rfl
  | (key, value) :: rest => by
    simp only [ofMembers, memberRecords, Json.memberObjects, List.map_append,
      keys_records_ofJson, keys_memberRecords_ofMembers]

end

/-- What holds for the keys of all observed objects holds for those of all records. -/
theorem forall_keys_records {used : Finset String} {base : String} {value : Json}
    {P : String → Prop} (h : ∀ o ∈ value.objects base, ∀ m ∈ o.2, P m.1) :
    ∀ r ∈ (ofJson used base value).1.records, ∀ m ∈ r.2, P m.1 := by
  intro r hr m hm
  have hkeys : r.2.map Prod.fst ∈ (value.objects base).map fun o => o.2.map Prod.fst := by
    rw [← keys_records_ofJson used]
    exact List.mem_map_of_mem hr
  obtain ⟨o, ho, heq⟩ := List.mem_map.mp hkeys
  have hkey : m.1 ∈ o.2.map Prod.fst := by
    rw [heq]
    exact List.mem_map_of_mem hm
  obtain ⟨n, hn, hname⟩ := List.mem_map.mp hkey
  rw [← hname]
  exact h o ho n hn

/-- The names of the members of a record are among the names of the outline, in their order. -/
theorem memberNames_sublist {o : Outline} {name : String} {members : List (String × Outline)}
    (h : (name, members) ∈ o.records) : (memberNames members).Sublist o.names := by
  induction o using Outline.induct with
  | scalar s => cases h
  | array element ih => exact ih h
  | record name' members' ih =>
    rw [records_record] at h
    rcases List.mem_cons.mp h with h | h
    · cases h
      exact List.sublist_cons_self _ _
    · obtain ⟨m, hm, hmem⟩ := List.mem_flatMap.mp h
      refine ((ih m hm hmem).trans ?_).cons name'
      rw [memberNames_eq_flatMap, List.flatMap_def]
      exact List.sublist_flatten_of_mem (List.mem_map_of_mem hm)

end Outline

/-! ## Records of a schema -/

/-- The keys of the record nodes of a layout are those of the records of its outline. -/
theorem Layout.keys_perm (layout : Layout) :
    ((recordsOf layout.nodes).map fun p => p.2.fields.map Field.key).Perm
      (layout.outline.records.map fun r => r.2.map Prod.fst) := by
  induction layout using Layout.induct with
  | scalar s => exact .nil
  | array handle element ih =>
    rw [recordsOf_nodes_array]
    exact ih
  | record handle name members ih =>
    have hmembers := List.Perm.flatMap_left members ih
    have hkeys : (members.map field).map Field.key =
        (members.map fun m => (m.1, m.2.outline)).map Prod.fst := by
      simp [field]
    rw [recordsOf_nodes_record, outline_record, Outline.records_record, List.map_append,
      List.map_flatMap, List.map_singleton, List.map_cons, List.map_flatMap, List.flatMap_map,
      ← hkeys]
    exact (List.perm_append_singleton _ _).trans (hmembers.cons _)

/-- A record node of a layout is a record of its outline, and a table that holds the layout holds
the record. -/
theorem Layout.exists_of_mem_nodes {layout : Layout} {handle : Handle} {record : Record}
    (h : (handle, Entry.record record) ∈ layout.nodes) :
    ∃ name members, record = ⟨name, members.map Layout.field⟩ ∧
      (name, members.map fun m => (m.1, m.2.outline)) ∈ layout.outline.records ∧
      ∀ table : TypeTable, table.Holds layout →
        table.Holds (.record handle name members) := by
  induction layout using Layout.induct with
  | scalar s => cases h
  | array handle' element ih =>
    rcases List.mem_append.mp h with h | h
    · obtain ⟨name, members, hrecord, hmem, hholds⟩ := ih h
      exact ⟨name, members, hrecord, hmem, fun table ht => hholds table ht.element⟩
    · cases List.mem_singleton.mp h
  | record handle' name' members' ih =>
    rw [nodes_record] at h
    rcases List.mem_append.mp h with h | h
    · obtain ⟨m, hm, h⟩ := List.mem_flatMap.mp h
      obtain ⟨name, members, hrecord, hmem, hholds⟩ := ih m hm h
      refine ⟨name, members, hrecord, ?_, fun table ht => hholds table (ht.member hm)⟩
      rw [outline_record]
      exact Outline.mem_records_of_member
        (List.mem_map_of_mem (f := fun m : String × Layout => (m.1, m.2.outline)) hm) hmem
    · cases List.mem_singleton.mp h
      refine ⟨name', members', rfl, ?_, fun _ ht => ht⟩
      rw [outline_record, Outline.records_record]
      exact List.mem_cons_self

namespace Outline

/-- A record in the schema of an outline is a record of the outline, and its members are held. -/
theorem exists_of_get?_schema {o : Outline} {handle : Handle} {record : Record}
    (h : o.schema.table.get? handle = some (.record record)) :
    ∃ name members, record = ⟨name, members.map Layout.field⟩ ∧
      (name, members.map fun m => (m.1, m.2.outline)) ∈ o.records ∧
      o.schema.table.Holds (.record handle name members) := by
  obtain ⟨name, members, hrecord, hmem, hholds⟩ :=
    Layout.exists_of_mem_nodes (get?_schema_record.mp h)
  rw [outline_laidOut] at hmem
  exact ⟨name, members, hrecord, hmem, hholds _ o.holds_laidOut⟩

end Outline

end StructSketch
