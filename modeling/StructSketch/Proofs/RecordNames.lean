import StructSketch.Proofs.HeldLayout

/-!
# Record names are unique

* **`ClaimedNames.Takes used names used'`**: from the names in use `used`, the names `names` are
  taken one after the other, each of them free when its turn comes, and `used'` are in use
  afterwards.
* **`Outline.takes_ofJson`**: naming a value takes the names of its outline. An object takes its
  name before its members are named, so no record within it has that name.
* **`Schema.record?_of_infer?`**: in the schema of an object no two records have one name, so the
  lookup by name finds each record and nothing else.
-/

namespace StructSketch

namespace ClaimedNames

/-- Taking free names one after the other. -/
inductive Takes : Finset String → List String → Finset String → Prop
  | done {used} : Takes used [] used
  | take {used name names used'} : name ∉ used → Takes (insert name used) names used' →
      Takes used (name :: names) used'

theorem Takes.append {used used' used'' : Finset String} {names names' : List String}
    (h : Takes used names used') (h' : Takes used' names' used'') :
    Takes used (names ++ names') used'' := by
  induction h with
  | done => exact h'
  | take hfree _ ih => exact .take hfree (ih h')

theorem Takes.notMem {used used' : Finset String} {names : List String}
    (h : Takes used names used') {name : String} (hname : name ∈ names) : name ∉ used := by
  induction h with
  | done => cases hname
  | take hfree _ ih =>
    rcases List.mem_cons.mp hname with rfl | hname
    · exact hfree
    · exact fun hused => ih hname (Finset.mem_insert_of_mem hused)

theorem Takes.nodup {used used' : Finset String} {names : List String}
    (h : Takes used names used') : names.Nodup := by
  induction h with
  | done => exact List.nodup_nil
  | take _ hrest ih =>
    -- the others are taken while the first is in use
    refine List.nodup_cons.mpr ⟨fun hmem => ?_, ih⟩
    exact hrest.notMem hmem (Finset.mem_insert_self _ _)

end ClaimedNames

/-! ## The names of an outline -/

namespace Outline

mutual

/-- The names of the records of an outline, a record before its members. -/
def names : Outline → List String
  | .scalar _ => []
  | .array element => element.names
  | .record name members => name :: memberNames members

/-- The names of the records that the members of a record lead to. -/
def memberNames : List (String × Outline) → List String
  | [] => []
  | (_, outline) :: rest => outline.names ++ memberNames rest

end

theorem memberNames_eq_flatMap (members : List (String × Outline)) :
    memberNames members = members.flatMap fun m => m.2.names := by
  induction members with
  | nil => rfl
  | cons m rest ih => rw [List.flatMap_cons, ← ih]; rfl

mutual

/-- Naming a value takes the names of its outline. -/
theorem takes_ofJson (used : Finset String) (base : String) : (value : Json) →
    ClaimedNames.Takes used (ofJson used base value).1.names (ofJson used base value).2
  | .null => .done
  | .boolean _ => .done
  | .number _ => .done
  | .string _ => .done
  | .array [] => .done
  | .array (item :: _) => takes_ofJson used base item
  | .object members =>
    .take (ClaimedNames.freeName_notMem used base) (takes_ofMembers _ members)

theorem takes_ofMembers (used : Finset String) : (members : List (String × Json)) →
    ClaimedNames.Takes used (memberNames (ofMembers used members).1) (ofMembers used members).2
  | [] => .done
  | (key, value) :: rest =>
    (takes_ofJson used (Go.nameOfKey key) value).append (takes_ofMembers _ rest)

end

end Outline

/-! ## The names of the records -/

/-- The record nodes of a layout have the names of its outline. -/
theorem Layout.names_perm (layout : Layout) :
    ((recordsOf layout.nodes).map fun p => p.2.name).Perm layout.outline.names := by
  induction layout using Layout.induct with
  | scalar s => exact .nil
  | array handle element ih =>
    rw [recordsOf_nodes_array]
    exact ih
  | record handle name members ih =>
    have hmembers := List.Perm.flatMap_left members ih
    rw [recordsOf_nodes_record, outline_record, Outline.names, Outline.memberNames_eq_flatMap,
      List.map_append, List.map_flatMap, List.flatMap_map]
    exact (List.perm_append_singleton name _).trans (hmembers.cons name)

theorem Outline.nodup_names_ofSample (rootName : String) (sample : Json) :
    (ofSample rootName sample).names.Nodup :=
  (takes_ofJson ∅ rootName sample).nodup

/-- Where an outline has no name twice, a record of its schema is known by its name. -/
theorem Outline.handle_eq_of_name_eq {o : Outline} (hnames : o.names.Nodup)
    {handle handle' : Handle} {record record' : Record}
    (hrecord : o.schema.table.get? handle = some (.record record))
    (hrecord' : o.schema.table.get? handle' = some (.record record'))
    (hname : record.name = record'.name) : handle = handle' := by
  have hnodup : ((recordsOf o.laidOut.nodes).map fun p => p.2.name).Nodup := by
    rw [o.laidOut.names_perm.nodup_iff, o.outline_laidOut]
    exact hnames
  have hmem := mem_recordsOf.mpr (get?_schema_record.mp hrecord)
  have hmem' := mem_recordsOf.mpr (get?_schema_record.mp hrecord')
  exact congrArg Prod.fst (List.inj_on_of_nodup_map hnodup hmem hmem' hname)

/-! ## Lookup by name -/

namespace Schema

theorem live_of_record?_eq_some {schema : Schema} {name : String} {record : Record}
    (h : schema.record? name = some record) :
    record.name = name ∧ ∃ handle, schema.table.get? handle = some (.record record) := by
  obtain ⟨⟨handle, entry⟩, hmem, hfound⟩ := List.exists_of_findSome?_eq_some h
  cases entry with
  | record found =>
    simp only [Entry.record?] at hfound
    split at hfound
    · rename_i hname
      cases hfound
      exact ⟨hname, handle, TypeTable.get?_of_mem_live hmem⟩
    · cases hfound
  | scalar s => cases hfound
  | array element => cases hfound

/-- The lookup fails exactly for the names that no live record has. -/
theorem record?_eq_none_iff {schema : Schema} {name : String} :
    schema.record? name = none ↔
      ∀ handle record, schema.table.get? handle = some (.record record) →
        record.name ≠ name := by
  constructor
  · intro hnone handle record hrecord hname
    have hmiss := List.findSome?_eq_none_iff.mp hnone _ (TypeTable.mem_live_of_get? hrecord)
    simp only [Entry.record?, if_pos hname] at hmiss
    cases hmiss
  · intro hnames
    cases hfound : schema.record? name with
    | none => rfl
    | some record =>
      obtain ⟨hname, handle, hrecord⟩ := live_of_record?_eq_some hfound
      exact absurd hname (hnames handle record hrecord)

/-- In the schema of an object no two records have one name, so the lookup by name finds each
record, and finds nothing for any other name. -/
theorem record?_of_infer? (rootName : String) (members : List (String × Json)) :
    ∃ schema, Schema.infer? rootName (.object members) = .ok schema ∧
      (∀ handle handle' record record',
        schema.table.get? handle = some (.record record) →
        schema.table.get? handle' = some (.record record') →
        record.name = record'.name → handle = handle') ∧
      (∀ handle record, schema.table.get? handle = some (.record record) →
        schema.record? record.name = some record) ∧
      ∀ name, (∀ handle record, schema.table.get? handle = some (.record record) →
        record.name ≠ name) → schema.record? name = none := by
  have hnames := Outline.nodup_names_ofSample rootName (.object members)
  refine ⟨_, Schema.infer?_object rootName members, ?_, ?_, ?_⟩
  · intro handle handle' record record' hrecord hrecord' hname
    exact Outline.handle_eq_of_name_eq hnames hrecord hrecord' hname
  · intro handle record hrecord
    cases hfound : (Outline.ofSample rootName (.object members)).schema.record? record.name with
    | none => exact absurd rfl (record?_eq_none_iff.mp hfound handle record hrecord)
    | some found =>
      -- what is found has the name, and no other record has it
      obtain ⟨hname, handle', hfound⟩ := live_of_record?_eq_some hfound
      obtain rfl := Outline.handle_eq_of_name_eq hnames hfound hrecord hname
      rw [hrecord] at hfound
      cases hfound
      rfl
  · intro name hname
    exact record?_eq_none_iff.mpr hname

end Schema

end StructSketch
