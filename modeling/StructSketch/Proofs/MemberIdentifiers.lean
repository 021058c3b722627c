import StructSketch.Proofs.FieldNames
import StructSketch.Proofs.GivenNames

/-!
# The identifiers of a declaration

The line of a field that embeds a record introduces the name of that record, and every other line
introduces the name of its field. Both stand in the scope of one struct, but record names are only
kept apart from each other.

* **`Go.fieldDeclaration_eq_identifier`**: what a line declares begins with its identifier.
* **`Schema.Clash`**: a field embeds a record with a number, and the numbered name is the own name
  of another field.
* **`Schema.identifiers_of_ofSample`**: where the names of the fields are distinct, clashes are the
  only way in which a declaration introduces an identifier twice. The root of
  `{"root":{},"root2":1}` has such a clash.
-/

namespace StructSketch

/-! ## What a line introduces -/

/-- The record that a field with this target embeds. -/
def Target.embedded? : Target → Option Record
  | ⟨0, .record _ record⟩ => some record
  | _ => none

namespace Go

/-- The identifier that the line of a field introduces. -/
def identifier (name : String) (target : Target) : String :=
  (target.embedded?.map Record.name).getD name

/-- A line declares its identifier, and behind it a type unless it embeds a record. -/
theorem fieldDeclaration_eq_identifier (name : String) (target : Target) :
    fieldDeclaration name target = identifier name target ++
      if target.embedded?.isSome then "" else " " ++ targetType target := by
  obtain ⟨links, base⟩ := target
  cases links with
  | zero =>
    cases base with
    | scalar s => exact String.append_assoc
    | record handle record => exact String.append_empty.symm
  | succ links => exact String.append_assoc

end Go

namespace TypeTable

/-- The record that a field embeds. -/
def embedded? (table : TypeTable) (field : Field) : Option Record :=
  (table.target? field.type).bind Target.embedded?

/-- The identifier that the line of a field introduces. -/
def identifier? (table : TypeTable) (field : Field) : Option String :=
  (table.target? field.type).map (Go.identifier field.name)

/-- The line of a field begins, behind the indentation, with the identifier and a blank. -/
theorem fieldLine_of_identifier? {table : TypeTable} {field : Field} {identifier : String}
    (h : table.identifier? field = some identifier) (style : Go.Style) :
    ∃ rest, style.fieldLine table field =
      .ok (style.indentation.text ++ identifier ++ " " ++ rest) := by
  obtain ⟨target, htarget, rfl⟩ := Option.map_eq_some_iff.mp h
  simp only [Go.Style.fieldLine, htarget, Go.fieldDeclaration_eq_identifier, Except.ok.injEq]
  split
  · exact ⟨Go.tag field.key ++ "\n", by simp only [String.append_assoc, String.append_empty]⟩
  · exact ⟨Go.targetType target ++ " " ++ Go.tag field.key ++ "\n", by
      simp only [String.append_assoc]⟩

end TypeTable

/-- The field `f` embeds a record whose number gives it the own name of the field `g`. The record
has a number because another record has the name of `f`. -/
structure Schema.Clash (schema : Schema) (f g : Field) : Prop where
  embedded : ∃ record number, schema.table.embedded? f = some record ∧ 2 ≤ number ∧
    record.name = ClaimedNames.numbered f.name number ∧ record.name = g.name
  taken : ∃ handle record, schema.table.get? handle = some (.record record) ∧
    record.name = f.name
  notEmbedded : schema.table.embedded? g = none

/-! ## Identifiers in a held layout -/

/-- The name of the record that an outline is. -/
def Outline.recordName? : Outline → Option String
  | .record name _ => some name
  | _ => none

/-- A field embeds exactly the record that its layout is. -/
theorem Layout.embedded?_target (layout : Layout) :
    layout.target.embedded?.map Record.name = layout.outline.recordName? := by
  cases layout with
  | scalar s => rfl
  | array handle element => rfl
  | record handle name members => rfl

namespace TypeTable.Holds

variable {table : TypeTable} {m : String × Layout}

theorem embedded?_field (h : table.Holds m.2) :
    (table.embedded? (Layout.field m)).map Record.name = m.2.outline.recordName? := by
  have htarget : table.target? (Layout.field m).type = some m.2.target := h.target?
  rw [embedded?, htarget, Option.bind_some, Layout.embedded?_target]

theorem identifier?_field (h : table.Holds m.2) :
    table.identifier? (Layout.field m) =
      some (m.2.outline.recordName?.getD (Go.nameOfKey m.1)) := by
  have htarget : table.target? (Layout.field m).type = some m.2.target := h.target?
  rw [identifier?, htarget, Option.map_some, Go.identifier, Layout.embedded?_target]
  rfl

end TypeTable.Holds

namespace Outline

/-- Among members without repeated names, a record is known by its name. -/
theorem eq_of_recordName? {members : List (String × Outline)} {m n : String × Outline}
    (hnames : (memberNames members).Nodup) (hm : m ∈ members) (hn : n ∈ members) {name : String}
    (hmname : m.2.recordName? = some name) (hnname : n.2.recordName? = some name) : m = n := by
  have hmem : ∀ {o : Outline}, o.recordName? = some name → name ∈ o.names := by
    intro o ho
    cases o with
    | record name' members' =>
      cases ho
      exact List.mem_cons_self
    | scalar s => cases ho
    | array element => cases ho
  rw [memberNames_eq_flatMap, List.nodup_flatMap] at hnames
  have hsymm : Std.Symm (Function.onFun List.Disjoint fun m : String × Outline => m.2.names) :=
    ⟨fun _ _ h => h.symm⟩
  by_contra hne
  exact hnames.2.forall hm hn hne (hmem hmname) (hmem hnname)

theorem isNameOf_of_recordName? {taken : Finset String} {base name : String} {o : Outline}
    (h : o.NamedAfter taken base) (hname : o.recordName? = some name) :
    ClaimedNames.IsNameOf taken base name := by
  cases h with
  | scalar => cases hname
  | array => cases hname
  | record hrecord _ =>
    cases hname
    exact hrecord

/-- Every name of an outline is that of a record in its schema. -/
theorem exists_get?_of_mem_names {o : Outline} {name : String} (h : name ∈ o.names) :
    ∃ handle record, o.schema.table.get? handle = some (.record record) ∧
      record.name = name := by
  rw [← o.outline_laidOut, ← o.laidOut.names_perm.mem_iff] at h
  obtain ⟨⟨handle, record⟩, hmem, hname⟩ := List.mem_map.mp h
  exact ⟨handle, record, get?_schema_record.mpr (mem_recordsOf.mp hmem), hname⟩

end Outline

/-! ## The identifiers of a declaration -/

section

variable {o : Outline} {base name : String} {members : List (String × Layout)} {handle : Handle}
  {m n : String × Layout}

/-- A field that embeds a record under the own name of another field clashes with it, unless its
own name is the same. -/
theorem Outline.clash_of_recordName? (hnamed : o.NamedAfter o.names.toFinset base)
    (hmem : (name, members.map fun m => (m.1, m.2.outline)) ∈ o.records)
    (hholds : o.schema.table.Holds (.record handle name members))
    (hm : m ∈ members) (hn : n ∈ members) (hne : Go.nameOfKey m.1 ≠ Go.nameOfKey n.1)
    (hmname : m.2.outline.recordName? = some (Go.nameOfKey n.1))
    (hnname : n.2.outline.recordName? = none) :
    o.schema.Clash (Layout.field m) (Layout.field n) := by
  have hbase := isNameOf_of_recordName? (hnamed.of_mem_records hmem _ (List.mem_map_of_mem hm))
    hmname
  rcases hbase with hbase | ⟨htaken, number, hnumber, hnumbered⟩
  · exact absurd hbase.symm hne
  · obtain ⟨record, hrecord, hname⟩ :=
      Option.map_eq_some_iff.mp ((hholds.member hm).embedded?_field.trans hmname)
    refine ⟨⟨record, number, hrecord, hnumber, hname.trans hnumbered, hname⟩, ?_, ?_⟩
    · exact exists_get?_of_mem_names (List.mem_toFinset.mp htaken)
    · exact Option.map_eq_none_iff.mp ((hholds.member hn).embedded?_field.trans hnname)

/-- Two fields of distinct names introduce one identifier only in a clash. -/
theorem Outline.clash_of_identifier?_eq (hnames : o.names.Nodup)
    (hnamed : o.NamedAfter o.names.toFinset base)
    (hmem : (name, members.map fun m => (m.1, m.2.outline)) ∈ o.records)
    (hholds : o.schema.table.Holds (.record handle name members))
    (hm : m ∈ members) (hn : n ∈ members) (hne : Go.nameOfKey m.1 ≠ Go.nameOfKey n.1)
    (hsame : o.schema.table.identifier? (Layout.field m) =
      o.schema.table.identifier? (Layout.field n)) :
    o.schema.Clash (Layout.field m) (Layout.field n) ∨
      o.schema.Clash (Layout.field n) (Layout.field m) := by
  rw [(hholds.member hm).identifier?_field, (hholds.member hn).identifier?_field] at hsame
  have hsame := Option.some.inj hsame
  cases hmname : m.2.outline.recordName? with
  | some given =>
    cases hnname : n.2.outline.recordName? with
    | some given' =>
      -- both embed a record, and no two records have one name
      rw [hmname, hnname] at hsame
      obtain rfl : given = given' := hsame
      have heq := eq_of_recordName? (hnames.sublist (memberNames_sublist hmem))
        (List.mem_map_of_mem hm) (List.mem_map_of_mem hn) hmname hnname
      have hkey : m.1 = n.1 := (Prod.mk.inj heq).1
      rw [hkey] at hne
      exact absurd rfl hne
    | none =>
      rw [hmname, hnname] at hsame
      obtain rfl : given = Go.nameOfKey n.1 := hsame
      exact .inl (clash_of_recordName? hnamed hmem hholds hm hn hne hmname hnname)
  | none =>
    cases hnname : n.2.outline.recordName? with
    | some given =>
      rw [hmname, hnname] at hsame
      obtain rfl : Go.nameOfKey m.1 = given := hsame
      exact .inr (clash_of_recordName? hnamed hmem hholds hn hm hne.symm hnname hmname)
    | none =>
      rw [hmname, hnname] at hsame
      exact absurd hsame hne

end

/-- Two fields that clash introduce one identifier. -/
theorem Schema.Clash.identifier?_eq {schema : Schema} {f g : Field} (h : schema.Clash f g)
    (hg : (schema.table.identifier? g).isSome) :
    schema.table.identifier? f = schema.table.identifier? g := by
  obtain ⟨⟨record, _, hrecord, _, _, hname⟩, _, hnone⟩ := h
  obtain ⟨target, htarget, hembedded⟩ := Option.bind_eq_some_iff.mp hrecord
  obtain ⟨other, hother, _⟩ := Option.map_eq_some_iff.mp (Option.get_mem hg)
  rw [TypeTable.embedded?, hother, Option.bind_some] at hnone
  simp only [TypeTable.identifier?, htarget, hother, Option.map_some, Go.identifier, hembedded,
    hnone, Option.map_none, Option.getD_some, Option.getD_none, hname]

/-- Every line of a declaration introduces an identifier. Where the keys of the record have
distinct names, the declaration introduces no identifier twice exactly if no field embeds a record
with the number that makes its name the own name of another field. -/
theorem Schema.identifiers_of_ofSample {rootName : String} {sample : List UInt8}
    {schema : Schema} {handle : Handle} (hschema : Schema.ofSample rootName sample = .ok schema)
    (hmem : handle ∈ schema.order) :
    ∃ record, schema.table.get? handle = some (.record record) ∧
      (∀ field ∈ record.fields, ∃ identifier, schema.table.identifier? field = some identifier ∧
        ∀ style : Go.Style, ∃ rest, style.fieldLine schema.table field =
          .ok (style.indentation.text ++ identifier ++ " " ++ rest)) ∧
      ((record.fields.map fun field => Go.nameOfKey field.key).Nodup →
        ((record.sorted.map schema.table.identifier?).Nodup ↔
          ∀ f ∈ record.fields, ∀ g ∈ record.fields, ¬ schema.Clash f g)) := by
  obtain ⟨sampleMembers, hparse, rfl⟩ := Schema.ofSample_eq_ok.mp hschema
  obtain ⟨record, hrecord⟩ := Outline.mem_order_schema.mp hmem
  obtain ⟨name, members, rfl, hmembers, hholds⟩ := Outline.exists_of_get?_schema hrecord
  have hidentifier : ∀ field ∈ members.map Layout.field,
      ∃ identifier, (Outline.ofSample rootName
        (.object sampleMembers)).schema.table.identifier? field = some identifier := by
    intro field hfield
    obtain ⟨m, hm, rfl⟩ := List.mem_map.mp hfield
    exact ⟨_, (hholds.member hm).identifier?_field⟩
  refine ⟨_, hrecord, ?_, fun hdistinct => ?_⟩
  · intro field hfield
    obtain ⟨identifier, heq⟩ := hidentifier field hfield
    exact ⟨identifier, heq, TypeTable.fieldLine_of_identifier? heq⟩
  · rw [((Record.sorted_perm _).map _).nodup_iff, List.nodup_map_iff_inj_on hdistinct.of_map]
    constructor
    · intro hinjective f hf g hg hclash
      -- the two fields introduce one identifier, but only the first embeds a record
      have hsome := Option.isSome_iff_exists.mpr (hidentifier g hg)
      obtain rfl := hinjective f hf g hg (hclash.identifier?_eq hsome)
      obtain ⟨⟨record, _, hembedded, _⟩, _, hnone⟩ := hclash
      rw [hnone] at hembedded
      cases hembedded
    · intro hclash f hf g hg hsame
      obtain ⟨m, hm, rfl⟩ := List.mem_map.mp hf
      obtain ⟨n, hn, rfl⟩ := List.mem_map.mp hg
      by_contra hne
      have hname : Go.nameOfKey m.1 ≠ Go.nameOfKey n.1 := by
        intro h
        exact hne (List.inj_on_of_nodup_map hdistinct hf hg h)
      rcases Outline.clash_of_identifier?_eq (Outline.nodup_names_ofSample rootName _)
        (Outline.namedAfter_ofSample rootName _) hmembers hholds hm hn hname hsame with h | h
      · exact hclash _ hf _ hg h
      · exact hclash _ hg _ hf h

/-- A document whose root, of the name `Root`, has the keys `root` and `root2`. -/
def clashingDocument : List UInt8 := Text.bytes "\x7b\"root\":\x7b\x7d,\"root2\":1\x7d"

/-- The members of that document. -/
def clashingMembers : List (String × Json) := [("root", .object []), ("root2", .number "1")]

/-- The outline of that document: the record under `root` has the name `Root2`. -/
def clashingOutline : Outline :=
  .record "Root" [("root", .record "Root2" []), ("root2", .scalar .int)]

/-- The schema of that document. -/
def clashingSchema : Schema := clashingOutline.schema

theorem outline_clashingMembers :
    Outline.ofSample "Root" (.object clashingMembers) = clashingOutline := by
  have hnumber : Nat.find (ClaimedNames.exists_free {"Root"} "Root") = 2 := by
    have hfree : ClaimedNames.numbered "Root" 2 ∉ ({"Root"} : Finset String) := by
      rw [Finset.mem_singleton]
      exact ClaimedNames.numbered_ne "Root" 2
    rw [Nat.find_eq_iff]
    exact ⟨⟨Nat.le_refl 2, hfree⟩, fun n hlt h => by omega⟩
  have hnested : ClaimedNames.freeName {"Root"} "Root" = "Root2" := by
    rw [ClaimedNames.freeName, if_pos (Finset.mem_singleton_self _), hnumber]
    rfl
  have hkey : Go.nameOfKey "root" = "Root" := by with_unfolding_all rfl
  have hint : Scalar.ofNumber "1" = .int := by with_unfolding_all rfl
  simp only [Outline.ofSample, Outline.ofJson, Outline.ofMembers, clashingMembers, hkey, hnested,
    hint, ClaimedNames.freeName_empty, insert_empty_eq, clashingOutline]

theorem parse_clashingDocument : Json.parse clashingDocument = .ok (.object clashingMembers) := by
  with_unfolding_all rfl

theorem ofSample_clashingDocument :
    Schema.ofSample "Root" clashingDocument = .ok clashingSchema :=
  Schema.ofSample_eq_ok.mpr
    ⟨_, parse_clashingDocument, congrArg Outline.schema outline_clashingMembers.symm⟩

/-- The fields of the root of that document. -/
def clashingFields : List Field :=
  [⟨"root", "Root", .nth 5⟩, ⟨"root2", "Root2", Scalar.int.handle⟩]

theorem root_clashingSchema :
    clashingSchema.table.get? (.nth 6) = some (.record ⟨"Root", clashingFields⟩) := by
  with_unfolding_all rfl

theorem root_mem_order_clashingSchema : .nth 6 ∈ clashingSchema.order :=
  Outline.mem_order_schema.mpr ⟨_, root_clashingSchema⟩

theorem nodup_names_clashingFields :
    (clashingFields.map fun field => Go.nameOfKey field.key).Nodup := by
  decide +kernel

theorem identifiers_clashingFields :
    clashingFields.map clashingSchema.table.identifier? = [some "Root2", some "Root2"] := by
  have hrecord : clashingSchema.table.get? (.nth 5) = some (.record ⟨"Root2", []⟩) := by
    with_unfolding_all rfl
  have hint : clashingSchema.table.get? Scalar.int.handle = some (.scalar .int) := by
    with_unfolding_all rfl
  have hroot : clashingSchema.table.identifier? ⟨"root", "Root", .nth 5⟩ = some "Root2" := by
    rw [TypeTable.identifier?, TypeTable.target?, hrecord]
    rfl
  have hroot2 : clashingSchema.table.identifier? ⟨"root2", "Root2", Scalar.int.handle⟩ =
      some "Root2" := by
    rw [TypeTable.identifier?, TypeTable.target?, hint]
    rfl
  rw [clashingFields, List.map_cons, List.map_singleton, hroot, hroot2]

theorem identifiers_of_ofSample_clashing :
    Schema.ofSample "Root" clashingDocument = .ok clashingSchema ∧
      .nth 6 ∈ clashingSchema.order ∧
      (clashingFields.map fun field => Go.nameOfKey field.key).Nodup ∧
      ∃ f ∈ clashingFields, ∃ g ∈ clashingFields, clashingSchema.Clash f g := by
  obtain ⟨record, hrecord, _, hclash⟩ :=
    Schema.identifiers_of_ofSample ofSample_clashingDocument root_mem_order_clashingSchema
  rw [root_clashingSchema] at hrecord
  cases hrecord
  refine ⟨ofSample_clashingDocument, root_mem_order_clashingSchema, nodup_names_clashingFields, ?_⟩
  by_contra hnone
  push Not at hnone
  have hnodup := (hclash nodup_names_clashingFields).mpr hnone
  rw [((Record.sorted_perm _).map _).nodup_iff, identifiers_clashingFields] at hnodup
  exact (List.nodup_cons.mp hnodup).1 List.mem_cons_self

/-- Not every declaration introduces distinct identifiers, even where the keys of each observed
object have distinct names. -/
theorem not_nodup_identifiers_clashing :
    ¬ ∀ rootName sample members schema, Json.parse sample = .ok (.object members) →
      (∀ o ∈ (Json.object members).objects rootName,
        (o.2.map fun m => Go.nameOfKey m.1).Nodup) →
      Schema.ofSample rootName sample = .ok schema →
      ∀ handle ∈ schema.order, ∀ record,
        schema.table.get? handle = some (.record record) →
        (record.sorted.map schema.table.identifier?).Nodup := by
  intro hall
  have hobjects : ∀ o ∈ (Json.object clashingMembers).objects "Root",
      (o.2.map fun m => Go.nameOfKey m.1).Nodup := by
    intro o ho
    rcases List.mem_cons.mp ho with rfl | ho
    · exact nodup_names_clashingFields
    · obtain rfl := List.mem_singleton.mp ho
      exact List.nodup_nil
  have hnodup := hall "Root" clashingDocument clashingMembers clashingSchema
    parse_clashingDocument hobjects ofSample_clashingDocument _ root_mem_order_clashingSchema _
    root_clashingSchema
  rw [((Record.sorted_perm _).map _).nodup_iff, identifiers_clashingFields] at hnodup
  exact (List.nodup_cons.mp hnodup).1 List.mem_cons_self

end StructSketch
