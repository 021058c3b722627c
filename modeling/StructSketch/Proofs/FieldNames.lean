import StructSketch.Proofs.Generation
import StructSketch.Proofs.SchemaTree
import StructSketch.Proofs.Utf8

/-!
# The order of fields

* **`Record.pairwise_le_listedNames`** and **`Record.pairwise_lt_listedNames_iff`**: the fields of
  a record are listed with ascending names, and strictly ascending ones exactly if no two fields
  have one name.
* **`Layout.name_of_mem_nodes`**: a field is named after its key.
* **`Schema.ascending_of_ofSample`**: so the records of a document list their fields with
  ascending names, those of one name in the order of the document. Distinct keys can have one name
  (`twinKeys`), and then the names do not ascend strictly.
-/

namespace StructSketch

namespace Text

theorem byteLE_trans (s t u : String) (hst : byteLE s t = true) (htu : byteLE t u = true) :
    byteLE s u = true := by
  simp only [byteLE, decide_eq_true_eq] at hst htu ⊢
  exact List.le_trans hst htu

theorem byteLE_total (s t : String) : (byteLE s t || byteLE t s) = true := by
  simp only [byteLE, Bool.or_eq_true, decide_eq_true_eq]
  exact List.le_total _ _

theorem bytes_lt_iff {s t : String} : bytes s < bytes t ↔ bytes s ≤ bytes t ∧ s ≠ t := by
  constructor
  · intro hlt
    refine ⟨List.le_of_lt hlt, ?_⟩
    rintro rfl
    exact List.lt_irrefl _ hlt
  · rintro ⟨hle, hne⟩
    by_contra hlt
    exact hne (bytes_injective (List.le_antisymm hle (List.not_lt.mp hlt)))

end Text

namespace Record

/-- The names in the order in which the fields are listed. -/
def listedNames (record : Record) : List String := record.sorted.map Field.name

theorem sorted_perm (record : Record) : record.sorted.Perm record.fields :=
  List.mergeSort_perm _ _

/-- The fields are listed with ascending names. -/
theorem pairwise_le_listedNames (record : Record) :
    record.listedNames.Pairwise fun s t => Text.bytes s ≤ Text.bytes t := by
  have hsorted := List.pairwise_mergeSort
    (fun (f g h : Field) => Text.byteLE_trans f.name g.name h.name)
    (fun f g => Text.byteLE_total f.name g.name) record.fields
  refine List.pairwise_map.mpr (hsorted.imp ?_)
  intro f g hle
  exact of_decide_eq_true hle

/-- Fields of one name are listed in the order of the record. -/
theorem sublist_sorted {record : Record} {f g : Field} (h : [f, g].Sublist record.fields)
    (hname : f.name = g.name) : [f, g].Sublist record.sorted := by
  refine List.pair_sublist_mergeSort (fun f g h => Text.byteLE_trans f.name g.name h.name)
    (fun f g => Text.byteLE_total f.name g.name) ?_ h
  rw [hname]
  exact decide_eq_true (List.le_refl _)

/-- The names ascend strictly exactly if no two fields have one name. -/
theorem pairwise_lt_listedNames_iff {record : Record} :
    (record.listedNames.Pairwise fun s t => Text.bytes s < Text.bytes t) ↔
      (record.fields.map Field.name).Nodup := by
  simp only [Text.bytes_lt_iff]
  rw [List.pairwise_and_iff, ← (record.sorted_perm.map Field.name).nodup_iff]
  exact and_iff_right record.pairwise_le_listedNames

end Record

/-- The fields of a record that a layout puts into a table are named after their keys. -/
theorem Layout.name_of_mem_nodes (layout : Layout) {handle : Handle} {record : Record}
    (hrecord : (handle, Entry.record record) ∈ layout.nodes) :
    ∀ field ∈ record.fields, field.name = Go.nameOfKey field.key := by
  induction layout using Layout.induct with
  | scalar s => cases hrecord
  | array handle' element ih =>
    rcases List.mem_append.mp hrecord with hrecord | hrecord
    · exact ih hrecord
    · cases List.mem_singleton.mp hrecord
  | record handle' name members ih =>
    rw [nodes_record] at hrecord
    rcases List.mem_append.mp hrecord with hrecord | hrecord
    · obtain ⟨member, hmember, hrecord⟩ := List.mem_flatMap.mp hrecord
      exact ih member hmember hrecord
    · cases List.mem_singleton.mp hrecord
      intro field hfield
      obtain ⟨member, _, rfl⟩ := List.mem_map.mp hfield
      rfl

/-- Every record of an accepted document is declared with its fields under ascending names, fields
of one name in the order of the document. The keys of a record are distinct; its names ascend
strictly exactly if distinct keys have distinct names. -/
theorem Schema.ascending_of_ofSample {rootName : String} {sample : List UInt8} {schema : Schema}
    {handle : Handle} (hschema : Schema.ofSample rootName sample = .ok schema)
    (hmem : handle ∈ schema.order) :
    ∃ record, schema.table.get? handle = some (.record record) ∧
      record.sorted.Perm record.fields ∧
      (record.listedNames.Pairwise fun s t => Text.bytes s ≤ Text.bytes t) ∧
      (∀ f g, [f, g].Sublist record.fields → f.name = g.name → [f, g].Sublist record.sorted) ∧
      (record.fields.map Field.key).Nodup ∧
      ((record.listedNames.Pairwise fun s t => Text.bytes s < Text.bytes t) ↔
        ∀ f ∈ record.fields, ∀ g ∈ record.fields,
          Go.nameOfKey f.key = Go.nameOfKey g.key → f = g) := by
  obtain ⟨members, hparse, rfl⟩ := Schema.ofSample_eq_ok.mp hschema
  obtain ⟨record, hrecord⟩ := Outline.mem_order_schema.mp hmem
  have hnode := Outline.get?_schema_record.mp hrecord
  have hkeys := Outline.nodup_keys_of_mem_nodes _ (Json.wellKeyed_of_parse hparse) hnode
  have hname := Layout.name_of_mem_nodes _ hnode
  refine ⟨record, hrecord, record.sorted_perm, record.pairwise_le_listedNames,
    fun f g => Record.sublist_sorted, hkeys, ?_⟩
  rw [Record.pairwise_lt_listedNames_iff, List.nodup_map_iff_inj_on hkeys.of_map]
  refine forall₂_congr fun f hf => forall₂_congr fun g hg => ?_
  rw [hname f hf, hname g hg]

/-- A document with two keys of one name. -/
def twinKeys : List UInt8 := Text.bytes "\x7b\"a_b\":1,\"aB\":2\x7d"

/-- The schema of that document, with the two fields under one name. -/
def twinKeysSchema : Schema :=
  (Outline.ofSample "Root"
    (.object [("a_b", .number "1"), ("aB", .number "2")])).schema

theorem ofSample_twinKeys : Schema.ofSample "Root" twinKeys = .ok twinKeysSchema := by
  have hparse : Json.parse twinKeys =
      .ok (.object [("a_b", .number "1"), ("aB", .number "2")]) := by
    with_unfolding_all rfl
  exact Schema.ofSample_eq_ok.mpr ⟨_, hparse, rfl⟩

theorem root_twinKeys :
    twinKeysSchema.table.get? (.nth 5) = some (.record ⟨"Root",
      [⟨"a_b", "AB", Scalar.int.handle⟩, ⟨"aB", "AB", Scalar.int.handle⟩]⟩) := by
  with_unfolding_all rfl

theorem root_mem_order_twinKeys : .nth 5 ∈ twinKeysSchema.order :=
  Outline.mem_order_schema.mpr ⟨_, root_twinKeys⟩

theorem ascending_of_ofSample_twinKeys :
    Schema.ofSample "Root" twinKeys = .ok twinKeysSchema ∧ .nth 5 ∈ twinKeysSchema.order ∧
      ∃ record, twinKeysSchema.table.get? (.nth 5) = some (.record record) ∧
        record.listedNames.Pairwise fun s t => Text.bytes s ≤ Text.bytes t :=
  have ⟨record, hrecord, _, hle, _⟩ :=
    Schema.ascending_of_ofSample ofSample_twinKeys root_mem_order_twinKeys
  ⟨ofSample_twinKeys, root_mem_order_twinKeys, record, hrecord, hle⟩

/-- Not every accepted document has strictly ascending names in its records. -/
theorem not_strictly_ascending_twinKeys :
    ¬ ∀ rootName sample schema, Schema.ofSample rootName sample = .ok schema →
      ∀ handle ∈ schema.order, ∀ record,
        schema.table.get? handle = some (.record record) →
        record.listedNames.Pairwise fun s t => Text.bytes s < Text.bytes t := by
  intro hall
  have hstrict := hall "Root" twinKeys _ ofSample_twinKeys _ root_mem_order_twinKeys _
    root_twinKeys
  have hnodup := Record.pairwise_lt_listedNames_iff.mp hstrict
  simp at hnodup

end StructSketch
