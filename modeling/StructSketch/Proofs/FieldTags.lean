import StructSketch.Proofs.Generation
import StructSketch.Proofs.Lines
import StructSketch.Proofs.SchemaTree

/-!
# The tags of a declaration

* **`Outline.exists_records`**: the declared records of the schema of an outline have, one by one,
  the keys of the records of the outline.
* **`Outline.keyOfLine?_line`**: the tag in a line gives back the key of the line exactly if the key
  is plain, as far as the key has no backquote.
* **`Schema.tags_of_ofSample`**: so in the declaration of an observed object with plain keys each
  key is given back by exactly one line. The key is written into its tag as it is, and the key
  `a"b` is not given back.
-/

namespace StructSketch

namespace Outline

/-- The declared records have the keys of the records of the outline. -/
theorem exists_records (o : Outline) : ∃ records : List Record,
    List.Forall₂ (fun handle record => o.schema.table.get? handle = some (.record record))
      o.schema.order records ∧
    (records.map fun record => record.fields.map Field.key).Perm
      (o.records.map fun r => r.2.map Prod.fst) := by
  let recordAt : Handle → Record := fun handle =>
    ((o.schema.table.get? handle).bind Entry.record?).getD ⟨"", []⟩
  have hrecordAt : ∀ {handle : Handle} {record : Record},
      o.schema.table.get? handle = some (.record record) → recordAt handle = record := by
    intro handle record h
    show ((o.schema.table.get? handle).bind Entry.record?).getD ⟨"", []⟩ = record
    rw [h]
    rfl
  refine ⟨o.schema.order.map recordAt, ?_, ?_⟩
  · rw [List.forall₂_map_right_iff, List.forall₂_same]
    intro handle hmem
    obtain ⟨record, hrecord⟩ := mem_order_schema.mp hmem
    rw [hrecordAt hrecord]
    exact hrecord
  · -- the declared records are those of the nodes
    have hnodes : (recordsOf o.laidOut.nodes).map (recordAt ∘ Prod.fst) =
        (recordsOf o.laidOut.nodes).map Prod.snd := by
      refine List.map_congr_left ?_
      rintro ⟨handle, record⟩ hmem
      exact hrecordAt (get?_schema_record.mpr (mem_recordsOf.mp hmem))
    have hperm := (Layout.order_perm o.laidOut).map recordAt
    rw [List.map_map, hnodes] at hperm
    rw [order_schema]
    have hkeys := o.laidOut.keys_perm
    rw [outline_laidOut] at hkeys
    refine (hperm.map _).trans ?_
    rw [List.map_map]
    exact hkeys

/-- The tag in a line gives back the key of the line exactly if the key is plain. -/
theorem keyOfLine?_line {taken : Finset String} {m : String × Outline}
    (h : m.2.NamedAfter taken (Go.nameOfKey m.1)) (hkey : '\x60' ∉ m.1.toList)
    (indentation : Go.Indentation) :
    Go.keyOfLine? (line indentation.text m) = some (Text.bytes m.1) ↔ Go.Plain m.1 := by
  have hbefore : '\x60' ∉ (indentation.text ++ m.2.declared m.1 ++ " ").toList := by
    simp [indentation.backquote_notMem_text, backquote_notMem_declared h hkey]
  exact Go.keyOfLine?_eq_some_iff hbefore hkey

theorem notMem_backquote_of_plain {key : String} (h : Go.Plain key) : '\x60' ∉ key.toList :=
  fun hmem => h _ hmem (by simp)

/-- Where all keys of a record are plain and distinct, one line gives back each of them. -/
theorem countP_keyOfLine?_lines {taken : Finset String} {members : List (String × Outline)}
    (hnamed : ∀ m ∈ members, m.2.NamedAfter taken (Go.nameOfKey m.1))
    (hplain : ∀ m ∈ members, Go.Plain m.1) (hkeys : (members.map Prod.fst).Nodup)
    (indentation : Go.Indentation) {key : String} (hkey : key ∈ members.map Prod.fst) :
    ((members.map (line indentation.text)).countP fun text =>
      Go.keyOfLine? text = some (Text.bytes key)) = 1 := by
  have hread : ∀ m ∈ members,
      (Go.keyOfLine? (line indentation.text m) = some (Text.bytes key) ↔ (m.1 == key) = true) := by
    intro m hm
    have hback := (keyOfLine?_line (hnamed m hm) (notMem_backquote_of_plain (hplain m hm))
      indentation).mpr (hplain m hm)
    rw [hback, Option.some.injEq, beq_iff_eq]
    exact Text.bytes_injective.eq_iff
  have hcount : members.countP (fun m => m.1 == key) = (members.map Prod.fst).count key := by
    rw [List.count, List.countP_map]
    rfl
  calc ((members.map (line indentation.text)).countP fun text =>
        Go.keyOfLine? text = some (Text.bytes key))
      = members.countP (fun m => m.1 == key) := by
        rw [List.countP_map]
        refine List.countP_congr fun m hm => ?_
        rw [← hread m hm]
        exact decide_eq_true_iff
    _ = 1 := by rw [hcount, List.count_eq_one_of_mem hkeys hkey]

end Outline

/-- The declared records of an accepted document have the keys of its observed objects. In each
declaration, of whatever style, the tag of a key without a backquote gives back that key exactly
if the key is plain; and where all keys of a record are plain, exactly one line of its declaration
gives back each of them. -/
theorem Schema.tags_of_ofSample {rootName : String} {sample : List UInt8} {schema : Schema}
    (hschema : Schema.ofSample rootName sample = .ok schema) (style : Go.Style) :
    ∃ members records, Json.parse sample = .ok (.object members) ∧
      List.Forall₂ (fun handle record => schema.table.get? handle = some (.record record))
        schema.order records ∧
      (records.map fun record => record.fields.map Field.key).Perm
        (((Json.object members).objects rootName).map fun o => o.2.map Prod.fst) ∧
      ∀ handle ∈ schema.order, ∀ record, schema.table.get? handle = some (.record record) →
        ∃ lines, record.sorted.mapM (style.fieldLine schema.table) = .ok lines ∧
          List.Forall₂ (fun field text => '\x60' ∉ field.key.toList →
            (Go.keyOfLine? text = some (Text.bytes field.key) ↔ Go.Plain field.key))
            record.sorted lines ∧
          ((∀ field ∈ record.fields, Go.Plain field.key) → ∀ field ∈ record.fields,
            (lines.countP fun text => Go.keyOfLine? text = some (Text.bytes field.key)) = 1) := by
  obtain ⟨members, hparse, rfl⟩ := Schema.ofSample_eq_ok.mp hschema
  obtain ⟨records, hrecords, hkeys⟩ := (Outline.ofSample rootName (.object members)).exists_records
  rw [Outline.ofSample, Outline.keys_records_ofJson] at hkeys
  refine ⟨members, records, hparse, hrecords, hkeys, ?_⟩
  intro handle _ record hrecord
  have hnodup := Outline.nodup_keys_of_mem_nodes _ (Json.wellKeyed_of_parse hparse)
    (Outline.get?_schema_record.mp hrecord)
  obtain ⟨name, layouts, rfl, hlayouts, hholds⟩ := Outline.exists_of_get?_schema hrecord
  have hnamed := (Outline.namedAfter_ofSample rootName _).of_mem_records hlayouts
  have hsorted := byName_perm (layouts.map fun m => (m.1, m.2.outline))
  refine ⟨_, hholds.fieldLines style, ?_, fun hplain field hfield => ?_⟩
  · rw [Layout.sorted_fields, byName_map, List.map_map, List.forall₂_map_left_iff,
      List.forall₂_map_right_iff, List.forall₂_same]
    intro m hm hkey
    have hm := (byName_perm layouts).mem_iff.mp hm
    exact Outline.keyOfLine?_line (hnamed _ (List.mem_map_of_mem hm)) hkey style.indentation
  · have hkeysOf : (layouts.map Layout.field).map Field.key =
        (layouts.map fun m => (m.1, m.2.outline)).map Prod.fst := by
      rw [List.map_map, List.map_map]
      rfl
    rw [(hsorted.map _).countP_eq]
    refine Outline.countP_keyOfLine?_lines hnamed ?_ (hkeysOf ▸ hnodup) style.indentation ?_
    · intro m hm
      obtain ⟨n, hn, rfl⟩ := List.mem_map.mp hm
      exact hplain _ (List.mem_map_of_mem hn)
    · rw [← hkeysOf]
      exact List.mem_map_of_mem hfield

/-- A document with two plain keys. -/
def plainDocument : List UInt8 := Text.bytes "\x7b\"id\":1,\"is_ok\":true\x7d"

/-- The schema of that document. -/
def plainSchema : Schema :=
  Outline.schema (.record "Root" [("id", .scalar .int), ("is_ok", .scalar .bool)])

/-- The root of that document. -/
def plainRecord : Record :=
  ⟨"Root", [⟨"id", "Id", Scalar.int.handle⟩, ⟨"is_ok", "IsOk", Scalar.bool.handle⟩]⟩

theorem ofSample_plainDocument : Schema.ofSample "Root" plainDocument = .ok plainSchema := by
  have hparse : Json.parse plainDocument =
      .ok (.object [("id", .number "1"), ("is_ok", .boolean true)]) := by
    with_unfolding_all rfl
  refine Schema.ofSample_eq_ok.mpr ⟨_, hparse, congrArg Outline.schema ?_⟩
  have hint : Scalar.ofNumber "1" = .int := by with_unfolding_all rfl
  simp only [Outline.ofSample, Outline.ofJson, Outline.ofMembers, hint,
    ClaimedNames.freeName_empty]

theorem root_plainSchema : plainSchema.table.get? (.nth 5) = some (.record plainRecord) := by
  with_unfolding_all rfl

theorem Schema.tags_of_ofSample_plain :
    Schema.ofSample "Root" plainDocument = .ok plainSchema ∧
      ∃ lines, plainRecord.sorted.mapM (({} : Go.Style).fieldLine plainSchema.table) = .ok lines ∧
        (lines.countP fun text => Go.keyOfLine? text = some (Text.bytes "is_ok")) = 1 := by
  obtain ⟨_, _, _, _, _, htags⟩ := Schema.tags_of_ofSample ofSample_plainDocument {}
  obtain ⟨lines, hlines, _, hcount⟩ :=
    htags _ (Outline.mem_order_schema.mpr ⟨_, root_plainSchema⟩) _ root_plainSchema
  have hid : Go.Plain "id" := by decide
  have hisOk : Go.Plain "is_ok" := by decide
  have hplain : ∀ field ∈ plainRecord.fields, Go.Plain field.key :=
    List.forall_mem_cons.mpr ⟨hid, List.forall_mem_singleton.mpr hisOk⟩
  exact ⟨ofSample_plainDocument, lines, hlines,
    hcount hplain ⟨"is_ok", "IsOk", Scalar.bool.handle⟩ (List.mem_cons_of_mem _ List.mem_cons_self)⟩

/-- A document whose key has a quote. -/
def quotedDocument : List UInt8 := Text.bytes "\x7b\"a\\\"b\":1\x7d"

/-- The schema of that document. -/
def quotedSchema : Schema := Outline.schema (.record "Root" [("a\"b", .scalar .int)])

/-- The root of that document. -/
def quotedRecord : Record := ⟨"Root", [⟨"a\"b", "A\"b", Scalar.int.handle⟩]⟩

theorem ofSample_quotedDocument : Schema.ofSample "Root" quotedDocument = .ok quotedSchema := by
  have hparse : Json.parse quotedDocument = .ok (.object [("a\"b", .number "1")]) := by
    with_unfolding_all rfl
  refine Schema.ofSample_eq_ok.mpr ⟨_, hparse, congrArg Outline.schema ?_⟩
  have hint : Scalar.ofNumber "1" = .int := by with_unfolding_all rfl
  simp only [Outline.ofSample, Outline.ofJson, Outline.ofMembers, hint,
    ClaimedNames.freeName_empty]

theorem root_quotedSchema : quotedSchema.table.get? (.nth 5) = some (.record quotedRecord) := by
  with_unfolding_all rfl

theorem lines_quotedRecord :
    quotedRecord.sorted.mapM (({} : Go.Style).fieldLine quotedSchema.table) =
      .ok ["\tA\"b int " ++ Go.tag "a\"b" ++ "\n"] := by
  with_unfolding_all rfl

/-- Not every key is given back by exactly one line. -/
theorem not_countP_keyOfLine_quoted :
    ¬ ∀ rootName sample schema, Schema.ofSample rootName sample = .ok schema →
      ∀ handle ∈ schema.order, ∀ record, schema.table.get? handle = some (.record record) →
        ∀ lines, record.sorted.mapM (({} : Go.Style).fieldLine schema.table) = .ok lines →
          ∀ field ∈ record.fields,
            (lines.countP fun text => Go.keyOfLine? text = some (Text.bytes field.key)) = 1 := by
  intro hall
  have hcount := hall "Root" quotedDocument quotedSchema ofSample_quotedDocument _
    (Outline.mem_order_schema.mpr ⟨_, root_quotedSchema⟩) _ root_quotedSchema _
    lines_quotedRecord _ List.mem_cons_self
  have hread : Go.keyOfLine? ("\tA\"b int " ++ Go.tag "a\"b" ++ "\n") ≠
      some (Text.bytes "a\"b") := by
    rw [Ne, Go.keyOfLine?_eq_some_iff (by decide) (by decide)]
    decide
  rw [List.countP_singleton, if_neg] at hcount
  · cases hcount
  · rw [decide_eq_true_eq]
    exact hread

end StructSketch
