import Mathlib.Data.List.Forall2
import StructSketch.Proofs.FieldNames
import StructSketch.Proofs.ObservedObjects

/-!
# Samples with a member more

A member that is appended to the root of a sample is looked at last, so everything before it is
named as it was. Its field stands wherever its name is sorted to, and its declarations stand
there among those of the other members.

* **`exists_mergeSort_concat`**: an item more takes a place in the sorted list and leaves the others
  in their order.
* **`Outline.ofMembers_concat`**: a member more is named last, and **`Outline.exists_addition`**
  says what it does to the declarations.
* **`Outline.DeclaresObject`**: a text is the declaration of an object. The declarations of a value
  are those of its observed objects (`Outline.exists_forall₂_blocks`).
* **`Schema.declarations_of_put`**: so an appended member puts one line into the declaration of the
  root and its own declarations between the others, and leaves all of them as they were.
-/

namespace StructSketch

/-! ## An item more -/

/-- Numbered items that come before each other have one number. -/
theorem snd_eq_of_zipIdxLE {α : Type} {le : α → α → Bool} {m n : α × Nat}
    (hle : List.zipIdxLE le m n = true) (hge : List.zipIdxLE le n m = true) : m.2 = n.2 := by
  unfold List.zipIdxLE at hle hge
  by_cases hmn : le m.1 n.1 = true
  · by_cases hnm : le n.1 m.1 = true
    · simp only [hmn, hnm, if_true, decide_eq_true_eq] at hle hge
      omega
    · simp [hnm] at hge
  · simp [hmn] at hle

/-- In a sorted list an item more has some place, and the others stay in their order. -/
theorem exists_mergeSort_concat {α : Type} {le : α → α → Bool}
    (htrans : ∀ a b c, le a b → le b c → le a c) (htotal : ∀ a b, le a b || le b a)
    (items : List α) (item : α) :
    ∃ above below, items.mergeSort le = above ++ below ∧
      (items ++ [item]).mergeSort le = above ++ item :: below := by
  -- with their places the items are ordered strictly, so the new one may as well come first
  have htrans' := List.zipIdxLE_trans htrans
  have htotal' := List.zipIdxLE_total htotal
  obtain ⟨above, below, hfirst, hrest, -⟩ :=
    List.mergeSort_cons htrans' htotal' (item, items.length) items.zipIdx
  have hperm : ((item, items.length) :: items.zipIdx).Perm (items ++ [item]).zipIdx := by
    rw [List.zipIdx_append, Nat.zero_add]
    exact (List.perm_append_singleton _ _).symm
  have hsame : ((items ++ [item]).zipIdx).mergeSort (List.zipIdxLE le) =
      above ++ (item, items.length) :: below := by
    rw [← hfirst]
    refine List.Perm.eq_of_pairwise ?_ (List.pairwise_mergeSort htrans' htotal' _)
      (List.pairwise_mergeSort htrans' htotal' _)
      (((List.mergeSort_perm _ _).trans hperm.symm).trans (List.mergeSort_perm _ _).symm)
    intro m n hm hn hle hge
    have hm := List.mem_zipIdx_iff_getElem?.mp (List.mem_mergeSort.mp hm)
    have hn := List.mem_zipIdx_iff_getElem?.mp (hperm.mem_iff.mp (List.mem_mergeSort.mp hn))
    have hplace := snd_eq_of_zipIdxLE hle hge
    rw [hplace, hn] at hm
    exact Prod.ext (Option.some.inj hm).symm hplace
  refine ⟨above.map Prod.fst, below.map Prod.fst, ?_, ?_⟩
  · rw [← List.mergeSort_zipIdx, hrest, List.map_append]
  · rw [← List.mergeSort_zipIdx, hsame, List.map_append, List.map_cons]

theorem exists_byName_concat {α : Type} (members : List (String × α)) (member : String × α) :
    ∃ above below, byName members = above ++ below ∧
      byName (members ++ [member]) = above ++ member :: below :=
  exists_mergeSort_concat
    (fun (l m n : String × α) =>
      Text.byteLE_trans (Go.nameOfKey l.1) (Go.nameOfKey m.1) (Go.nameOfKey n.1))
    (fun m n => Text.byteLE_total (Go.nameOfKey m.1) (Go.nameOfKey n.1)) members member

/-! ## A line and some declarations more -/

namespace Go

/-- The declaration of a struct with some field lines. -/
def structText (name : String) (lines : List String) : String :=
  "type " ++ name ++ " struct \x7b\n" ++ String.join lines ++ "\x7d\n"

/-- What the declarations of a sample get when its root gets a member more, and where they get
it. -/
structure Addition where
  /-- The field lines of the root that stand above the new one. -/
  above : List String
  /-- The field line of the new member. -/
  line : String
  /-- The field lines of the root that stand below the new one. -/
  below : List String
  /-- The declarations between that of the root and the new ones. -/
  before : List String
  /-- The new declarations. -/
  added : List String
  /-- The declarations behind the new ones. -/
  after : List String

/-- The declarations without what is new. -/
def Addition.original (addition : Addition) (rootName : String) : List String :=
  structText rootName (addition.above ++ addition.below) :: (addition.before ++ addition.after)

/-- The declarations with what is new. -/
def Addition.extended (addition : Addition) (rootName : String) : List String :=
  structText rootName (addition.above ++ addition.line :: addition.below) ::
    (addition.before ++ addition.added ++ addition.after)

/-- The root record of a schema is written with some field lines. -/
def Style.RootLines (style : Style) (schema : Schema) (lines : List String) : Prop :=
  ∃ record, schema.table.get? schema.root = some (.record record) ∧
    record.sorted.mapM (style.fieldLine schema.table) = .ok lines

/-- A field of the root record of a schema is written as a line. -/
def Style.RootLine (style : Style) (schema : Schema) (key line : String) : Prop :=
  ∃ record, schema.table.get? schema.root = some (.record record) ∧
    ∃ field ∈ record.fields, field.key = key ∧ style.fieldLine schema.table field = .ok line

end Go

namespace Outline

variable {name : String} {members : List (String × Outline)}

/-- The lines of the root are those of the members, by name. -/
theorem rootLines_schema (name : String) (members : List (String × Outline)) (style : Go.Style) :
    style.RootLines (Outline.record name members).schema
      ((byName members).map (line style.indentation.text)) := by
  have hholds : (Outline.record name members).schema.table.Holds (.record _ name _) :=
    (Outline.record name members).holds_laidOut
  refine ⟨_, hholds.get?_record, ?_⟩
  rw [hholds.fieldLines, ← Layout.memberOutlines_eq_map, memberOutlines_layoutMembers]

theorem rootLine_schema {member : String × Outline} (hmember : member ∈ members)
    (style : Go.Style) :
    style.RootLine (Outline.record name members).schema member.1
      (line style.indentation.text member) := by
  have hholds : (Outline.record name members).schema.table.Holds (.record _ name _) :=
    (Outline.record name members).holds_laidOut
  rw [← memberOutlines_layoutMembers Scalar.all.length members,
    Layout.memberOutlines_eq_map] at hmember
  obtain ⟨m, hm, rfl⟩ := List.mem_map.mp hmember
  exact ⟨_, hholds.get?_record, Layout.field m, List.mem_map_of_mem hm, rfl,
    (hholds.member hm).fieldLine style⟩

/-- A member more puts its line into the declaration of the record and its declarations between
those of the others. -/
theorem exists_addition (indent name : String) (members : List (String × Outline))
    (member : String × Outline) :
    ∃ addition : Go.Addition,
      addition.line = line indent member ∧ addition.added = member.2.blocks indent ∧
      addition.above ++ addition.below = (byName members).map (line indent) ∧
      addition.above ++ addition.line :: addition.below =
        (byName (members ++ [member])).map (line indent) ∧
      blocks indent (.record name members) = addition.original name ∧
      blocks indent (.record name (members ++ [member])) = addition.extended name := by
  obtain ⟨above, below, hmembers, hconcat⟩ := exists_byName_concat members member
  refine ⟨⟨above.map (line indent), line indent member, below.map (line indent),
    above.flatMap fun m => m.2.blocks indent, member.2.blocks indent,
    below.flatMap fun m => m.2.blocks indent⟩, rfl, rfl, ?_, ?_, ?_, ?_⟩
  · rw [hmembers, List.map_append]
  · rw [hconcat, List.map_append, List.map_cons]
  · rw [blocks_record, block, hmembers, List.map_append, List.flatMap_append]
    rfl
  · rw [blocks_record, block, hconcat, List.map_append, List.map_cons, List.flatMap_append,
      List.flatMap_cons, ← List.append_assoc]
    rfl

/-! ## The declarations of a value -/

/-- A text is the declaration of an object: with some names in use, it is the first of the
declarations that the object leads to. -/
def DeclaresObject (indent : String) (object : String × List (String × Json)) (text : String) :
    Prop :=
  ∃ used, ((ofJson used object.1 (.object object.2)).1.blocks indent).head? = some text

mutual

/-- The records of the outline of a value are declared like the observed objects of the value. -/
theorem forall₂_declaresObject (indent : String) (used : Finset String) (base : String) :
    (value : Json) → List.Forall₂ (DeclaresObject indent) (value.objects base)
      ((ofJson used base value).1.records.map fun r => block indent r.1 r.2)
  | .null => .nil
  | .boolean _ => .nil
  | .number _ => .nil
  | .string _ => .nil
  | .array [] => .nil
  | .array (item :: _) => forall₂_declaresObject indent used base item
  | .object members => .cons ⟨used, rfl⟩ (forall₂_declaresObject_members indent _ members)

theorem forall₂_declaresObject_members (indent : String) (used : Finset String) :
    (members : List (String × Json)) →
    List.Forall₂ (DeclaresObject indent) (Json.memberObjects members)
      ((memberRecords (ofMembers used members).1).map fun r => block indent r.1 r.2)
  | [] => .nil
  | (key, value) :: rest => by
    rw [Json.memberObjects, ofMembers, memberRecords, List.map_append]
    exact List.rel_append (forall₂_declaresObject indent used (Go.nameOfKey key) value)
      (forall₂_declaresObject_members indent _ rest)

end

/-- The declarations of an outline are those of its records, in some order. -/
theorem blocks_perm_records (indent : String) (o : Outline) :
    (o.blocks indent).Perm (o.records.map fun r => block indent r.1 r.2) := by
  induction o using Outline.induct with
  | scalar s => exact .nil
  | array element ih => exact ih
  | record name members ih =>
    rw [blocks_record, records_record, List.map_cons, List.map_flatMap]
    exact (((byName_perm members).flatMap_right _).trans (List.Perm.flatMap_left members ih)).cons _

/-- The declarations of a value are those of its observed objects, in some order. -/
theorem exists_forall₂_blocks (indent : String) (used : Finset String) (base : String)
    (value : Json) :
    ∃ objects, objects.Perm (value.objects base) ∧
      List.Forall₂ (DeclaresObject indent) objects ((ofJson used base value).1.blocks indent) := by
  have hrecords := forall₂_declaresObject indent used base value
  have hperm := (ofJson used base value).1.blocks_perm_records indent
  obtain ⟨objects, hobjects, hdeclares⟩ := List.forall₂_comp_perm_eq_perm_comp_forall₂.le _ _
    ⟨_, hrecords, hperm.symm⟩
  exact ⟨objects, hobjects.symm, hdeclares⟩

/-! ## An appended member -/

/-- A member more is named last. -/
theorem ofMembers_concat (used : Finset String) (members : List (String × Json)) (key : String)
    (value : Json) :
    (ofMembers used (members ++ [(key, value)])).1 =
      (ofMembers used members).1 ++
        [(key, (ofJson (ofMembers used members).2 (Go.nameOfKey key) value).1)] := by
  induction members generalizing used with
  | nil => rfl
  | cons member rest ih => exact congrArg (List.cons _) (ih _)

/-- The root of a sample has the name that it asks for. -/
theorem ofSample_object (rootName : String) (members : List (String × Json)) :
    ofSample rootName (.object members) =
      .record rootName (ofMembers {rootName} members).1 := by
  rw [ofSample, ofJson, ClaimedNames.freeName_empty]
  rfl

end Outline

/-- A member with a new key that is appended to the root of a sample puts its field line into the
declaration of the root, and the declarations of its observed objects between the others. All other
declarations stay as they are and in their order. -/
theorem Schema.declarations_of_put (rootName : String) {members : List (String × Json)}
    {key : String} (hkey : key ∉ members.map Prod.fst) (value : Json) (style : Go.Style) :
    ∃ schema schema', ∃ addition : Go.Addition,
      Schema.infer? rootName (.object members) = .ok schema ∧
      Schema.infer? rootName (.object (Json.put key value members)) = .ok schema' ∧
      style.declarations schema = .ok (addition.original rootName) ∧
      style.declarations schema' = .ok (addition.extended rootName) ∧
      style.RootLines schema (addition.above ++ addition.below) ∧
      style.RootLines schema' (addition.above ++ addition.line :: addition.below) ∧
      style.RootLine schema' key addition.line ∧
      ∃ objects, objects.Perm (value.objects (Go.nameOfKey key)) ∧
        List.Forall₂ (Outline.DeclaresObject style.indentation.text) objects addition.added := by
  have hput : Json.put key value members = members ++ [(key, value)] := Keyed.put_of_notMem hkey
  rw [hput]
  have hroot := Outline.ofSample_object rootName members
  have hroot' := Outline.ofSample_object rootName (members ++ [(key, value)])
  rw [Outline.ofMembers_concat] at hroot'
  -- the names in use behind the other members are those that the new one is named with
  generalize (Outline.ofMembers {rootName} members).2 = used at hroot'
  generalize (Outline.ofMembers {rootName} members).1 = outlines at hroot hroot'
  obtain ⟨addition, hline, hadded, hlines, hlines', hblocks, hblocks'⟩ :=
    Outline.exists_addition style.indentation.text rootName outlines
      (key, (Outline.ofJson used (Go.nameOfKey key) value).1)
  refine ⟨_, _, addition, Schema.infer?_object _ _, Schema.infer?_object _ _, ?_⟩
  rw [hroot, hroot', hlines, hlines', hline, hadded, ← hblocks, ← hblocks']
  exact ⟨Outline.declarations_schema _ _, Outline.declarations_schema _ _,
    Outline.rootLines_schema _ _ _, Outline.rootLines_schema _ _ _,
    Outline.rootLine_schema (List.mem_append_right _ List.mem_cons_self) style,
    Outline.exists_forall₂_blocks _ _ _ _⟩

/-- The members of a sample that has a record `Z` beside its root. -/
def shortMembers : List (String × Json) :=
  [("z", .object [("id", .number "1")]), ("b", .boolean true)]

/-- A value whose objects ask for the names `X` and `Z`, which are taken where the root is named `X`
and has the short members. -/
def takenNamesValue : Json := .array [.object [("z", .object [])]]

theorem Schema.declarations_of_put_shortMembers :
    "x" ∉ shortMembers.map Prod.fst ∧
      ∃ schema schema', ∃ addition : Go.Addition,
        Schema.infer? "X" (.object shortMembers) = .ok schema ∧
        Schema.infer? "X" (.object (Json.put "x" takenNamesValue shortMembers)) = .ok schema' ∧
        ({} : Go.Style).declarations schema = .ok (addition.original "X") ∧
        ({} : Go.Style).declarations schema' = .ok (addition.extended "X") ∧
        addition.added.length = 2 := by
  have hkey : "x" ∉ shortMembers.map Prod.fst := by decide
  obtain ⟨schema, schema', addition, hschema, hschema', horiginal, hextended, -, -, -, objects,
    hobjects, hadded⟩ := Schema.declarations_of_put "X" hkey takenNamesValue {}
  have hlength : addition.added.length = 2 := by
    rw [← hadded.length_eq, hobjects.length_eq]
    rfl
  exact ⟨hkey, schema, schema', addition, hschema, hschema', horiginal, hextended, hlength⟩

end StructSketch
