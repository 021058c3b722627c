import StructSketch.Proofs.Generation

/-!
# Samples that are alike

Inference looks at the kind of a value and at the class of a number, and of an array at the first
item alone. What a string says, which of the two booleans a boolean is, which number a literal
denotes and what else is in an array reaches neither the table nor the names in use.

* **`Json.Alike`** relates values that differ in nothing but that.
* **`Draft.infer_eq_of_alike`**: inference does the same with values that are alike, whatever was
  inferred before: it gives the same handle, the same table and the same names in use.
* **`Schema.ofSample_of_alike`**: so documents that are read as values that are alike have one
  schema and one text, however they are spelled.
-/

namespace StructSketch

namespace Json

mutual

/-- Values that differ only in what inference does not look at. -/
inductive Alike : Json → Json → Prop
  | null : Alike .null .null
  | boolean {value value'} : Alike (.boolean value) (.boolean value')
  | number {literal literal'} : Scalar.ofNumber literal = Scalar.ofNumber literal' →
      Alike (.number literal) (.number literal')
  | string {text text'} : Alike (.string text) (.string text')
  | emptyArray : Alike (.array []) (.array [])
  | array {item item' rest rest'} : Alike item item' →
      Alike (.array (item :: rest)) (.array (item' :: rest'))
  | object {members members'} : AlikeMembers members members' →
      Alike (.object members) (.object members')

/-- Lists of members with the same keys in the same places, over values that are alike. -/
inductive AlikeMembers : List (String × Json) → List (String × Json) → Prop
  | nil : AlikeMembers [] []
  | cons {key value value' rest rest'} : Alike value value' → AlikeMembers rest rest' →
      AlikeMembers ((key, value) :: rest) ((key, value') :: rest')

end

end Json

namespace Draft

mutual

/-- Inference does the same with values that are alike, whatever the table holds and whatever names
are in use. -/
theorem infer_eq_of_alike (draft : Draft) (base : String) : (value : Json) → {value' : Json} →
    value.Alike value' → draft.infer base value = draft.infer base value'
  | .null, _, .null => rfl
  | .boolean _, _, .boolean => rfl
  | .number _, _, .number hclass => by rw [infer, infer, hclass]
  | .string _, _, .string => rfl
  | .array [], _, .emptyArray => rfl
  | .array (item :: _), _, .array hitem => by
    rw [infer, infer, infer_eq_of_alike draft base item hitem]
  | .object members, _, .object hmembers => by
    rw [infer, infer]
    simp only [inferFields_eq_of_alike _ members hmembers]

theorem inferFields_eq_of_alike (draft : Draft) : (members : List (String × Json)) →
    {members' : List (String × Json)} → Json.AlikeMembers members members' →
    draft.inferFields members = draft.inferFields members'
  | [], _, .nil => rfl
  | (key, value) :: rest, _, .cons hvalue hrest => by
    rw [inferFields, inferFields, infer_eq_of_alike draft _ value hvalue]
    simp only [inferFields_eq_of_alike _ rest hrest]

end

end Draft

namespace Schema

variable {rootName : String} {json json' : Json}

/-- Values that are alike have one schema, or fail with the same kind of a root. -/
theorem infer?_eq_of_alike (h : json.Alike json') :
    infer? rootName json = infer? rootName json' := by
  have hinfer := Draft.infer_eq_of_alike Draft.new rootName json h
  cases h with
  | object _ =>
    rw [infer?, infer?]
    simp only [hinfer]
  | _ => rfl

/-- Documents that are read as values that are alike have one schema, the same entries in the same
places, and one text. -/
theorem ofSample_of_alike {sample sample' : List UInt8} {schema : Schema}
    (hparse : Json.parse sample = .ok json) (hparse' : Json.parse sample' = .ok json')
    (halike : json.Alike json') (hschema : Schema.ofSample rootName sample = .ok schema) :
    Schema.ofSample rootName sample' = .ok schema ∧
      ∃ text, generate rootName sample = .ok text ∧ generate rootName sample' = .ok text := by
  have hsame : Schema.ofSample rootName sample' = .ok schema := by
    rw [← hschema, ofSample, ofSample, hparse, hparse']
    show (infer? rootName json').mapError _ = (infer? rootName json).mapError _
    rw [infer?_eq_of_alike halike]
  obtain ⟨members, hmembers, rfl⟩ := ofSample_eq_ok.mp hschema
  have htext := @generate_of_ofSample rootName _ _ hmembers
  refine ⟨hsame, _, htext, ?_⟩
  rw [← htext, generate, generate, hsame, hschema]

end Schema

/-- A document in which an item behind the first one of an array asks for the name of the last
member. -/
def tailedDocument : List UInt8 :=
  Text.bytes <|
    "\x7b\"a\":\"x\",\"n\":1,\"l\":[\x7b\"f\":1.5\x7d,\x7b\"o\":\x7b\x7d\x7d]," ++
      "\"o\":\x7b\"b\":true\x7d\x7d"

/-- The members of the document with the tail. -/
def tailedMembers : List (String × Json) :=
  [("a", .string "x"), ("n", .number "1"),
    ("l", .array [.object [("f", .number "1.5")], .object [("o", .object [])]]),
    ("o", .object [("b", .boolean true)])]

/-- A document that is spelled otherwise, with another text, other numbers of the same classes,
another boolean and no second item. -/
def respelledDocument : List UInt8 :=
  Text.bytes <|
    "\x7b \"\\u0061\": \"\\n\",\n  \"n\": -20,\n  \"l\": [\x7b\"f\": 1e3\x7d],\n" ++
      "  \"\\u006f\": \x7b\"b\": false\x7d\n\x7d\n"

/-- The members of the respelled document. -/
def respelledMembers : List (String × Json) :=
  [("a", .string "\n"), ("n", .number "-20"), ("l", .array [.object [("f", .number "1e3")]]),
    ("o", .object [("b", .boolean false)])]

theorem parse_tailedDocument : Json.parse tailedDocument = .ok (.object tailedMembers) := by
  with_unfolding_all rfl

theorem parse_respelledDocument :
    Json.parse respelledDocument = .ok (.object respelledMembers) := by
  with_unfolding_all rfl

theorem alike_tailedMembers : (Json.object tailedMembers).Alike (.object respelledMembers) :=
  .object (.cons .string (.cons (.number (by decide))
    (.cons (.array (.object (.cons (.number (by decide)) .nil)))
      (.cons (.object (.cons .boolean .nil)) .nil))))

theorem Schema.ofSample_of_alike_tailedDocument :
    tailedDocument ≠ respelledDocument ∧
      (Json.object tailedMembers).Alike (.object respelledMembers) ∧
      ∃ schema text, Schema.ofSample "Root" tailedDocument = .ok schema ∧
        Schema.ofSample "Root" respelledDocument = .ok schema ∧
        generate "Root" tailedDocument = .ok text ∧
        generate "Root" respelledDocument = .ok text := by
  have hschema : Schema.ofSample "Root" tailedDocument =
      .ok (Outline.ofSample "Root" (.object tailedMembers)).schema :=
    Schema.ofSample_eq_ok.mpr ⟨tailedMembers, parse_tailedDocument, rfl⟩
  obtain ⟨hschema', text, htext, htext'⟩ := Schema.ofSample_of_alike parse_tailedDocument
    parse_respelledDocument alike_tailedMembers hschema
  exact ⟨by decide, alike_tailedMembers, _, text, hschema, hschema', htext, htext'⟩

end StructSketch
