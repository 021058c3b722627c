import StructSketch.Generate
import StructSketch.Proofs.Rendering
import StructSketch.Proofs.WellFormed

/-!
# From a document to its declarations

* **`Schema.ofSample_eq_ok`**: a document is accepted exactly if it is read as an object, and its
  schema is then that of the outline of the object.
* **`generate_eq_text`**: the declarations of a document are the text of the outline of what was
  read. The outline has no table, no handles and no list of what was seen, so this is the
  meaning of the whole way from a document to its declarations.
-/

namespace StructSketch

/-- The accepted documents are those that are read as an object. -/
theorem Schema.ofSample_eq_ok {rootName : String} {sample : List UInt8} {schema : Schema} :
    Schema.ofSample rootName sample = .ok schema ↔
      ∃ members, Json.parse sample = .ok (.object members) ∧
        schema = (Outline.ofSample rootName (.object members)).schema := by
  unfold Schema.ofSample
  constructor
  · intro h
    split at h
    · rename_i json hparse
      cases json with
      | object members =>
        rw [Schema.infer?_object] at h
        cases h
        exact ⟨members, hparse, rfl⟩
      | _ => cases h
    · cases h
  · rintro ⟨members, hparse, rfl⟩
    simp only [hparse, Schema.infer?_object]
    rfl

theorem Outline.source_schema (o : Outline) (style : Go.Style) :
    style.source o.schema = .ok ⟨style.header, o.text style.indentation.text⟩ := by
  rw [Go.Style.source, o.declarations_schema]
  rfl

theorem generate_of_ofSample {rootName : String} {sample : List UInt8}
    {members : List (String × Json)} (h : Json.parse sample = .ok (.object members)) :
    generate rootName sample =
      .ok ((Outline.ofSample rootName (.object members)).text "\t") := by
  have hschema : Schema.ofSample rootName sample =
      .ok (Outline.ofSample rootName (.object members)).schema :=
    Schema.ofSample_eq_ok.mpr ⟨members, h, rfl⟩
  rw [generate, hschema]
  simp only [Outline.source_schema]
  rfl

/-- Behind the text of a sample stand the declarations of its schema, whatever the options are. -/
theorem exists_declarations_of_generate {rootName : String} {sample : List UInt8} {text : String}
    (h : generate rootName sample = .ok text) (options : Go.FileOptions) :
    ∃ schema texts, Schema.ofSample rootName sample = .ok schema ∧
      options.style.declarations schema = .ok texts ∧ String.join texts = text := by
  cases hschema : Schema.ofSample rootName sample with
  | error failure =>
    rw [generate, hschema] at h
    cases h
  | ok schema =>
    obtain ⟨members, hparse, rfl⟩ := Schema.ofSample_eq_ok.mp hschema
    rw [generate_of_ofSample hparse] at h
    exact ⟨_, _, rfl, Outline.declarations_schema _ _, Except.ok.inj h⟩

/-- A sample that has no text has no schema either, for the same reason. -/
theorem ofSample_of_generate_eq_error {rootName : String} {sample : List UInt8}
    {failure : Failure} (h : generate rootName sample = .error failure) :
    Schema.ofSample rootName sample = .error failure := by
  cases hschema : Schema.ofSample rootName sample with
  | error other =>
    rw [generate, hschema] at h
    cases h
    rfl
  | ok schema =>
    obtain ⟨members, hparse, rfl⟩ := Schema.ofSample_eq_ok.mp hschema
    rw [generate_of_ofSample hparse] at h
    cases h

/-- Nothing can be declared of an empty sample. -/
theorem exists_generate_nil (rootName : String) :
    ∃ failure, generate rootName [] = .error failure := ⟨_, rfl⟩

/-- No run of `generate` ends with a failed device. -/
theorem generate_ne_device (rootName : String) (sample : List UInt8) (reason : String) :
    generate rootName sample ≠ .error (.device reason) := by
  unfold generate
  split
  · rename_i schema hschema
    obtain ⟨members, _, rfl⟩ := Schema.ofSample_eq_ok.mp hschema
    intro h
    rw [Outline.source_schema] at h
    cases h
  · rename_i failure hfailure
    intro h
    cases h
    -- reading and inference fail with a fault of the sample alone
    unfold Schema.ofSample at hfailure
    split at hfailure
    · rename_i json _
      cases hinfer : Schema.infer? rootName json with
      | ok schema =>
        rw [hinfer] at hfailure
        cases hfailure
      | error kind =>
        rw [hinfer] at hfailure
        cases hfailure
    · cases hfailure

/-- The declarations of a document whose root is an object are the text of the outline of that
object, in which no object has a key twice. -/
theorem generate_eq_text {rootName : String} {sample : List UInt8}
    {members : List (String × Json)} (h : Json.parse sample = .ok (.object members)) :
    (Json.object members).WellKeyed ∧
      generate rootName sample =
        .ok ((Outline.ofSample rootName (.object members)).text "\t") :=
  ⟨Json.wellKeyed_of_parse h, generate_of_ofSample h⟩

/-- A document in which two objects ask for the name `X` of the root, and a third one asks for the
numbered name that the first of them gets. -/
def collidingDocument : List UInt8 :=
  Text.bytes "\x7b\"x\":[\x7b\"x\":\x7b\x7d\x7d,1],\"x2\":\x7b\"y\":1\x7d\x7d"

/-- The members of the colliding document. -/
def collidingMembers : List (String × Json) :=
  [("x", .array [.object [("x", .object [])], .number "1"]), ("x2", .object [("y", .number "1")])]

theorem parse_collidingDocument :
    Json.parse collidingDocument = .ok (.object collidingMembers) := by
  with_unfolding_all rfl

theorem generate_eq_text_colliding :
    Json.parse collidingDocument = .ok (.object collidingMembers) ∧
      generate "X" collidingDocument =
        .ok ((Outline.ofSample "X" (.object collidingMembers)).text "\t") :=
  ⟨parse_collidingDocument, (generate_eq_text parse_collidingDocument).2⟩

end StructSketch
