import StructSketch.Proofs.Generation
import StructSketch.Proofs.Grammar.Completeness
import StructSketch.Proofs.Grammar.Soundness

/-!
# Accepted documents

* **`Schema.ofSample_of_document`** and **`Schema.ofSample_of_noDocument`**: the grammar tells what
  becomes of a text: a document is inferred from its tree, and any other text is malformed.
* **`Schema.ofSample_iff_document`**: so the three outcomes of a text are three facts of the
  grammar.
* **`Grammar.Element.untagged`**: a text without dollar signs and without the letter `u` has no
  object that stands for a number.
-/

namespace StructSketch

open Json.Grammar (Document)

/-- A value that is no object is refused with its kind. -/
theorem Schema.infer?_of_kind_ne {rootName : String} {sample : Json}
    (h : sample.kind ≠ .object) : Schema.infer? rootName sample = .error sample.kind := by
  cases sample with
  | object members => exact absurd rfl h
  | _ => rfl

/-- What is inferred from a document of the grammar is inferred from its tree. -/
theorem Schema.ofSample_of_document {rootName : String} {text : List UInt8} {tree : Json}
    (h : Document text tree) (htree : tree.Untagged) :
    Schema.ofSample rootName text =
      (Schema.infer? rootName tree.merged).mapError .rootNotObject := by
  rw [Schema.ofSample, Json.Grammar.Document.parse h htree]

theorem Schema.ofSample_of_noDocument {rootName : String} {text : List UInt8}
    (h : ∀ tree, ¬ Document text tree) :
    ∃ what, Schema.ofSample rootName text = .error (.malformed what) := by
  cases hparse : Json.parse text with
  | ok document =>
    obtain ⟨tree, hdocument, _⟩ := Json.Grammar.exists_document hparse
    exact absurd hdocument (h tree)
  | error what => exact ⟨what, by rw [Schema.ofSample, hparse]⟩

theorem Schema.ofSample_of_object (rootName : String) {text : List UInt8}
    {members : List (String × Json)} (h : Document text (.object members))
    (htree : (Json.object members).Untagged) :
    ∃ schema, Schema.infer? rootName (Json.object members).merged = .ok schema ∧
      Schema.ofSample rootName text = .ok schema := by
  rw [Schema.ofSample_of_document h htree, Json.merged_object, Schema.infer?_object]
  exact ⟨_, rfl, rfl⟩

theorem Schema.ofSample_of_otherKind {rootName : String} {text : List UInt8} {tree : Json}
    (h : Document text tree) (htree : tree.Untagged) (hkind : tree.kind ≠ .object) :
    Schema.ofSample rootName text = .error (.rootNotObject tree.kind) := by
  rw [← Json.kind_merged] at hkind ⊢
  rw [Schema.ofSample_of_document h htree, Schema.infer?_of_kind_ne hkind]
  rfl

/-- A text is an object, a document with another value, or no document. -/
theorem Schema.ofSample_outcome (rootName : String) {text : List UInt8}
    (hplain : ∀ tree, Document text tree → tree.Untagged) :
    (∃ members schema, Document text (.object members) ∧
        Schema.ofSample rootName text = .ok schema) ∨
      (∃ tree, Document text tree ∧ tree.kind ≠ .object ∧
        Schema.ofSample rootName text = .error (.rootNotObject tree.kind)) ∨
      (∀ tree, ¬ Document text tree) ∧
        ∃ what, Schema.ofSample rootName text = .error (.malformed what) := by
  by_cases hdocument : ∃ tree, Document text tree
  · obtain ⟨tree, h⟩ := hdocument
    by_cases hkind : tree.kind = .object
    · cases tree with
      | object members =>
        obtain ⟨schema, _, hschema⟩ := Schema.ofSample_of_object rootName h (hplain _ h)
        exact .inl ⟨members, schema, h, hschema⟩
      | _ => cases hkind
    · exact .inr (.inl ⟨tree, h, hkind, Schema.ofSample_of_otherKind h (hplain _ h) hkind⟩)
  · have hnone := not_exists.mp hdocument
    exact .inr (.inr ⟨hnone, Schema.ofSample_of_noDocument hnone⟩)

/-- A text of which no object stands for a number is accepted exactly if it is a document whose
value is an object, and its schema is inferred from the tree of the document, in which each key of
an object stands once, in its first place and with its last value. The text is refused with the
kind of its value exactly if it is a document with another value, and it is malformed exactly if
it is no document. -/
theorem Schema.ofSample_iff_document (rootName : String) (text : List UInt8)
    (hplain : ∀ tree, Document text tree → tree.Untagged) :
    (∀ tree tree', Document text tree → Document text tree' → tree.merged = tree'.merged) ∧
    ((∃ schema, Schema.ofSample rootName text = .ok schema) ↔
      ∃ members, Document text (.object members)) ∧
    (∀ schema, Schema.ofSample rootName text = .ok schema ↔
      ∃ members, Document text (.object members) ∧
        Schema.infer? rootName (Json.object members).merged = .ok schema) ∧
    (∀ kind, Schema.ofSample rootName text = .error (.rootNotObject kind) ↔
      kind ≠ .object ∧ ∃ tree, Document text tree ∧ tree.kind = kind) ∧
    ((∃ what, Schema.ofSample rootName text = .error (.malformed what)) ↔
      ∀ tree, ¬ Document text tree) := by
  have houtcome := Schema.ofSample_outcome rootName hplain
  have hobject := fun members (h : Document text (.object members)) =>
    Schema.ofSample_of_object rootName h (hplain _ h)
  refine ⟨?_, ⟨?_, ?_⟩, fun schema => ⟨?_, ?_⟩, fun kind => ⟨?_, ?_⟩,
    ⟨?_, Schema.ofSample_of_noDocument⟩⟩
  · intro tree tree' h h'
    have hread := Json.Grammar.Document.parse h (hplain tree h)
    rw [Json.Grammar.Document.parse h' (hplain tree' h')] at hread
    exact (Except.ok.inj hread).symm
  · rintro ⟨schema, h⟩
    rcases houtcome with ⟨members, _, hmembers, _⟩ | ⟨tree, _, _, hkind⟩ | ⟨_, what, hwhat⟩
    · exact ⟨members, hmembers⟩
    · cases h.symm.trans hkind
    · cases h.symm.trans hwhat
  · rintro ⟨members, h⟩
    obtain ⟨schema, _, hschema⟩ := hobject members h
    exact ⟨schema, hschema⟩
  · intro h
    rcases houtcome with ⟨members, _, hmembers, _⟩ | ⟨tree, _, _, hkind⟩ | ⟨_, what, hwhat⟩
    · obtain ⟨schema', hinfer, hschema⟩ := hobject members hmembers
      cases h.symm.trans hschema
      exact ⟨members, hmembers, hinfer⟩
    · cases h.symm.trans hkind
    · cases h.symm.trans hwhat
  · rintro ⟨members, h, hinfer⟩
    obtain ⟨schema', hinfer', hschema⟩ := hobject members h
    cases hinfer.symm.trans hinfer'
    exact hschema
  · intro h
    rcases houtcome with ⟨_, _, _, hschema⟩ | ⟨tree, htree, hkind, hfound⟩ | ⟨_, what, hwhat⟩
    · cases h.symm.trans hschema
    · cases h.symm.trans hfound
      exact ⟨hkind, tree, htree, rfl⟩
    · cases h.symm.trans hwhat
  · rintro ⟨hkind, tree, h, rfl⟩
    exact Schema.ofSample_of_otherKind h (hplain tree h) hkind
  · rintro ⟨what, h⟩
    rcases houtcome with ⟨_, _, _, hschema⟩ | ⟨_, _, _, hkind⟩ | ⟨hnone, _⟩
    · cases h.symm.trans hschema
    · cases h.symm.trans hkind
    · exact hnone

/-! ## Documents without tags -/

namespace Json.Grammar

/-- No dollar sign, and no letter that an escape needs to stand for one. -/
def Plain (text : List UInt8) : Prop := 0x24 ∉ text ∧ 0x75 ∉ text

theorem plain_append {first second : List UInt8} :
    Plain (first ++ second) ↔ Plain first ∧ Plain second := by
  simp only [Plain, List.mem_append, not_or]
  tauto

theorem plain_cons {byte : UInt8} {text : List UInt8} (h : Plain (byte :: text)) : Plain text :=
  (plain_append.mp (by exact h : Plain ([byte] ++ text))).2

theorem HexEscape.mem {text : List UInt8} {number : Nat} (h : HexEscape text number) :
    0x75 ∈ text := by
  cases h
  simp

theorem Character.ne_dollar {text : List UInt8} {c : Char} (h : Character text c)
    (hplain : Plain text) : c ≠ '$' := by
  rintro rfl
  cases h with
  | unescaped => exact hplain.1 (by decide)
  | escaped h =>
    cases h with
    | letter hletter => simp [escapeLetters] at hletter
    | code h => exact hplain.2 h.mem
    | pair h => exact hplain.2 (List.mem_append_left _ h.mem)

theorem Characters.dollar_notMem {text : List UInt8} {cs : List Char} (h : Characters text cs)
    (hplain : Plain text) : '$' ∉ cs := by
  induction h with
  | nil => exact List.not_mem_nil
  | cons hfirst _ ih =>
    obtain ⟨hhead, hrest⟩ := plain_append.mp hplain
    exact List.not_mem_cons_of_ne_of_not_mem (hfirst.ne_dollar hhead).symm (ih hrest)

theorem Quoted.ne_numberTag {text : List UInt8} {name : String} (h : Quoted text name)
    (hplain : Plain text) : name ≠ numberTag := by
  rintro rfl
  cases h with
  | quotes h =>
    have hspelled := (plain_append.mp (plain_cons hplain)).1
    exact absurd (h.dollar_notMem hspelled) (by decide)

mutual

theorem Value.untagged {text : List UInt8} {tree : Json} : Value text tree → Plain text →
    tree.Untagged
  | .nullWord, _ => trivial
  | .trueWord, _ => trivial
  | .falseWord, _ => trivial
  | .number _, _ => trivial
  | .string _, _ => trivial
  | .emptyArray _, _ => untagged_array.mpr nofun
  | .array h, hplain => untagged_array.mpr (h.untagged (plain_append.mp (plain_cons hplain)).1)
  | .emptyObject _, _ => untagged_object.mpr ⟨nofun, nofun⟩
  | .object h, hplain => by
    have hmembers := h.untagged (plain_append.mp (plain_cons hplain)).1
    refine untagged_object.mpr ⟨fun first hfirst => ?_, fun m hm => (hmembers m hm).2⟩
    exact (hmembers first (List.mem_of_mem_head? hfirst)).1

theorem Element.untagged {text : List UInt8} {tree : Json} : Element text tree → Plain text →
    tree.Untagged
  | .padded _ h _, hplain => h.untagged (plain_append.mp (plain_append.mp hplain).2).1

theorem Elements.untagged {text : List UInt8} {items : List Json} : Elements text items →
    Plain text → ∀ item ∈ items, item.Untagged
  | .one h, hplain => List.forall_mem_singleton.mpr (h.untagged hplain)
  | .more h hlast, hplain => by
    obtain ⟨htext, hrest⟩ := plain_append.mp hplain
    exact List.forall_mem_append.mpr ⟨h.untagged htext,
      List.forall_mem_singleton.mpr (hlast.untagged (plain_cons hrest))⟩

theorem Member.untagged {text : List UInt8} {member : String × Json} : Member text member →
    Plain text → member.1 ≠ numberTag ∧ member.2.Untagged
  | .pair _ hkey _ hvalue, hplain => by
    obtain ⟨hname, hrest⟩ := plain_append.mp (plain_append.mp hplain).2
    exact ⟨hkey.ne_numberTag hname, hvalue.untagged (plain_cons (plain_append.mp hrest).2)⟩

theorem Members.untagged {text : List UInt8} {members : List (String × Json)} :
    Members text members → Plain text →
    ∀ member ∈ members, member.1 ≠ numberTag ∧ member.2.Untagged
  | .one h, hplain => List.forall_mem_singleton.mpr (h.untagged hplain)
  | .more h hlast, hplain => by
    obtain ⟨htext, hrest⟩ := plain_append.mp hplain
    exact List.forall_mem_append.mpr ⟨h.untagged htext,
      List.forall_mem_singleton.mpr (hlast.untagged (plain_cons hrest))⟩

end

end Json.Grammar

/-- A document with blanks, nested containers, an escape, a character beyond ASCII and a repeated
key. -/
def repeatedKey : List UInt8 :=
  Text.bytes " \x7b\"k\":[1.5e-3, \"\\n\"],\"x\":\x7b\x7d,\"k\":\"\u00e9\"\x7d "

/-- The schema of that document: the first key has its last value. -/
def repeatedKeySchema : Schema :=
  (Outline.ofSample "X" (.object [("k", .string "\u00e9"), ("x", .object [])])).schema

theorem Schema.ofSample_repeatedKey : Schema.ofSample "X" repeatedKey = .ok repeatedKeySchema := by
  have hparse : Json.parse repeatedKey =
      .ok (.object [("k", .string "\u00e9"), ("x", .object [])]) := by
    with_unfolding_all rfl
  exact Schema.ofSample_eq_ok.mpr ⟨_, hparse, rfl⟩

theorem Schema.ofSample_iff_document_repeatedKey :
    (∀ tree, Document repeatedKey tree → tree.Untagged) ∧
      ∃ members, Document repeatedKey (.object members) ∧
        Schema.infer? "X" (Json.object members).merged = .ok repeatedKeySchema :=
  have hplain : ∀ tree, Document repeatedKey tree → tree.Untagged := fun _ h =>
    Json.Grammar.Element.untagged h ⟨by decide, by decide⟩
  have hiff := Schema.ofSample_iff_document "X" repeatedKey hplain
  ⟨hplain, (hiff.2.2.1 repeatedKeySchema).mp Schema.ofSample_repeatedKey⟩

end StructSketch
