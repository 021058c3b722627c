import Mathlib.Data.List.Count
import StructSketch.Proofs.Generation
import StructSketch.Proofs.RecordNames

/-!
# Declarations are closed under references

* **`Schema.IsClosed`**: the root is declared first, the record that a field of a declared record
  leads to is declared once and after the field, under a name of its own, and every other
  declaration than that of the root has one field that leads to it. A field leads to a record by
  the array links of the table (`TypeTable.Links`), whatever way the walk takes along them.
* **`Outline.isClosed_schema`**: the schema of an outline without repeated names is closed.
* **`declarations_closed`**: the schema of every accepted document is closed, and writing it
  never fails, whatever the style.
-/

namespace StructSketch

open Classical in
/-- The declarations of a schema are closed under references. -/
structure Schema.IsClosed (schema : Schema) : Prop where
  /-- The root is declared first. -/
  first : schema.order.head? = some schema.root
  /-- The record that a field of a declared record leads to, directly or through arrays, is
  declared once, after the field, and no other declaration has its name. -/
  declared : ∀ handle ∈ schema.order, ∀ record,
    schema.table.get? handle = some (.record record) →
    ∀ field ∈ record.fields, ∀ target found,
      schema.table.Links field.type target →
      schema.table.get? target = some (.record found) →
      schema.order.count target = 1 ∧
        (∀ other ∈ schema.order, ∀ record',
          schema.table.get? other = some (.record record') → record'.name = found.name →
            other = target) ∧
        schema.order.idxOf handle < schema.order.idxOf target
  /-- Among the fields of all declared records, one leads to each record but the root. -/
  referred : ∀ handle ∈ schema.order, handle ≠ schema.root →
    (schema.table.fieldsOf schema.order).countP
      (fun field => schema.table.LeadsTo field.type handle) = 1

/-- In a list without repetition, what stands behind has the greater index. -/
theorem idxOf_lt_idxOf_of_sublist {α : Type} [DecidableEq α] {a b : α} {items : List α}
    (hnodup : items.Nodup) (h : [a, b].Sublist items) : items.idxOf a < items.idxOf b := by
  induction items with
  | nil => cases h
  | cons first rest ih =>
    obtain ⟨hfirst, hrest⟩ := List.nodup_cons.mp hnodup
    have hne : ∀ c ∈ rest, first ≠ c := by
      rintro c hc rfl
      exact hfirst hc
    cases h with
    -- both stand in the rest, or the first is the one and the rest has the other
    | cons _ h =>
      have ha := hne a (h.subset List.mem_cons_self)
      have hb := hne b (h.subset (List.mem_cons_of_mem _ List.mem_cons_self))
      rw [List.idxOf_cons_ne _ ha, List.idxOf_cons_ne _ hb]
      exact Nat.succ_lt_succ (ih hrest h)
    | cons_cons _ h =>
      have hb := hne b (List.singleton_sublist.mp h)
      rw [List.idxOf_cons_self, List.idxOf_cons_ne _ hb]
      exact Nat.succ_pos _

/-- The schema of a record without repeated names is closed. -/
theorem Outline.isClosed_schema {name : String} {members : List (String × Outline)}
    (hnames : (Outline.record name members).names.Nodup) :
    (Outline.record name members).schema.IsClosed := by
  have hheld := (Outline.record name members).holds_laidOut
  have hpreorder := hheld.preorder
  have hnodup := (Outline.record name members).nodup_order_laidOut
  have hroot := TypeTable.targetRecord?_of_record hheld.get?_record
  have harrays := (Outline.record name members).arraysDescend_schema
  rw [← order_schema] at hpreorder hnodup
  refine ⟨hpreorder.head?_eq hroot, ?_, ?_⟩
  · intro handle hmem record hrecord field hfield target found hlinks hlive
    -- the walk follows the links of a field to their end
    have htarget := (TypeTable.targetRecord?_eq_some_iff harrays).mpr ⟨hlinks, hlive⟩
    have hsublist := hpreorder.sublist_of_field hmem hrecord hfield htarget
    refine ⟨?_, ?_, idxOf_lt_idxOf_of_sublist hnodup hsublist⟩
    · exact List.count_eq_one_of_mem hnodup (mem_order_schema.mpr ⟨found, hlive⟩)
    · intro other _ record' hother hname
      exact handle_eq_of_name_eq hnames hother hlive hname
  · classical
    intro handle hmem hother
    rw [← hpreorder.countP_fieldsOf hroot hnodup hmem hother]
    refine List.countP_congr fun field _ => ?_
    rw [decide_eq_true_iff, TypeTable.leadsTo_iff harrays, beq_iff_eq, Option.map_eq_some_iff]
    simp

/-- The declarations of every accepted document are closed under references, and they can be
written in every style: one for each record in the order of the schema, a line for each field.
So nothing that is read makes `generate` end with a failed device. -/
theorem declarations_closed (rootName : String) (sample : List UInt8) (style : Go.Style) :
    (∀ reason, generate rootName sample ≠ .error (.device reason)) ∧
      ∀ schema, Schema.ofSample rootName sample = .ok schema →
        schema.IsClosed ∧ (∃ text, generate rootName sample = .ok text) ∧
          ∃ declarations, style.declarations schema = .ok declarations ∧
            style.source schema = .ok ⟨style.header, String.join declarations⟩ ∧
            List.Forall₂ (style.Declares schema.table) schema.order declarations := by
  refine ⟨generate_ne_device rootName sample, ?_⟩
  intro schema hschema
  obtain ⟨members, hparse, rfl⟩ := Schema.ofSample_eq_ok.mp hschema
  have hnames := Outline.nodup_names_ofSample rootName (.object members)
  exact ⟨Outline.isClosed_schema hnames, ⟨_, generate_of_ofSample hparse⟩, _,
    Outline.declarations_schema _ style, Outline.source_schema _ style,
    Outline.declares_schema _ style⟩

theorem declarations_closed_colliding :
    Schema.ofSample "X" collidingDocument =
        .ok (Outline.ofSample "X" (.object collidingMembers)).schema ∧
      (Outline.ofSample "X" (.object collidingMembers)).schema.IsClosed :=
  have h := Schema.ofSample_eq_ok.mpr ⟨_, parse_collidingDocument, rfl⟩
  ⟨h, ((declarations_closed "X" collidingDocument { indentation := .spaces 4 }).2 _ h).1⟩

end StructSketch
