import StructSketch.Proofs.Layout

/-!
# What inference puts into the table

Inference never removes anything, so its table is a list of entries, and what it appends for a
value is the layout of the outline of that value.

* **`Draft.infer_shows`**: inferring a value appends the nodes of its outline, claims the names
  of its outline, and gives out the root of the layout.
* **`Schema.infer?_object`**: the schema of a sample is the schema of its outline, the scalars
  followed by the nodes.
* **`Outline.live_schema`** and **`Outline.get?_schema`** say what is live in that schema.
-/

namespace StructSketch

namespace Draft

/-- The table of a draft is a list of entries, and its claimed names are a set. -/
structure Shows (draft : Draft) (entries : List Entry) (used : Finset String) : Prop where
  table : draft.table = .ofEntries entries
  names : draft.claimed.names = used

theorem shows_new : Draft.new.Shows (Scalar.all.map .scalar) ∅ :=
  ⟨TypeTable.new_eq, ClaimedNames.names_empty⟩

theorem Shows.insert {draft : Draft} {entries : List Entry} {used : Finset String}
    (h : draft.Shows entries used) (entry : Entry) :
    (draft.insert entry).1 = .nth entries.length ∧
      (draft.insert entry).2.Shows (entries ++ [entry]) used := by
  unfold Draft.insert
  rw [h.table, TypeTable.insert_ofEntries]
  exact ⟨rfl, rfl, h.names⟩

theorem Shows.claim {draft : Draft} {entries : List Entry} {used : Finset String}
    (h : draft.Shows entries used) (base : String) :
    (draft.claim base).1 = ClaimedNames.freeName used base ∧
      (draft.claim base).2.Shows entries
        (Insert.insert (ClaimedNames.freeName used base) used) := by
  obtain ⟨htable, rfl⟩ := h
  exact ⟨ClaimedNames.choose_eq_freeName _ _, htable, ClaimedNames.names_claim _ _⟩

theorem Shows.append_nil {draft : Draft} {entries : List Entry} {used : Finset String}
    (h : draft.Shows entries used) : draft.Shows (entries ++ []) used := by
  rwa [List.append_nil]

mutual

/-- Inferring a value appends the layout of its outline. -/
theorem infer_shows {draft : Draft} {entries : List Entry} {used : Finset String}
    (h : draft.Shows entries used) (base : String) : (value : Json) →
    (draft.infer base value).1 =
        ((Outline.ofJson used base value).1.layout entries.length).1.root ∧
      (draft.infer base value).2.Shows
        (entries ++ ((Outline.ofJson used base value).1.layout entries.length).1.nodes.map
          Prod.snd)
        (Outline.ofJson used base value).2
  | .null => ⟨rfl, h.append_nil⟩
  | .boolean _ => ⟨rfl, h.append_nil⟩
  | .number literal => ⟨rfl, h.append_nil⟩
  | .string _ => ⟨rfl, h.append_nil⟩
  | .array [] => h.insert (.array Scalar.any.handle)
  | .array (item :: _) => by
    obtain ⟨hroot, hitem⟩ := infer_shows h base item
    obtain ⟨hhandle, hshows⟩ := hitem.insert (.array (draft.infer base item).1)
    rw [List.length_append, List.length_map, ← Outline.layout_next] at hhandle
    refine ⟨hhandle, ?_⟩
    simpa only [infer, Outline.ofJson, Outline.layout, Layout.nodes, List.map_append,
      List.map_singleton, List.append_assoc, hroot] using hshows
  | .object members => by
    -- the members are inferred with the name claimed, and the record comes in behind their nodes
    obtain ⟨hname, hclaim⟩ := h.claim base
    obtain ⟨hfields, hmembers⟩ := inferFields_shows hclaim members
    obtain ⟨hhandle, hshows⟩ := hmembers.insert
      (.record ⟨(draft.claim base).1, ((draft.claim base).2.inferFields members).1⟩)
    rw [List.length_append, List.length_map, ← Outline.layoutMembers_next] at hhandle
    refine ⟨hhandle, ?_⟩
    simpa only [infer, Outline.ofJson, Outline.layout, Layout.nodes, List.map_append,
      List.map_singleton, List.append_assoc, hname, hfields] using hshows

theorem inferFields_shows {draft : Draft} {entries : List Entry} {used : Finset String}
    (h : draft.Shows entries used) : (members : List (String × Json)) →
    (draft.inferFields members).1 =
        (Outline.layoutMembers entries.length (Outline.ofMembers used members).1).1.map
          Layout.field ∧
      (draft.inferFields members).2.Shows
        (entries ++ (Layout.memberNodes
          (Outline.layoutMembers entries.length (Outline.ofMembers used members).1).1).map
            Prod.snd)
        (Outline.ofMembers used members).2
  | [] => ⟨rfl, h.append_nil⟩
  | (key, value) :: rest => by
    obtain ⟨hroot, hvalue⟩ := infer_shows h (Go.nameOfKey key) value
    obtain ⟨hfields, hrest⟩ := inferFields_shows hvalue rest
    rw [List.length_append, List.length_map, ← Outline.layout_next] at hfields hrest
    refine ⟨congrArg₂ List.cons (congrArg (Field.mk key _) hroot) hfields, ?_⟩
    simpa only [inferFields, Outline.ofMembers, Outline.layoutMembers, Layout.memberNodes,
      List.map_append, List.append_assoc] using hrest

end

end Draft

namespace Outline

/-- The layout of an outline behind the scalars. -/
def laidOut (o : Outline) : Layout := (o.layout Scalar.all.length).1

/-- The schema of an outline: the scalars and the nodes. -/
def schema (o : Outline) : Schema :=
  ⟨.ofEntries (Scalar.all.map .scalar ++ o.laidOut.nodes.map Prod.snd), o.laidOut.root⟩

@[simp]
theorem outline_laidOut (o : Outline) : o.laidOut.outline = o := outline_layout _ o

theorem handles_laidOut (o : Outline) :
    o.laidOut.nodes.map Prod.fst =
      (List.range' Scalar.all.length o.laidOut.nodes.length).map Handle.nth :=
  handles_layout _ o

theorem nodup_handles_laidOut (o : Outline) : (o.laidOut.nodes.map Prod.fst).Nodup := by
  rw [handles_laidOut]
  exact List.Nodup.map Handle.nth_injective List.nodup_range'

theorem scalars_le_of_mem {o : Outline} {p : Handle × Entry} (hp : p ∈ o.laidOut.nodes) :
    Scalar.all.length ≤ p.1.serial := by
  have hmem := List.mem_map_of_mem (f := Prod.fst) hp
  rw [handles_laidOut] at hmem
  obtain ⟨number, hnumber, heq⟩ := List.mem_map.mp hmem
  rw [← heq]
  exact (List.mem_range'_1.mp hnumber).1

/-- A list whose handles count up is numbered by counting. -/
theorem mapIdx_eq_of_handles {nodes : List (Handle × Entry)} {first : Nat}
    (h : nodes.map Prod.fst = (List.range' first nodes.length).map Handle.nth) :
    (nodes.map Prod.snd).mapIdx (fun i entry => (Handle.nth (i + first), entry)) = nodes := by
  induction nodes generalizing first with
  | nil => rfl
  | cons p rest ih =>
    rw [List.length_cons, List.range'_succ, List.map_cons, List.map_cons] at h
    obtain ⟨hhead, hrest⟩ := List.cons.inj h
    rw [List.map_cons, List.mapIdx_cons, Nat.zero_add, ← hhead]
    -- the rest is numbered from one further on
    refine congrArg (List.cons p) ?_
    simpa only [Nat.add_assoc, Nat.add_comm 1] using ih hrest

/-- The live entries of the schema of an outline are the scalars and the nodes. -/
theorem live_schema (o : Outline) :
    o.schema.table.live =
      Scalar.all.map (fun s => (s.handle, Entry.scalar s)) ++ o.laidOut.nodes := by
  unfold schema
  rw [TypeTable.live_ofEntries, List.mapIdx_append, List.length_map,
    mapIdx_eq_of_handles (handles_laidOut o)]
  rfl

/-- What is live in the schema of an outline. -/
theorem get?_schema {o : Outline} {handle : Handle} {entry : Entry} :
    o.schema.table.get? handle = some entry ↔
      (∃ s : Scalar, handle = s.handle ∧ entry = .scalar s) ∨
        (handle, entry) ∈ o.laidOut.nodes := by
  rw [← TypeTable.mem_live_iff, live_schema, List.mem_append, List.mem_map]
  refine or_congr ?_ Iff.rfl
  constructor
  · rintro ⟨s, _, heq⟩
    obtain ⟨rfl, rfl⟩ := Prod.mk.inj heq
    exact ⟨s, rfl, rfl⟩
  · rintro ⟨s, rfl, rfl⟩
    exact ⟨s, List.mem_of_getElem? s.getElem?_all, rfl⟩

end Outline

/-- The schema of a sample is the schema of its outline. -/
theorem Schema.infer?_object (rootName : String) (members : List (String × Json)) :
    Schema.infer? rootName (.object members) =
      .ok (Outline.ofSample rootName (.object members)).schema := by
  obtain ⟨hroot, hshows⟩ := Draft.infer_shows Draft.shows_new rootName (.object members)
  rw [List.length_map] at hroot hshows
  exact congrArg Except.ok (congrArg₂ Schema.mk hshows.table hroot)

end StructSketch
