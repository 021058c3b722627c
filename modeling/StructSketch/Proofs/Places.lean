import StructSketch.Proofs.Generation

/-!
# Places in a sample and in its schema

A place is given by the steps that lead to it from the root: into the member of a key, or into the
first item. No step leads to another item, for inference looks at none.

* **`Json.at?`** is the value at a place of a sample, **`TypeTable.at?`** the type at a place of a
  schema.
* **`Outline.at?_ofJson`** and **`TypeTable.Holds.at?_root`**: the outline of a sample has at a
  place the outline of the value there, and a table that holds a layout has there its type.
* **`Schema.at?_ofSample`**: so the schema of a sample has at the place of a scalar its type.
-/

namespace StructSketch

/-- A step into a value. -/
inductive Step where
  | member (key : String)
  | first
deriving DecidableEq

/-- The value at a place of a value. -/
def Json.at? : List Step → Json → Option Json
  | [], value => some value
  | .member key :: path, .object members =>
    (members.find? (·.1 = key)).bind fun m => Json.at? path m.2
  | .first :: path, .array (item :: _) => Json.at? path item
  | _ :: _, _ => none

/-- The outline at a place of an outline. -/
def Outline.at? : List Step → Outline → Option Outline
  | [], o => some o
  | .member key :: path, .record _ members =>
    (members.find? (·.1 = key)).bind fun m => Outline.at? path m.2
  | .first :: path, .array element => Outline.at? path element
  | _ :: _, _ => none

/-- The entry at a place of what a handle refers to. -/
def TypeTable.at? (table : TypeTable) : List Step → Handle → Option Entry
  | [], handle => table.get? handle
  | .member key :: path, handle =>
    match table.get? handle with
    | some (.record record) =>
      (record.fields.find? (·.key = key)).bind fun f => table.at? path f.type
    | _ => none
  | .first :: path, handle =>
    match table.get? handle with
    | some (.array element) => table.at? path element
    | _ => none

/-- The type at a place of a schema. -/
def Schema.at? (schema : Schema) (path : List Step) : Option Entry :=
  schema.table.at? path schema.root

/-! ## From values to outlines -/

namespace Outline

/-- The member of a key among some members leads to the member of that key among their outlines. -/
theorem find?_ofMembers (used : Finset String) {members : List (String × Json)} {key : String}
    {m : String × Json} (h : members.find? (·.1 = key) = some m) :
    ∃ used', (ofMembers used members).1.find? (·.1 = key) =
      some (m.1, (ofJson used' (Go.nameOfKey m.1) m.2).1) := by
  induction members generalizing used with
  | nil => cases h
  | cons head rest ih =>
    obtain ⟨other, value⟩ := head
    rw [List.find?_cons] at h
    by_cases hkey : other = key
    · simp only [hkey, decide_true, Option.some.injEq] at h
      subst h
      exact ⟨used, by simp [ofMembers, hkey]⟩
    · simp only [hkey, decide_false] at h
      obtain ⟨used', hfound⟩ := ih (ofJson used (Go.nameOfKey other) value).2 h
      exact ⟨used', by simpa [ofMembers, hkey] using hfound⟩

/-- The outline of a value has at a place the outline of the value there. -/
theorem at?_ofJson {path : List Step} (used : Finset String) (base : String) {value part : Json}
    (h : value.at? path = some part) :
    ∃ used' base', (ofJson used base value).1.at? path = some (ofJson used' base' part).1 := by
  induction path generalizing used base value with
  | nil =>
    cases h
    exact ⟨used, base, rfl⟩
  | cons step path ih =>
    cases step with
    | member key =>
      cases value with
      | object members =>
        obtain ⟨m, hm, hpart⟩ := Option.bind_eq_some_iff.mp h
        obtain ⟨inner, hfound⟩ := find?_ofMembers (insert (ClaimedNames.freeName used base) used) hm
        obtain ⟨used', base', hat⟩ := ih inner (Go.nameOfKey m.1) hpart
        refine ⟨used', base', ?_⟩
        simp only [ofJson, Outline.at?, hfound, Option.bind_some]
        exact hat
      | _ => cases h
    | first =>
      cases value with
      | array items =>
        cases items with
        | nil => cases h
        | cons item rest => exact ih used base h
      | _ => cases h

end Outline

/-! ## From layouts to tables -/

/-- A table that holds a layout has at a place what stands there in the layout. -/
theorem TypeTable.Holds.at?_root {table : TypeTable} {path : List Step} {layout : Layout}
    {part : Outline} (h : table.Holds layout) (hpart : layout.outline.at? path = some part) :
    ∃ inner : Layout, inner.outline = part ∧ table.Holds inner ∧
      table.at? path layout.root = table.get? inner.root := by
  induction path generalizing layout with
  | nil => exact ⟨layout, Option.some.inj hpart, h, rfl⟩
  | cons step path ih =>
    cases step with
    | member key =>
      cases layout with
      | record handle name members =>
        rw [Layout.outline_record] at hpart
        obtain ⟨m, hm, hpart⟩ := Option.bind_eq_some_iff.mp hpart
        rw [List.find?_map] at hm
        obtain ⟨member, hmember, rfl⟩ := Option.map_eq_some_iff.mp hm
        obtain ⟨inner, hinner, hholds, hat⟩ :=
          ih (h.member (List.mem_of_find?_eq_some hmember)) hpart
        refine ⟨inner, hinner, hholds, ?_⟩
        -- the field of the key is made of the member of the key
        have hfield : (members.map Layout.field).find? (·.key = key) =
            some (Layout.field member) := by
          rw [List.find?_map, Option.map_eq_some_iff]
          exact ⟨member, hmember, rfl⟩
        show table.at? (.member key :: path) handle = _
        simp only [TypeTable.at?, h.get?_record, hfield, Option.bind_some]
        exact hat
      | scalar s => cases hpart
      | array handle element => cases hpart
    | first =>
      cases layout with
      | array handle element =>
        obtain ⟨inner, hinner, hholds, hat⟩ := ih h.element hpart
        refine ⟨inner, hinner, hholds, ?_⟩
        show table.at? (.first :: path) handle = _
        simp only [TypeTable.at?, h.get?_array.1]
        exact hat
      | scalar s => cases hpart
      | record handle name members =>
        rw [Layout.outline_record] at hpart
        cases hpart

/-- The schema of an outline has a scalar where the outline has it. -/
theorem Outline.at?_schema {o : Outline} {path : List Step} {s : Scalar}
    (h : o.at? path = some (.scalar s)) : o.schema.at? path = some (.scalar s) := by
  have hlaid : o.laidOut.outline.at? path = some (.scalar s) := by rwa [outline_laidOut]
  obtain ⟨inner, hinner, hholds, hat⟩ := o.holds_laidOut.at?_root hlaid
  cases inner with
  | scalar s' =>
    cases hinner
    exact hat.trans (hholds.scalar s)
  | array handle element => cases hinner
  | record handle name members =>
    rw [Layout.outline_record] at hinner
    cases hinner

/-- The schema of a sample has at the place of a scalar the type of the scalar. -/
theorem Schema.at?_ofSample {rootName : String} {sample : List UInt8} {json part : Json}
    {schema : Schema} {path : List Step} {s : Scalar} (hparse : Json.parse sample = .ok json)
    (hschema : Schema.ofSample rootName sample = .ok schema) (hpart : json.at? path = some part)
    (hscalar : ∀ used base, (Outline.ofJson used base part).1 = .scalar s) :
    schema.at? path = some (.scalar s) := by
  obtain ⟨members, hmembers, rfl⟩ := Schema.ofSample_eq_ok.mp hschema
  cases hparse.symm.trans hmembers
  obtain ⟨used, base, hfound⟩ := Outline.at?_ofJson ∅ rootName hpart
  rw [hscalar] at hfound
  exact Outline.at?_schema hfound

end StructSketch
