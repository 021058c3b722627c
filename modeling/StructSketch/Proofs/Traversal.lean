import StructSketch.Proofs.BuiltTables
import StructSketch.Proofs.Ways

/-!
# The order of declarations of any table

In a table that was built by hand, records may be shared, they may refer to each other in circles,
also through arrays, and references may be dead.

* **`TypeTable.Visits`** is the recursion that lists the records behind some references and
  remembers what it has listed; nothing bounds its way through arrays. **`visits_walk`** says that
  it comes to an end and lists what the walk does.
* **`TypeTable.Walking`** is what the walk keeps from step to step (`start`, `pass`, `enter`), and
  **`Walking.walk`** carries it to the end.
* **`Founded.reaches`** and **`Walking.mem_of_reaches`**: what is listed is exactly what the root
  reaches.
* **`Schema.isTraversal_order`**: so the order of the declarations lists exactly the records that
  the root reaches, each once and for a reason; where they are a tree, it is the plain recursion.
-/

namespace StructSketch

namespace TypeTable

theorem mem_fieldsOf {table : TypeTable} {handles : List Handle} {field : Field} :
    field ∈ table.fieldsOf handles ↔
      ∃ handle ∈ handles, ∃ record, table.get? handle = some (.record record) ∧
        field ∈ record.fields := by
  unfold fieldsOf
  rw [List.mem_flatMap]
  constructor
  · rintro ⟨handle, hmem, hfield⟩
    split at hfield
    · rename_i record hrecord
      exact ⟨handle, hmem, record, hrecord, hfield⟩
    · cases hfield
  · rintro ⟨handle, hmem, record, hrecord, hfield⟩
    exact ⟨handle, hmem, by simpa only [hrecord] using hfield⟩

/-! ## The recursion of the walk -/

/-- The recursion that lists the records behind some references: an array is followed to its
element, a record that is listed already is passed over, and any other record is listed and then
its fields are taken, by the bytes of their names. `Visits table references listed after` says that
this comes to an end, with the records of `after` listed in this order. -/
inductive Visits (table : TypeTable) : List Handle → List Handle → List Handle → Prop
  | done {listed} : Visits table [] listed listed
  | dead {reference references listed after} : table.get? reference = none →
      Visits table references listed after → Visits table (reference :: references) listed after
  | scalar {reference scalar references listed after} :
      table.get? reference = some (.scalar scalar) →
      Visits table references listed after → Visits table (reference :: references) listed after
  | array {reference element references listed middle after} :
      table.get? reference = some (.array element) → Visits table [element] listed middle →
      Visits table references middle after → Visits table (reference :: references) listed after
  | again {reference record references listed after} :
      table.get? reference = some (.record record) → reference ∈ listed →
      Visits table references listed after → Visits table (reference :: references) listed after
  | record {reference record references listed middle after} :
      table.get? reference = some (.record record) → reference ∉ listed →
      Visits table (record.sorted.map (·.type)) (listed ++ [reference]) middle →
      Visits table references middle after → Visits table (reference :: references) listed after

section

variable {table : TypeTable} {reference handle : Handle} {listed : List Handle}

theorem Visits.append {references references' listed middle after : List Handle}
    (h : table.Visits references listed middle) (h' : table.Visits references' middle after) :
    table.Visits (references ++ references') listed after := by
  induction h with
  | done => exact h'
  | dead hget _ ih => exact .dead hget (ih h')
  | scalar hget _ ih => exact .scalar hget (ih h')
  | array hget helement _ _ ih => exact .array hget helement (ih h')
  | again hget hmem _ ih => exact .again hget hmem (ih h')
  | record hget hnew hfields _ _ ih => exact .record hget hnew hfields (ih h')

/-- What is listed behind some references and then behind others is listed one after the other. -/
theorem Visits.split {references references' listed after : List Handle}
    (h : table.Visits (references ++ references') listed after) :
    ∃ middle, table.Visits references listed middle ∧ table.Visits references' middle after := by
  induction references generalizing listed with
  | nil => exact ⟨listed, .done, h⟩
  | cons reference references ih =>
    cases h with
    | dead hget hrest =>
      obtain ⟨middle, hleft, hright⟩ := ih hrest
      exact ⟨middle, .dead hget hleft, hright⟩
    | scalar hget hrest =>
      obtain ⟨middle, hleft, hright⟩ := ih hrest
      exact ⟨middle, .scalar hget hleft, hright⟩
    | array hget helement hrest =>
      obtain ⟨middle, hleft, hright⟩ := ih hrest
      exact ⟨middle, .array hget helement hleft, hright⟩
    | again hget hmem hrest =>
      obtain ⟨middle, hleft, hright⟩ := ih hrest
      exact ⟨middle, .again hget hmem hleft, hright⟩
    | record hget hnew hfields hrest =>
      obtain ⟨middle, hleft, hright⟩ := ih hrest
      exact ⟨middle, .record hget hnew hfields hleft, hright⟩

/-- The recursion has one result at most, since what a reference refers to leaves one case. -/
theorem Visits.unique {references after after' : List Handle}
    (h : table.Visits references listed after) (h' : table.Visits references listed after') :
    after = after' := by
  induction h generalizing after' with
  | done =>
    cases h'
    rfl
  | dead hget _ ih =>
    cases h' with
    | dead _ hrest => exact ih hrest
    | _ => simp_all
  | scalar hget _ ih =>
    cases h' with
    | scalar _ hrest => exact ih hrest
    | _ => simp_all
  | array hget _ _ ihelement ih =>
    cases h' with
    | array hget' helement hrest =>
      rw [hget] at hget'
      cases hget'
      rw [← ihelement helement] at hrest
      exact ih hrest
    | _ => simp_all
  | again hget hmem _ ih =>
    cases h' with
    | again _ _ hrest => exact ih hrest
    | _ => simp_all
  | record hget hnew _ _ ihfields ih =>
    cases h' with
    | record hget' _ hfields hrest =>
      rw [hget] at hget'
      cases hget'
      rw [← ihfields hfields] at hrest
      exact ih hrest
    | _ => simp_all

/-- Array links are followed to their end. -/
theorem Visits.of_links {after : List Handle} (hlinks : table.Links reference handle)
    (h : table.Visits [handle] listed after) : table.Visits [reference] listed after := by
  induction hlinks using Relation.ReflTransGen.head_induction_on with
  | refl => exact h
  | head hlink _ ih => exact .array hlink ih .done

/-- A reference that comes to no record lists nothing. -/
theorem visits_of_targetRecord?_eq_none (h : table.ArraysDescend)
    (hnone : table.targetRecord? reference = none) : table.Visits [reference] listed listed := by
  fun_induction table.target? reference with
  | case1 reference hget => exact .dead hget .done
  | case2 reference scalar hget => exact .scalar hget .done
  | case3 reference record hget =>
    rw [targetRecord?_of_record hget] at hnone
    cases hnone
  | case4 reference element hget hlt ih =>
    rw [targetRecord?_of_array hget hlt] at hnone
    exact .array hget (ih hnone) .done
  | case5 reference element hget hge => exact absurd (h _ _ hget) hge

/-- The walk lists what the recursion does, which therefore comes to an end. -/
theorem visits_walk (h : table.ArraysDescend) (pending listed : List Handle) :
    table.Visits pending listed.reverse (table.walk pending listed) := by
  fun_induction table.walk pending listed with
  | case1 listed => exact .done
  | case2 listed reference pending hnone ih =>
    exact (visits_of_targetRecord?_eq_none h hnone).append ih
  | case3 listed reference pending handle record htarget hmem ih =>
    obtain ⟨hlinks, hget⟩ := (targetRecord?_eq_some_iff h).mp htarget
    have hagain : table.Visits [handle] listed.reverse listed.reverse :=
      .again hget (List.mem_reverse.mpr hmem) .done
    exact (hagain.of_links hlinks).append ih
  | case4 listed reference pending handle record htarget hnew ih =>
    obtain ⟨hlinks, hget⟩ := (targetRecord?_eq_some_iff h).mp htarget
    rw [List.reverse_cons] at ih
    obtain ⟨middle, hfields, hpending⟩ := ih.split
    have hrecord : table.Visits [handle] listed.reverse middle := by
      refine .record hget ?_ hfields .done
      rwa [List.mem_reverse]
    exact (hrecord.of_links hlinks).append hpending

end

/-! ## What the walk keeps -/

/-- The record that a reference comes to, if it comes to one, is listed. -/
def Covered (table : TypeTable) (listed : List Handle) (reference : Handle) : Prop :=
  ∀ handle record, table.targetRecord? reference = some (handle, record) → handle ∈ listed

/-- Records listed for a reason, the latest first: the first one is what the root comes to, and
every later one is what a field of a record listed before it comes to. -/
inductive Founded (table : TypeTable) (root : Handle) : List Handle → Prop
  | nil : Founded table root []
  | first {handle record} : table.targetRecord? root = some (handle, record) →
      Founded table root [handle]
  | later {handle record listed field} : Founded table root listed →
      field ∈ table.fieldsOf listed →
      table.targetRecord? field.type = some (handle, record) →
      Founded table root (handle :: listed)

/-- The references that the walk has met: the root, and the fields of the listed records. -/
def Met (table : TypeTable) (root : Handle) (listed : List Handle) (reference : Handle) : Prop :=
  reference = root ∨ ∃ field ∈ table.fieldsOf listed, field.type = reference

/-- The walk from a root on, between two steps. -/
structure Walking (table : TypeTable) (root : Handle) (pending listed : List Handle) : Prop where
  nodup : listed.Nodup
  founded : table.Founded root listed
  /-- What is still to be followed was met. -/
  met : ∀ reference ∈ pending, table.Met root listed reference
  /-- What was met is still to be followed, or the record that it comes to is listed. -/
  followed : ∀ reference, table.Met root listed reference →
    reference ∈ pending ∨ table.Covered listed reference

section

variable {table : TypeTable} {root reference handle : Handle} {record : Record}
  {pending listed : List Handle}

/-- What the root comes to is listed as soon as anything is. -/
theorem Founded.covered (h : table.Founded root listed) (hne : listed ≠ []) :
    table.Covered listed root := by
  induction h with
  | nil => exact absurd rfl hne
  | first htarget =>
    intro handle record hroot
    rw [htarget] at hroot
    cases hroot
    exact List.mem_cons_self
  | @later _ _ listed _ _ hfield _ ih =>
    intro handle record hroot
    have hlisted : listed ≠ [] := by
      rintro rfl
      cases hfield
    exact List.mem_cons_of_mem _ (ih hlisted handle record hroot)

theorem met_cons (hrecord : table.get? handle = some (.record record)) :
    table.Met root (handle :: listed) reference ↔
      reference ∈ record.sorted.map (·.type) ∨ table.Met root listed reference := by
  unfold Met
  simp only [fieldsOf_cons hrecord, List.mem_append, List.mem_map, Record.mem_sorted, or_and_right,
    exists_or]
  exact or_left_comm

namespace Walking

theorem start : table.Walking root [root] [] where
  nodup := List.nodup_nil
  founded := .nil
  met := by
    intro reference hmem
    exact .inl (List.mem_singleton.mp hmem)
  followed := by
    rintro reference (rfl | ⟨field, hfield, _⟩)
    · exact .inl List.mem_cons_self
    · cases hfield

/-- A step that lists nothing: the next reference comes to no record, or to a listed one. -/
theorem pass (h : table.Walking root (reference :: pending) listed)
    (hcovered : table.Covered listed reference) : table.Walking root pending listed where
  nodup := h.nodup
  founded := h.founded
  met := fun other hmem => h.met other (List.mem_cons_of_mem _ hmem)
  followed := by
    intro other hmet
    rcases h.followed other hmet with hmem | hother
    · rcases List.mem_cons.mp hmem with rfl | hmem
      · exact .inr hcovered
      · exact .inl hmem
    · exact .inr hother

/-- A step that lists the record that the next reference comes to. -/
theorem enter (h : table.Walking root (reference :: pending) listed)
    (htarget : table.targetRecord? reference = some (handle, record)) (hnew : handle ∉ listed) :
    table.Walking root (record.sorted.map (·.type) ++ pending) (handle :: listed) := by
  have hrecord := get?_of_targetRecord? htarget
  refine ⟨List.nodup_cons.mpr ⟨hnew, h.nodup⟩, ?_, ?_, ?_⟩
  · rcases h.met reference List.mem_cons_self with rfl | ⟨field, hfield, rfl⟩
    -- the root comes to something new only as long as nothing is listed
    · by_cases hnil : listed = []
      · subst hnil
        exact .first htarget
      · exact absurd (h.founded.covered hnil handle record htarget) hnew
    · exact .later h.founded hfield htarget
  · intro other hmem
    rw [met_cons hrecord]
    rcases List.mem_append.mp hmem with hfield | hmem
    · exact .inl hfield
    · exact .inr (h.met other (List.mem_cons_of_mem _ hmem))
  · intro other hmet
    rcases (met_cons hrecord).mp hmet with hfield | hmet
    · exact .inl (List.mem_append_left _ hfield)
    rcases h.followed other hmet with hmem | hcovered
    · rcases List.mem_cons.mp hmem with rfl | hmem
      · right
        intro handle' record' htarget'
        rw [htarget] at htarget'
        cases htarget'
        exact List.mem_cons_self
      · exact .inl (List.mem_append_right _ hmem)
    · right
      intro handle' record' htarget'
      exact List.mem_cons_of_mem _ (hcovered handle' record' htarget')

/-- The walk goes on until nothing is to be followed. -/
theorem walk (h : table.Walking root pending listed) :
    table.Walking root [] (table.walk pending listed).reverse := by
  fun_induction table.walk pending listed with
  | case1 listed => rwa [List.reverse_reverse]
  | case2 listed reference pending hnone ih =>
    apply ih
    apply h.pass
    intro handle record htarget
    rw [hnone] at htarget
    cases htarget
  | case3 listed reference pending handle record htarget hmem ih =>
    apply ih
    apply h.pass
    intro handle' record' htarget'
    rw [htarget] at htarget'
    cases htarget'
    exact hmem
  | case4 listed reference pending handle record htarget hnew ih =>
    exact ih (h.enter htarget hnew)

end Walking

end

/-! ## What the root reaches -/

/-- A live entry refers to a handle. -/
def Refers (table : TypeTable) (handle reference : Handle) : Prop :=
  ∃ entry, table.get? handle = some entry ∧ reference ∈ entry.references

/-- References, none or more, lead through live entries from a handle to another. -/
def Reaches (table : TypeTable) : Handle → Handle → Prop := Relation.ReflTransGen table.Refers

section

variable {table : TypeTable} {root reference handle : Handle} {record : Record}
  {listed : List Handle}

theorem Links.reaches (h : table.Links reference handle) : table.Reaches reference handle := by
  induction h with
  | refl => exact .refl
  | tail _ hlink ih => exact ih.tail ⟨_, hlink, List.mem_cons_self⟩

theorem refers_of_mem_fields {field : Field} (hrecord : table.get? handle = some (.record record))
    (hfield : field ∈ record.fields) : table.Refers handle field.type :=
  ⟨_, hrecord, List.mem_map_of_mem hfield⟩

theorem Founded.isRecord (h : table.Founded root listed) :
    ∀ handle ∈ listed, ∃ record, table.get? handle = some (.record record) := by
  induction h with
  | nil =>
    intro handle hmem
    cases hmem
  | first htarget =>
    intro handle hmem
    obtain rfl := List.mem_singleton.mp hmem
    exact ⟨_, get?_of_targetRecord? htarget⟩
  | later _ _ htarget ih =>
    intro handle hmem
    rcases List.mem_cons.mp hmem with rfl | hmem
    · exact ⟨_, get?_of_targetRecord? htarget⟩
    · exact ih handle hmem

/-- What is listed is reached from the root. -/
theorem Founded.reaches (h : table.Founded root listed) (harrays : table.ArraysDescend) :
    ∀ handle ∈ listed, table.Reaches root handle := by
  induction h with
  | nil =>
    intro handle hmem
    cases hmem
  | first htarget =>
    intro handle hmem
    obtain rfl := List.mem_singleton.mp hmem
    exact ((targetRecord?_eq_some_iff harrays).mp htarget).1.reaches
  | later _ hfield htarget ih =>
    intro handle hmem
    rcases List.mem_cons.mp hmem with rfl | hmem
    · obtain ⟨parent, hparent, record, hrecord, hfield⟩ := mem_fieldsOf.mp hfield
      have hlinks := ((targetRecord?_eq_some_iff harrays).mp htarget).1
      exact ((ih parent hparent).tail (refers_of_mem_fields hrecord hfield)).trans hlinks.reaches
    · exact ih handle hmem

/-- What stands first in a listing is what the root comes to, and everything else is what a field
of a record listed before it comes to. -/
theorem Founded.split (h : table.Founded root listed) {later earlier : List Handle}
    (heq : listed = later ++ handle :: earlier) :
    (earlier = [] ∧ ∃ record, table.targetRecord? root = some (handle, record)) ∨
      ∃ field ∈ table.fieldsOf earlier, ∃ record,
        table.targetRecord? field.type = some (handle, record) := by
  induction h generalizing later with
  | nil => simp at heq
  | first htarget =>
    left
    cases later with
    | nil =>
      cases heq
      exact ⟨rfl, _, htarget⟩
    | cons first later => simp at heq
  | later hfounded hfield htarget ih =>
    cases later with
    | nil =>
      cases heq
      exact .inr ⟨_, hfield, _, htarget⟩
    | cons first later => exact ih (List.cons.inj heq).2

/-- Where everything met is covered, every record that is reached is listed. -/
theorem Walking.mem_of_reaches (h : table.Walking root [] listed) (harrays : table.ArraysDescend)
    (hreaches : table.Reaches reference handle) (hcovered : table.Covered listed reference)
    (hrecord : table.get? handle = some (.record record)) : handle ∈ listed := by
  induction hreaches using Relation.ReflTransGen.head_induction_on with
  | refl => exact hcovered handle record (targetRecord?_of_record hrecord)
  | @head first next hrefers _ ih =>
    apply ih
    obtain ⟨entry, hentry, hnext⟩ := hrefers
    cases entry with
    | scalar s => cases hnext
    | array element =>
      obtain rfl := List.mem_singleton.mp hnext
      intro handle record htarget
      apply hcovered handle record
      rw [targetRecord?_of_array hentry (harrays _ _ hentry), htarget]
    | record first' =>
      -- the record is listed, so its field was met
      have hlisted := hcovered _ _ (targetRecord?_of_record hentry)
      obtain ⟨field, hfield, rfl⟩ := List.mem_map.mp hnext
      have hmet : table.Met root listed field.type :=
        .inr ⟨field, mem_fieldsOf.mpr ⟨_, hlisted, _, hentry, hfield⟩, rfl⟩
      exact (h.followed _ hmet).resolve_left List.not_mem_nil

/-- The record that the root comes to is listed first, if there is one. -/
theorem Walking.getLast?_eq_some_iff (h : table.Walking root [] listed) :
    listed.getLast? = some handle ↔
      ∃ record, table.targetRecord? root = some (handle, record) := by
  have hfirst : ∀ first, listed.getLast? = some first →
      ∃ record, table.targetRecord? root = some (first, record) := by
    intro first hlast
    obtain ⟨later, heq⟩ := List.getLast?_eq_some_iff.mp hlast
    rcases h.founded.split heq with ⟨_, htarget⟩ | ⟨field, hfield, _⟩
    · exact htarget
    · cases hfield
  constructor
  · exact hfirst handle
  · rintro ⟨record, htarget⟩
    have hcovered := (h.followed root (.inl rfl)).resolve_left List.not_mem_nil
    have hmem := hcovered handle record htarget
    have hlast := List.getLast?_eq_some_getLast (List.ne_nil_of_mem hmem)
    obtain ⟨record', htarget'⟩ := hfirst _ hlast
    rw [htarget] at htarget'
    have hsame := (Prod.mk.inj (Option.some.inj htarget')).1
    rw [hlast, ← hsame]

end

end TypeTable

/-! ## The order of a schema -/

namespace Schema

variable {schema : Schema} {handle : Handle}

theorem walking_order (schema : Schema) :
    schema.table.Walking schema.root [] schema.order.reverse :=
  TypeTable.Walking.start.walk

theorem nodup_order (schema : Schema) : schema.order.Nodup :=
  List.nodup_reverse.mp schema.walking_order.nodup

theorem isRecord_of_mem_order (h : handle ∈ schema.order) :
    ∃ record, schema.table.get? handle = some (.record record) :=
  schema.walking_order.founded.isRecord handle (List.mem_reverse.mpr h)

/-- What is listed are the records that the root reaches. -/
theorem mem_order_iff (h : schema.table.ArraysDescend) :
    handle ∈ schema.order ↔ schema.table.Reaches schema.root handle ∧
      ∃ record, schema.table.get? handle = some (.record record) := by
  have hwalk := schema.walking_order
  constructor
  · intro hmem
    exact ⟨hwalk.founded.reaches h handle (List.mem_reverse.mpr hmem), isRecord_of_mem_order hmem⟩
  · rintro ⟨hreaches, record, hrecord⟩
    have hcovered := (hwalk.followed schema.root (.inl rfl)).resolve_left List.not_mem_nil
    exact List.mem_reverse.mp (hwalk.mem_of_reaches h hreaches hcovered hrecord)

/-- What is listed first is the record that the root comes to. -/
theorem head?_order_iff (h : schema.table.ArraysDescend) :
    schema.order.head? = some handle ↔ schema.table.LeadsTo schema.root handle := by
  rw [← List.getLast?_reverse, TypeTable.leadsTo_iff h]
  exact schema.walking_order.getLast?_eq_some_iff

/-- What is not listed first is what a field of an earlier record leads to. -/
theorem exists_parent_of_order_eq (h : schema.table.ArraysDescend) {earlier later : List Handle}
    (heq : schema.order = earlier ++ handle :: later) (hne : earlier ≠ []) :
    ∃ parent ∈ earlier, ∃ record, schema.table.get? parent = some (.record record) ∧
      ∃ field ∈ record.fields, schema.table.LeadsTo field.type handle := by
  have hlisted := congrArg List.reverse heq
  rw [List.reverse_append, List.reverse_cons, List.append_assoc] at hlisted
  rcases schema.walking_order.founded.split hlisted with ⟨hnil, _⟩ | ⟨field, hfield, htarget⟩
  · exact absurd (List.reverse_eq_nil_iff.mp hnil) hne
  · obtain ⟨parent, hparent, record, hrecord, hfield⟩ := TypeTable.mem_fieldsOf.mp hfield
    exact ⟨parent, List.mem_reverse.mp hparent, record, hrecord, field, hfield,
      (TypeTable.leadsTo_iff h).mpr htarget⟩

/-- Where ways are unique, the order is that of the plain recursion. -/
theorem preorder_iff_of_waysUnique (h : schema.table.WaysUnique schema.root)
    {handles : List Handle} :
    schema.table.Preorder [schema.root] handles ↔ handles = schema.order := by
  obtain ⟨listed, hpreorder, hnodup⟩ := h.exists_preorder
  have horder : schema.order = listed := hpreorder.order_eq hnodup
  rw [horder]
  constructor
  · intro hhandles
    exact hhandles.unique hpreorder
  · rintro rfl
    exact hpreorder

/-- A list of the records that the root of a schema leads to. -/
structure IsTraversal (schema : Schema) (handles : List Handle) : Prop where
  /-- A reference comes to the record that its array links, however many, lead to. -/
  target : ∀ reference handle record,
    schema.table.targetRecord? reference = some (handle, record) ↔
      schema.table.Links reference handle ∧ schema.table.get? handle = some (.record record)
  /-- The recursion from the root comes to an end, and lists these records in this order. -/
  visits : ∀ handles', schema.table.Visits [schema.root] [] handles' ↔ handles' = handles
  /-- They are the live records that the root reaches through live entries. -/
  mem_iff : ∀ handle, handle ∈ handles ↔ schema.table.Reaches schema.root handle ∧
    ∃ record, schema.table.get? handle = some (.record record)
  /-- Each of them stands there once. -/
  nodup : handles.Nodup
  /-- The first one is the record that the root is or that its array links lead to. -/
  first : ∀ handle, handles.head? = some handle ↔ schema.table.LeadsTo schema.root handle
  /-- To every later one a field of an earlier one leads, directly or through arrays. -/
  later : ∀ earlier handle later, handles = earlier ++ handle :: later → earlier ≠ [] →
    ∃ parent ∈ earlier, ∃ record, schema.table.get? parent = some (.record record) ∧
      ∃ field ∈ record.fields, schema.table.LeadsTo field.type handle
  /-- Where no record is come to in two ways, the order is that of the plain recursion. -/
  plain : schema.table.WaysUnique schema.root → ∀ handles',
    schema.table.Preorder [schema.root] handles' ↔ handles' = handles

/-- The order of the declarations lists what the root leads to, whatever operations the table came
about by: records may be shared, they may refer to each other in circles, and references may be
dead. -/
theorem isTraversal_order {issued removed : List Handle}
    (h : schema.table.Built issued removed) : schema.IsTraversal schema.order where
  target _ _ _ := TypeTable.targetRecord?_eq_some_iff h.orderly.descends
  visits handles := by
    have hvisits := TypeTable.visits_walk h.orderly.descends [schema.root] []
    constructor
    · intro hhandles
      exact hhandles.unique hvisits
    · rintro rfl
      exact hvisits
  mem_iff _ := mem_order_iff h.orderly.descends
  nodup := schema.nodup_order
  first _ := head?_order_iff h.orderly.descends
  later _ _ _ := exists_parent_of_order_eq h.orderly.descends
  plain hunique _ := preorder_iff_of_waysUnique hunique

end Schema

/-- A table of two records that refer to each other, one of them through an array, with a field
whose entry was taken out and whose place was filled again. -/
def circularTable : TypeTable :=
  ⟨#[some (0, .scalar .string), some (8, .scalar .bool), some (2, .scalar .float),
      some (3, .scalar .bool), some (4, .scalar .any),
      some (5, .record ⟨"A", [⟨"b", "B", ⟨7, 7⟩⟩, ⟨"a", "A", ⟨6, 6⟩⟩]⟩),
      some (6, .array ⟨5, 5⟩),
      some (7, .record ⟨"B", [⟨"a", "A", ⟨6, 6⟩⟩, ⟨"n", "N", ⟨1, 1⟩⟩]⟩)],
    [], 9⟩

theorem built_circularTable : circularTable.Built
    (⟨1, 8⟩ :: ⟨7, 7⟩ :: ⟨6, 6⟩ :: ⟨5, 5⟩ :: Scalar.all.map Scalar.handle) [⟨1, 1⟩] := by
  have hfirst := @TypeTable.Built.insert _ _ _ (.record ⟨"A", []⟩) .new (by decide)
  have hlist := @TypeTable.Built.insert _ _ _ (.array ⟨5, 5⟩) hfirst (by decide)
  have hsecond := @TypeTable.Built.insert _ _ _
    (.record ⟨"B", [⟨"a", "A", ⟨6, 6⟩⟩, ⟨"n", "N", ⟨1, 1⟩⟩]⟩) hlist (by decide)
  have hcircle := @TypeTable.Built.replace _ _ _ _ ⟨5, 5⟩
    ⟨"A", [⟨"b", "B", ⟨7, 7⟩⟩, ⟨"a", "A", ⟨6, 6⟩⟩]⟩ hsecond (by decide) rfl
  have hremoved := @TypeTable.Built.remove _ _ _ _ ⟨1, 1⟩ _ hcircle rfl
  exact @TypeTable.Built.insert _ _ _ (.scalar .bool) hremoved (by decide)

/-- The schema of that table whose root is the array. -/
def circularSchema : Schema := ⟨circularTable, ⟨6, 6⟩⟩

theorem Schema.isTraversal_order_circularSchema :
    (∃ issued removed, circularSchema.table.Built issued removed) ∧
      circularSchema.IsTraversal circularSchema.order :=
  ⟨⟨_, _, built_circularTable⟩, isTraversal_order built_circularTable⟩

end StructSketch
