import StructSketch.Proofs.GrowingTable
import StructSketch.Proofs.Outline

/-!
# Outlines laid out in a table

A layout is an outline with a handle at each array and each record.

* **`Layout.nodes`** are the entries that a layout puts into a table, each behind the entries it
  refers to; **`Layout.order`** are the handles of its records in the order of declarations.
* **`Outline.layout`** numbers the nodes of an outline from some number on, and forgetting the
  handles gives the outline back (`outline_layout`).
* **`handles_layout`** and **`descends_layout`**: the nodes have the numbers from the first one
  on, and behind the scalars each node refers to smaller numbers only.
-/

namespace StructSketch

/-- The handles that an entry holds, in the order of its parts. -/
def Entry.references : Entry → List Handle
  | .scalar _ => []
  | .array element => [element]
  | .record r => r.fields.map (·.type)

/-- The records among some entries. -/
def recordsOf (entries : List (Handle × Entry)) : List (Handle × Record) :=
  entries.filterMap fun p => p.2.record?.map fun record => (p.1, record)

theorem mem_recordsOf {entries : List (Handle × Entry)} {handle : Handle} {record : Record} :
    (handle, record) ∈ recordsOf entries ↔ (handle, .record record) ∈ entries := by
  unfold recordsOf
  rw [List.mem_filterMap]
  constructor
  · rintro ⟨⟨handle', entry⟩, hmem, heq⟩
    cases entry with
    | record record' =>
      cases heq
      exact hmem
    | scalar s => cases heq
    | array element => cases heq
  · intro hmem
    exact ⟨_, hmem, rfl⟩

theorem handles_recordsOf_sublist (entries : List (Handle × Entry)) :
    ((recordsOf entries).map Prod.fst).Sublist (entries.map Prod.fst) := by
  induction entries with
  | nil => exact List.Sublist.refl _
  | cons p rest ih =>
    obtain ⟨handle, entry⟩ := p
    cases entry with
    | record record => exact ih.cons_cons handle
    | scalar s => exact ih.cons handle
    | array element => exact ih.cons handle

/-- An outline with handles. -/
inductive Layout where
  | scalar (scalar : Scalar)
  | array (handle : Handle) (element : Layout)
  | record (handle : Handle) (name : String) (members : List (String × Layout))

namespace Layout

/-- The handle under which a layout stands in a table. -/
def root : Layout → Handle
  | .scalar s => s.handle
  | .array handle _ => handle
  | .record handle _ _ => handle

/-- The field of a member. -/
def field (member : String × Layout) : Field :=
  ⟨member.1, Go.nameOfKey member.1, member.2.root⟩

theorem references_fields (name : String) (members : List (String × Layout)) :
    (Entry.record ⟨name, members.map field⟩).references = members.map fun m => m.2.root := by
  simp [Entry.references, field]

mutual

/-- The arrays and records with their handles, parts first. -/
def nodes : Layout → List (Handle × Entry)
  | .scalar _ => []
  | .array handle element => element.nodes ++ [(handle, .array element.root)]
  | .record handle name members =>
    memberNodes members ++ [(handle, .record ⟨name, members.map field⟩)]

/-- The nodes of the members of a record. -/
def memberNodes : List (String × Layout) → List (Handle × Entry)
  | [] => []
  | (_, layout) :: rest => layout.nodes ++ memberNodes rest

end

mutual

/-- The outline without the handles. -/
def outline : Layout → Outline
  | .scalar s => .scalar s
  | .array _ element => .array element.outline
  | .record _ name members => .record name (memberOutlines members)

/-- The outlines of the members of a record. -/
def memberOutlines : List (String × Layout) → List (String × Outline)
  | [] => []
  | (key, layout) :: rest => (key, layout.outline) :: memberOutlines rest

end

mutual

/-- The handles of the records, a record before those of its members, the members by name. -/
def order : Layout → List Handle
  | .scalar _ => []
  | .array _ element => element.order
  | .record handle _ members => handle :: (byName (memberOrders members)).flatMap Prod.snd

/-- The handles of the records that each member leads to, under its key. -/
def memberOrders : List (String × Layout) → List (String × List Handle)
  | [] => []
  | (key, layout) :: rest => (key, layout.order) :: memberOrders rest

end

/-! ## Working with layouts -/

theorem induct {motive : Layout → Prop} (scalar : ∀ s, motive (.scalar s))
    (array : ∀ handle element, motive element → motive (.array handle element))
    (record : ∀ handle name members, (∀ member ∈ members, motive member.2) →
      motive (.record handle name members)) (layout : Layout) : motive layout := by
  refine Layout.rec (motive_1 := motive) (motive_2 := fun members => ∀ m ∈ members, motive m.2)
    (motive_3 := fun member => motive member.2) scalar array record ?_ ?_ ?_ layout
  · intro m hm
    cases hm
  · intro head rest hhead hrest m hm
    rcases List.mem_cons.mp hm with rfl | hm
    · exact hhead
    · exact hrest m hm
  · intro key layout h
    exact h

theorem memberNodes_eq_flatMap (members : List (String × Layout)) :
    memberNodes members = members.flatMap fun m => m.2.nodes := by
  induction members with
  | nil => rfl
  | cons m rest ih => rw [List.flatMap_cons, ← ih]; rfl

theorem memberOutlines_eq_map (members : List (String × Layout)) :
    memberOutlines members = members.map fun m => (m.1, m.2.outline) := by
  induction members with
  | nil => rfl
  | cons m rest ih => rw [List.map_cons, ← ih]; rfl

theorem memberOrders_eq_map (members : List (String × Layout)) :
    memberOrders members = members.map fun m => (m.1, m.2.order) := by
  induction members with
  | nil => rfl
  | cons m rest ih => rw [List.map_cons, ← ih]; rfl

theorem nodes_record (handle : Handle) (name : String) (members : List (String × Layout)) :
    nodes (.record handle name members) =
      (members.flatMap fun m => m.2.nodes) ++
        [(handle, .record ⟨name, members.map field⟩)] := by
  rw [nodes, memberNodes_eq_flatMap]

theorem outline_record (handle : Handle) (name : String) (members : List (String × Layout)) :
    outline (.record handle name members) =
      .record name (members.map fun m => (m.1, m.2.outline)) := by
  rw [outline, memberOutlines_eq_map]

theorem order_record (handle : Handle) (name : String) (members : List (String × Layout)) :
    order (.record handle name members) =
      handle :: (byName members).flatMap fun m => m.2.order := by
  rw [order, memberOrders_eq_map, byName_map, List.flatMap_map]

theorem recordsOf_nodes_array (handle : Handle) (element : Layout) :
    recordsOf (nodes (.array handle element)) = recordsOf element.nodes := by
  rw [nodes, recordsOf, List.filterMap_append]
  exact List.append_nil _

theorem recordsOf_nodes_record (handle : Handle) (name : String)
    (members : List (String × Layout)) :
    recordsOf (nodes (.record handle name members)) =
      (members.flatMap fun m => recordsOf m.2.nodes) ++
        [(handle, ⟨name, members.map field⟩)] := by
  rw [nodes_record, recordsOf, List.filterMap_append, List.filterMap_flatMap]
  rfl

/-- The fields of a record by name are those of its members by name. -/
theorem sorted_fields (name : String) (members : List (String × Layout)) :
    (⟨name, members.map field⟩ : Record).sorted = (byName members).map field := by
  unfold Record.sorted byName
  symm
  exact List.map_mergeSort fun _ _ _ _ => rfl

end Layout

/-! ## Numbering the nodes -/

namespace Outline

mutual

/-- The layout of an outline whose nodes are numbered from `next` on, parts first, and the number
that comes next. -/
def layout (next : Nat) : Outline → Layout × Nat
  | .scalar s => (.scalar s, next)
  | .array element =>
    let (element, next) := element.layout next
    (.array (.nth next) element, next + 1)
  | .record name members =>
    let (members, next) := layoutMembers next members
    (.record (.nth next) name members, next + 1)

/-- The layouts of the members of a record. -/
def layoutMembers (next : Nat) : List (String × Outline) → List (String × Layout) × Nat
  | [] => ([], next)
  | (key, outline) :: rest =>
    let (layout, next) := outline.layout next
    let (rest, next) := layoutMembers next rest
    ((key, layout) :: rest, next)

end

mutual

/-- Forgetting the handles undoes the numbering. -/
theorem outline_layout (next : Nat) : (o : Outline) → (o.layout next).1.outline = o
  | .scalar _ => rfl
  | .array element => congrArg Outline.array (outline_layout next element)
  | .record name members =>
    congrArg (Outline.record name) (memberOutlines_layoutMembers next members)

theorem memberOutlines_layoutMembers (next : Nat) : (members : List (String × Outline)) →
    Layout.memberOutlines (layoutMembers next members).1 = members
  | [] => rfl
  | (key, o) :: rest => by
    simp only [layoutMembers, Layout.memberOutlines, outline_layout,
      memberOutlines_layoutMembers]

end

mutual

/-- The number that comes next counts the nodes. -/
theorem layout_next (next : Nat) : (o : Outline) →
    (o.layout next).2 = next + (o.layout next).1.nodes.length
  | .scalar _ => rfl
  | .array element => by
    have helement := layout_next next element
    simp only [layout, Layout.nodes, List.length_append, List.length_singleton]
    omega
  | .record name members => by
    have hmembers := layoutMembers_next next members
    simp only [layout, Layout.nodes, List.length_append, List.length_singleton]
    omega

theorem layoutMembers_next (next : Nat) : (members : List (String × Outline)) →
    (layoutMembers next members).2 =
      next + (Layout.memberNodes (layoutMembers next members).1).length
  | [] => rfl
  | (key, o) :: rest => by
    have ho := layout_next next o
    have hrest := layoutMembers_next (o.layout next).2 rest
    simp only [layoutMembers, Layout.memberNodes, List.length_append]
    omega

end

mutual

/-- The nodes have the numbers from the first one on. -/
theorem handles_layout (next : Nat) : (o : Outline) →
    (o.layout next).1.nodes.map Prod.fst =
      (List.range' next (o.layout next).1.nodes.length).map Handle.nth
  | .scalar _ => rfl
  | .array element => by
    have helement := handles_layout next element
    simp only [layout, Layout.nodes, List.map_append, List.length_append, List.length_singleton,
      List.range'_1_concat, layout_next, helement]
    rfl
  | .record name members => by
    have hmembers := handles_layoutMembers next members
    simp only [layout, Layout.nodes, List.map_append, List.length_append, List.length_singleton,
      List.range'_1_concat, layoutMembers_next, hmembers]
    rfl

theorem handles_layoutMembers (next : Nat) : (members : List (String × Outline)) →
    (Layout.memberNodes (layoutMembers next members).1).map Prod.fst =
      (List.range' next (Layout.memberNodes (layoutMembers next members).1).length).map Handle.nth
  | [] => rfl
  | (key, o) :: rest => by
    have ho := handles_layout next o
    have hrest := handles_layoutMembers (o.layout next).2 rest
    simp only [layoutMembers, Layout.memberNodes, List.map_append, List.length_append, ho, hrest,
      ← List.range'_append_1]
    rw [layout_next]

end

/-- A layout numbered behind the scalars stands under a number that is given out. -/
theorem root_layout_lt {next : Nat} (hnext : Scalar.all.length ≤ next) (o : Outline) :
    (o.layout next).1.root.serial < (o.layout next).2 := by
  cases o with
  -- only a scalar stands under a number that the layout does not give out itself
  | scalar s => exact Nat.lt_of_lt_of_le s.place_lt hnext
  | array element => exact Nat.lt_succ_self _
  | record name members => exact Nat.lt_succ_self _

theorem root_layoutMembers_lt {next : Nat} (hnext : Scalar.all.length ≤ next)
    (members : List (String × Outline)) :
    ∀ m ∈ (layoutMembers next members).1, m.2.root.serial < (layoutMembers next members).2 := by
  induction members generalizing next with
  | nil => intro m hm; cases hm
  | cons member rest ih =>
    obtain ⟨key, o⟩ := member
    have ho := layout_next next o
    have hrest := layoutMembers_next (o.layout next).2 rest
    intro m hm
    simp only [layoutMembers] at hm ⊢
    rcases List.mem_cons.mp hm with rfl | hm
    · have hroot := root_layout_lt hnext o
      show (o.layout next).1.root.serial < _
      omega
    · exact ih (by omega) m hm

mutual

/-- Every node refers to scalars and to nodes of smaller numbers. -/
theorem descends_layout {next : Nat} (hnext : Scalar.all.length ≤ next) : (o : Outline) →
    ∀ p ∈ (o.layout next).1.nodes, ∀ r ∈ p.2.references, r.serial < p.1.serial
  | .scalar _ => by
    intro p hp
    cases hp
  | .array element => by
    intro p hp r hr
    rcases List.mem_append.mp hp with hp | hp
    · exact descends_layout hnext element p hp r hr
    · obtain rfl := List.mem_singleton.mp hp
      obtain rfl := List.mem_singleton.mp hr
      exact root_layout_lt hnext element
  | .record name members => by
    intro p hp r hr
    rcases List.mem_append.mp hp with hp | hp
    · exact descends_layoutMembers hnext members p hp r hr
    · obtain rfl := List.mem_singleton.mp hp
      obtain ⟨f, hf, rfl⟩ := List.mem_map.mp hr
      obtain ⟨m, hm, rfl⟩ := List.mem_map.mp hf
      exact root_layoutMembers_lt hnext members m hm

theorem descends_layoutMembers {next : Nat} (hnext : Scalar.all.length ≤ next) :
    (members : List (String × Outline)) →
    ∀ p ∈ Layout.memberNodes (layoutMembers next members).1,
      ∀ r ∈ p.2.references, r.serial < p.1.serial
  | [] => by
    intro p hp
    cases hp
  | (key, o) :: rest => by
    intro p hp r hr
    have ho := layout_next next o
    rcases List.mem_append.mp hp with hp | hp
    · exact descends_layout hnext o p hp r hr
    · exact descends_layoutMembers (by omega) rest p hp r hr

end

end Outline

end StructSketch
