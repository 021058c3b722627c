import StructSketch.Go.Declaration
import StructSketch.Proofs.ClaimedNames
import StructSketch.Schema.Inference

/-!
# Outlines of samples

An outline is the tree of what a sample declares. It has no handles, and it is written out by
recursion on the tree alone.

* **`Outline.ofJson`** walks the observed part of a value, an object before its members and of
  an array only the first item. Each object gets a name when the walk comes to it.
* **`Outline.blocks`** are the declarations: the block of an object, and then the blocks that
  its members lead to, the members by the bytes of their names.
* **`Outline.induct`** is induction on outlines, with the members of an object at once.
-/

namespace StructSketch

/-- What a value declares: a scalar, a sequence, or a named record with a type for each key. -/
inductive Outline where
  | scalar (scalar : Scalar)
  | array (element : Outline)
  | record (name : String) (members : List (String × Outline))

/-- Members by the bytes of the names of their keys; members of one name stay in order. -/
def byName {α : Type} (members : List (String × α)) : List (String × α) :=
  members.mergeSort fun m n => Text.byteLE (Go.nameOfKey m.1) (Go.nameOfKey n.1)

theorem byName_map {α β : Type} (f : α → β) (members : List (String × α)) :
    byName (members.map fun m => (m.1, f m.2)) =
      (byName members).map fun m => (m.1, f m.2) := by
  symm
  exact List.map_mergeSort fun _ _ _ _ => rfl

theorem byName_perm {α : Type} (members : List (String × α)) : (byName members).Perm members :=
  List.mergeSort_perm _ _

namespace Outline

/-! ## Naming -/

mutual

/-- The outline of a value whose first object is named after `base`, and the names in use
behind it. -/
def ofJson (used : Finset String) (base : String) : Json → Outline × Finset String
  | .null => (.scalar .any, used)
  | .boolean _ => (.scalar .bool, used)
  | .number literal => (.scalar (Scalar.ofNumber literal), used)
  | .string _ => (.scalar .string, used)
  | .array [] => (.array (.scalar .any), used)
  | .array (item :: _) =>
    let (element, used) := ofJson used base item
    (.array element, used)
  | .object members =>
    let name := ClaimedNames.freeName used base
    let (members, used) := ofMembers (insert name used) members
    (.record name members, used)

/-- The outlines of the members of an object, each named after its key. -/
def ofMembers (used : Finset String) :
    List (String × Json) → List (String × Outline) × Finset String
  | [] => ([], used)
  | (key, value) :: rest =>
    let (outline, used) := ofJson used (Go.nameOfKey key) value
    let (rest, used) := ofMembers used rest
    ((key, outline) :: rest, used)

end

/-- The outline of a whole sample. -/
def ofSample (rootName : String) (sample : Json) : Outline := (ofJson ∅ rootName sample).1

/-! ## Writing -/

/-- The Go type of an outline. -/
def type : Outline → String
  | .scalar s => Go.scalarType s
  | .array element => "[]" ++ element.type
  | .record name _ => name

/-- What the line of a member declares: the record alone that it embeds, or a name with a type. -/
def declared (key : String) : Outline → String
  | .record name _ => name
  | outline => Go.nameOfKey key ++ " " ++ outline.type

/-- The line of a member. -/
def line (indent : String) (member : String × Outline) : String :=
  indent ++ member.2.declared member.1 ++ " " ++ Go.tag member.1 ++ "\n"

/-- The declaration of a record alone. -/
def block (indent name : String) (members : List (String × Outline)) : String :=
  "type " ++ name ++ " struct \x7b\n" ++ String.join ((byName members).map (line indent)) ++
    "\x7d\n"

mutual

/-- The declarations that an outline leads to, a record before those of its members. -/
def blocks (indent : String) : Outline → List String
  | .scalar _ => []
  | .array element => element.blocks indent
  | .record name members =>
    block indent name members :: (byName (memberBlocks indent members)).flatMap Prod.snd

/-- The declarations that each member leads to, under its key. -/
def memberBlocks (indent : String) : List (String × Outline) → List (String × List String)
  | [] => []
  | (key, outline) :: rest => (key, outline.blocks indent) :: memberBlocks indent rest

end

/-- The declarations of an outline as one text. -/
def text (indent : String) (outline : Outline) : String := String.join (outline.blocks indent)

/-! ## Working with outlines -/

theorem induct {motive : Outline → Prop} (scalar : ∀ scalar, motive (.scalar scalar))
    (array : ∀ element, motive element → motive (.array element))
    (record : ∀ name members, (∀ member ∈ members, motive member.2) →
      motive (.record name members)) (outline : Outline) : motive outline := by
  refine Outline.rec (motive_1 := motive) (motive_2 := fun members => ∀ m ∈ members, motive m.2)
    (motive_3 := fun member => motive member.2) scalar array record ?_ ?_ ?_ outline
  · intro m hm
    cases hm
  · intro head rest hhead hrest m hm
    rcases List.mem_cons.mp hm with rfl | hm
    · exact hhead
    · exact hrest m hm
  · intro key outline h
    exact h

theorem memberBlocks_eq_map (indent : String) (members : List (String × Outline)) :
    memberBlocks indent members = members.map fun m => (m.1, m.2.blocks indent) := by
  induction members with
  | nil => rfl
  | cons m rest ih => rw [List.map_cons, ← ih]; rfl

/-- The declarations of a record: its own, and those of its members by name. -/
theorem blocks_record (indent name : String) (members : List (String × Outline)) :
    blocks indent (.record name members) =
      block indent name members :: (byName members).flatMap fun m => m.2.blocks indent := by
  rw [blocks, memberBlocks_eq_map, byName_map, List.flatMap_map]

end Outline

end StructSketch
