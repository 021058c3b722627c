import StructSketch.Proofs.NumberTypes
import StructSketch.Proofs.WellFormed

/-!
# The shape of a value

The shape of a value is what is observed of it: its nesting, its keys and the classes of its
scalars, with the members of an object by the bytes of the names of their keys. Of an array only the
first item counts, and an empty array is one of anything.

* **`Json.shape`** tells floats from integers by their literals, as `Numeral.IsFloat` does;
  **`Json.shapeBy`** takes any other way to tell them.
* **`Json.shapeBy_ofNumber`**: the way of inference comes to the same shape for every value whose
  numbers have literals of the grammar.
* **`Outline.shape_ofJson`**: the outline of a value has the shape of the value, whatever names it
  gives to the records.
* **`Outline.shape_record_inj`**: two records have one shape exactly if they list the same keys with
  members of the same shapes.
* **`Outline.SameType`** relates outlines that lead to the same type, and to the same line.
-/

namespace StructSketch

/-- What is observed of a value. -/
inductive Shape where
  | scalar (scalar : Scalar)
  | array (element : Shape)
  | record (members : List (String × Shape))

namespace Json

mutual

/-- The shape of a value, with the scalars that `scalarOf` gives to the literals of numbers. -/
def shapeBy (scalarOf : String → Scalar) : Json → Shape
  | .null => .scalar .any
  | .boolean _ => .scalar .bool
  | .number literal => .scalar (scalarOf literal)
  | .string _ => .scalar .string
  | .array [] => .array (.scalar .any)
  | .array (item :: _) => .array (item.shapeBy scalarOf)
  | .object members => .record (byName (memberShapesBy scalarOf members))

/-- The shapes of the members of an object, each under its key. -/
def memberShapesBy (scalarOf : String → Scalar) : List (String × Json) → List (String × Shape)
  | [] => []
  | (key, value) :: rest => (key, value.shapeBy scalarOf) :: memberShapesBy scalarOf rest

end

/-- The shape of a value, with floats and integers told apart by their literals. -/
def shape (value : Json) : Shape := value.shapeBy Numeral.scalar

theorem memberShapesBy_eq_map (scalarOf : String → Scalar) (members : List (String × Json)) :
    memberShapesBy scalarOf members = members.map fun m => (m.1, m.2.shapeBy scalarOf) := by
  induction members with
  | nil => rfl
  | cons m rest ih => rw [List.map_cons, ← ih]; rfl

/-- A well-formed value has the same shape with what inference takes its numbers for. -/
theorem shapeBy_ofNumber {value : Json} (h : value.WellFormed) :
    value.shapeBy Scalar.ofNumber = value.shape := by
  unfold shape
  induction h with
  | null | boolean | string => simp only [shapeBy]
  | number hliteral => rw [shapeBy, shapeBy, Scalar.ofNumber_eq hliteral]
  | @array items _ ih =>
    cases items with
    | nil => simp only [shapeBy]
    | cons item rest => rw [shapeBy, shapeBy, ih item List.mem_cons_self]
  | @object members _ _ ih =>
    have hmembers : memberShapesBy Scalar.ofNumber members =
        memberShapesBy Numeral.scalar members := by
      rw [memberShapesBy_eq_map, memberShapesBy_eq_map]
      exact List.map_congr_left fun m hm => congrArg (Prod.mk m.1) (ih m hm)
    rw [shapeBy, shapeBy, hmembers]

end Json

namespace Outline

mutual

/-- The shape of an outline, which has no names of records. -/
def shape : Outline → Shape
  | .scalar s => .scalar s
  | .array element => .array element.shape
  | .record _ members => .record (byName (memberShapes members))

/-- The shapes of the members of a record, each under its key. -/
def memberShapes : List (String × Outline) → List (String × Shape)
  | [] => []
  | (key, outline) :: rest => (key, outline.shape) :: memberShapes rest

end

theorem memberShapes_eq_map (members : List (String × Outline)) :
    memberShapes members = members.map fun m => (m.1, m.2.shape) := by
  induction members with
  | nil => rfl
  | cons m rest ih => rw [List.map_cons, ← ih]; rfl

theorem shape_record (name : String) (members : List (String × Outline)) :
    shape (.record name members) = .record ((byName members).map fun m => (m.1, m.2.shape)) := by
  rw [shape, memberShapes_eq_map, byName_map]

/-- Two records have one shape exactly if their members by name have the same keys and shapes. -/
theorem shape_record_inj {name name' : String} {members members' : List (String × Outline)} :
    shape (.record name members) = shape (.record name' members') ↔
      List.Forall₂ (fun m m' => m.1 = m'.1 ∧ m.2.shape = m'.2.shape) (byName members)
        (byName members') := by
  rw [shape_record, shape_record, Shape.record.injEq, ← List.forall₂_eq_eq_eq,
    List.forall₂_map_left_iff, List.forall₂_map_right_iff]
  simp only [Prod.mk.injEq]

mutual

/-- The outline of a value has the shape of the value, with the scalars of inference. -/
theorem shapeBy_ofJson (used : Finset String) (base : String) : (value : Json) →
    (ofJson used base value).1.shape = value.shapeBy Scalar.ofNumber
  | .null => rfl
  | .boolean _ => rfl
  | .number _ => rfl
  | .string _ => rfl
  | .array [] => rfl
  | .array (item :: _) => congrArg Shape.array (shapeBy_ofJson used base item)
  | .object members => by
    simp only [ofJson, shape, Json.shapeBy, memberShapesBy_ofMembers]

theorem memberShapesBy_ofMembers (used : Finset String) : (members : List (String × Json)) →
    memberShapes (ofMembers used members).1 = Json.memberShapesBy Scalar.ofNumber members
  | [] => rfl
  | (key, value) :: rest => by
    simp only [ofMembers, memberShapes, Json.memberShapesBy, shapeBy_ofJson,
      memberShapesBy_ofMembers]

end

/-- The outline of a well-formed value has the shape of the value. -/
theorem shape_ofJson {value : Json} (h : value.WellFormed) (used : Finset String) (base : String) :
    (ofJson used base value).1.shape = value.shape := by
  rw [shapeBy_ofJson, Json.shapeBy_ofNumber h]

/-! ## Types -/

/-- Outlines of one type: the same scalar, or records of one name, behind equally many links. -/
inductive SameType : Outline → Outline → Prop
  | scalar {s} : SameType (.scalar s) (.scalar s)
  | array {element element'} : SameType element element' →
      SameType (.array element) (.array element')
  | record {name members members'} : SameType (.record name members) (.record name members')

variable {o o' : Outline}

theorem SameType.type_eq (h : o.SameType o') : o.type = o'.type := by
  induction h with
  | scalar => rfl
  | array _ ih => rw [type, type, ih]
  | record => rfl

/-- Members of one key and one type have the same line. -/
theorem SameType.line_eq (h : o.SameType o') (indent key : String) :
    line indent (key, o) = line indent (key, o') := by
  have htype := h.type_eq
  cases h with
  | scalar => rfl
  | array _ => simp only [line, declared, htype]
  | record => rfl

end Outline

end StructSketch
