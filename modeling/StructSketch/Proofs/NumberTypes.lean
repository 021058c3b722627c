import StructSketch.Proofs.FixedWidth
import StructSketch.Proofs.Places

/-!
# The types of numbers

* **`Numeral.IsFloat`** says of a literal, without reading it digit by digit, that it is one of a
  float.
* **`Scalar.ofNumber_cases`**: inference, which reads digit by digit, comes to the same for every
  literal of the grammar, of any length (`Scalar.ofNumber_eq`).
* **`Schema.number_of_ofSample`**: so the type of a number in an accepted document is told by its
  literal, wherever the number stands.
-/

namespace StructSketch

open Json (Numeral)
open Json.Grammar (Number)

/-- A literal with a fraction or an exponent, or of an integer beyond both types of 64 bits. -/
def Json.Numeral.IsFloat (literal : String) : Prop :=
  (∃ c ∈ literal.toList, c = '.' ∨ c = 'e' ∨ c = 'E') ∨
    ∃ value, literal.toInt? = some value ∧ (value < -2 ^ 63 ∨ 2 ^ 64 - 1 < value)

instance (literal : String) : Decidable (Numeral.IsFloat literal) :=
  inferInstanceAs <| Decidable <| (∃ c ∈ literal.toList, c = '.' ∨ c = 'e' ∨ c = 'E') ∨
    ∃ value ∈ literal.toInt?, value < -2 ^ 63 ∨ 2 ^ 64 - 1 < value

/-- The scalar that a literal stands for. -/
def Json.Numeral.scalar (literal : String) : Scalar :=
  if IsFloat literal then .float else .int

/-- Without point and exponent mark it is the integer that counts. -/
theorem Json.Numeral.isFloat_iff {literal : String} {value : Int}
    (hwhole : Numeral.isFractional literal = false) (hvalue : literal.toInt? = some value) :
    Numeral.IsFloat literal ↔ value < -2 ^ 63 ∨ 2 ^ 64 - 1 < value := by
  rw [Numeral.IsFloat, ← Numeral.isFractional_iff, hwhole, hvalue]
  simp

/-- What inference takes a literal for. -/
theorem Scalar.ofNumber_cases {literal : String} (h : Number (Text.bytes literal)) :
    ofNumber literal = .float ∧ Numeral.IsFloat literal ∨
      ofNumber literal = .int ∧ ¬ Numeral.IsFloat literal ∧
        ∃ value, literal.toInt? = some value ∧ -2 ^ 63 ≤ value ∧ value ≤ 2 ^ 64 - 1 := by
  rw [ofNumber]
  cases hmark : Numeral.isFractional literal with
  | true => exact .inl ⟨if_pos rfl, .inl (Numeral.isFractional_iff.mp hmark)⟩
  | false =>
    obtain ⟨value, hvalue, hfits⟩ := Numeral.fitsInteger_iff h hmark
    rw [if_neg Bool.false_ne_true, Numeral.isFloat_iff hmark hvalue]
    by_cases hfit : Numeral.fitsInteger literal = true
    · obtain ⟨hleast, hgreatest⟩ := hfits.mp hfit
      exact .inr ⟨if_pos hfit, by omega, value, hvalue, hleast, hgreatest⟩
    · rw [hfits] at hfit
      exact .inl ⟨if_neg (mt hfits.mp hfit), by omega⟩

/-- Inference takes a literal of the grammar for the scalar that it stands for. -/
theorem Scalar.ofNumber_eq {literal : String} (h : Number (Text.bytes literal)) :
    ofNumber literal = Numeral.scalar literal := by
  rcases ofNumber_cases h with ⟨hfloat, hliteral⟩ | ⟨hint, hliteral, _⟩
  · rw [hfloat, Numeral.scalar, if_pos hliteral]
  · rw [hint, Numeral.scalar, if_neg hliteral]

/-- In an accepted document a number is a float if its literal has a point or an exponent mark or
denotes an integer below `-2 ^ 63` or above `2 ^ 64 - 1`; any other number is an integer, and its
literal denotes one within these limits. -/
theorem Schema.number_of_ofSample {rootName literal : String} {sample : List UInt8} {json : Json}
    {schema : Schema} {path : List Step} (hparse : Json.parse sample = .ok json)
    (hschema : Schema.ofSample rootName sample = .ok schema)
    (hplace : json.at? path = some (.number literal)) (hliteral : Number (Text.bytes literal)) :
    (schema.at? path = some (.scalar .float) ↔ Numeral.IsFloat literal) ∧
      (schema.at? path = some (.scalar .int) ↔ ¬ Numeral.IsFloat literal) ∧
      (¬ Numeral.IsFloat literal →
        ∃ value, literal.toInt? = some value ∧ -2 ^ 63 ≤ value ∧ value ≤ 2 ^ 64 - 1) := by
  have htype : schema.at? path = some (.scalar (Scalar.ofNumber literal)) :=
    Schema.at?_ofSample hparse hschema hplace fun _ _ => rfl
  rw [htype]
  rcases Scalar.ofNumber_cases hliteral with ⟨hfloat, hliteral⟩ | ⟨hint, hliteral, hvalue⟩
  · rw [hfloat]
    exact ⟨iff_of_true rfl hliteral, iff_of_false (by decide) (not_not.mpr hliteral),
      fun h => absurd hliteral h⟩
  · rw [hint]
    exact ⟨iff_of_false (by decide) hliteral, iff_of_true rfl hliteral, fun _ => hvalue⟩

/-- A document with a negative zero in an object in a first item, and with the integers at and
behind the greatest limit. -/
def limitDocument : List UInt8 :=
  Text.bytes ("\x7b\"a\":[[\x7b\"b\":-0\x7d],1.5],\"c\":18446744073709551615," ++
    "\"d\":18446744073709551616\x7d")

/-- The members of that document. -/
def limitMembers : List (String × Json) :=
  [("a", .array [.array [.object [("b", .number "-0")]], .number "1.5"]),
    ("c", .number "18446744073709551615"), ("d", .number "18446744073709551616")]

theorem parse_limitDocument : Json.parse limitDocument = .ok (.object limitMembers) := by
  with_unfolding_all rfl

theorem Schema.number_of_ofSample_limits :
    Json.parse limitDocument = .ok (.object limitMembers) ∧
    ∃ schema, Schema.ofSample "X" limitDocument = .ok schema ∧
      schema.at? [.member "a", .first, .first, .member "b"] = some (.scalar .int) ∧
      schema.at? [.member "c"] = some (.scalar .int) ∧
      schema.at? [.member "d"] = some (.scalar .float) := by
  have hschema : Schema.ofSample "X" limitDocument = _ :=
    Schema.ofSample_eq_ok.mpr ⟨_, parse_limitDocument, rfl⟩
  refine ⟨parse_limitDocument, _, hschema, ?_, ?_, ?_⟩
  · have hzero := @Numeral.toInt?_minus "-0" ['0'] rfl (by decide)
      (List.all_eq_true.mp (by decide))
    refine (Schema.number_of_ofSample parse_limitDocument hschema rfl ?_).2.1.mpr ?_
    · exact Numeral.isLiteral_iff_number.mp (by decide)
    · rw [Numeral.isFloat_iff (by decide) hzero]
      decide
  · have hgreatest := @Numeral.toInt?_digits "18446744073709551615" _ rfl (by decide)
      (List.all_eq_true.mp (by decide))
    refine (Schema.number_of_ofSample parse_limitDocument hschema rfl ?_).2.1.mpr ?_
    · exact Numeral.isLiteral_iff_number.mp (by decide)
    · rw [Numeral.isFloat_iff (by decide) hgreatest]
      decide
  · have hbeyond := @Numeral.toInt?_digits "18446744073709551616" _ rfl (by decide)
      (List.all_eq_true.mp (by decide))
    refine (Schema.number_of_ofSample parse_limitDocument hschema rfl ?_).1.mpr ?_
    · exact Numeral.isLiteral_iff_number.mp (by decide)
    · rw [Numeral.isFloat_iff (by decide) hbeyond]
      decide

end StructSketch
