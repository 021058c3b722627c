import Mathlib.Algebra.Group.Int.Defs
import Mathlib.Algebra.Group.Nat.Defs
import Std.Data.String.ToInt
import StructSketch.Proofs.Grammar.Numbers
import StructSketch.Schema.Inference

/-!
# Literals that are integers of 64 bits

A literal is read digit by digit, and reading stops at the first number that leaves the bounds of
the type.

* **`Numeral.Bounds.append?_digits`**: digits lead only away from zero, so what is read is the
  number that they denote, if that is within the bounds.
* **`Numeral.number_cases`**: a literal of the grammar has a point or an exponent mark, or it is
  digits alone, behind a minus or not.
* **`Numeral.fitsInteger_iff`**: in the second case it is read in 64 bits, signed or unsigned,
  exactly if the integer that it denotes is within the limits of one of the two.
-/

namespace StructSketch.Json.Numeral

open Grammar (Digits Number)

/-! ## Reading digits -/

namespace Bounds

variable {bounds : Bounds} {isNegative : Bool} {digits : List Char}

/-- A number is within the bounds. -/
def Contains (bounds : Bounds) (value : Int) : Prop :=
  bounds.least ≤ value ∧ value ≤ bounds.greatest

/-- The number at a distance from zero. -/
def away (isNegative : Bool) (distance : Nat) : Int :=
  if isNegative then -distance else distance

theorem check?_of_contains {value : Int} (h : bounds.Contains value) :
    bounds.check? value = some value := if_pos h

theorem check?_of_not_contains {value : Int} (h : ¬ bounds.Contains value) :
    bounds.check? value = none := if_neg h

theorem isSome_check? {value : Int} : (bounds.check? value).isSome ↔ bounds.Contains value := by
  by_cases h : bounds.Contains value
  · simp [check?_of_contains h, h]
  · simp [check?_of_not_contains h, h]

/-- With zero and a number the bounds contain every number between. -/
theorem Contains.nearer {near far : Nat} (h : bounds.Contains (away isNegative far))
    (hzero : bounds.Contains 0) (hle : near ≤ far) : bounds.Contains (away isNegative near) := by
  obtain ⟨hleast, hgreatest⟩ := h
  obtain ⟨hnegative, hpositive⟩ := hzero
  unfold away at *
  cases isNegative with
  | true =>
    simp only [if_true] at *
    exact ⟨by omega, by omega⟩
  | false =>
    simp only [Bool.false_eq_true, if_false] at *
    exact ⟨by omega, by omega⟩

theorem ten_mul_away (distance : Nat) :
    10 * away isNegative distance = away isNegative (10 * distance) := by
  cases isNegative <;> simp only [away, Bool.false_eq_true, if_true, if_false] <;> omega

theorem away_add (distance more : Nat) :
    (if isNegative then away isNegative distance - more else away isNegative distance + more) =
      away isNegative (distance + more) := by
  cases isNegative <;> simp only [away, Bool.false_eq_true, if_true, if_false] <;> omega

theorem le_ofDigitChars (digits : List Char) (distance : Nat) :
    distance ≤ Nat.ofDigitChars 10 digits distance := by
  rw [Nat.ofDigitChars_eq_ofDigitChars_zero]
  have hpower : 0 < 10 ^ digits.length := Nat.pow_pos (by decide)
  exact Nat.le_trans (Nat.le_mul_of_pos_left _ hpower) (Nat.le_add_right _ _)

/-- Appending digits gives the number that they denote, if it is within the bounds. -/
theorem append?_digits (isNegative : Bool) (distance : Nat) (hzero : bounds.Contains 0)
    (hdigits : ∀ c ∈ digits, c.isDigit) (h : bounds.Contains (away isNegative distance)) :
    bounds.append? isNegative (away isNegative distance) digits =
      bounds.check? (away isNegative (Nat.ofDigitChars 10 digits distance)) := by
  induction digits generalizing distance with
  | nil => exact (check?_of_contains h).symm
  | cons digit rest ih =>
    obtain ⟨hdigit, hrest⟩ := List.forall_mem_cons.mp hdigits
    -- the number after this digit is on the way to the whole number
    have hwhole := le_ofDigitChars rest (10 * distance + (digit.toNat - '0'.toNat))
    rw [append?, if_pos hdigit, Nat.ofDigitChars_cons, ten_mul_away]
    by_cases hshifted : bounds.Contains (away isNegative (10 * distance))
    · rw [check?_of_contains hshifted, Option.bind_some]
      simp only [away_add]
      by_cases hlonger :
          bounds.Contains (away isNegative (10 * distance + (digit.toNat - '0'.toNat)))
      · rw [check?_of_contains hlonger, Option.bind_some]
        exact ih _ hrest hlonger
      · have hfar := mt (fun h => Contains.nearer h hzero hwhole) hlonger
        rw [check?_of_not_contains hlonger, check?_of_not_contains hfar]
        rfl
    · have hfar := mt (fun h => Contains.nearer h hzero (Nat.le_of_add_right_le hwhole)) hshifted
      rw [check?_of_not_contains hshifted, check?_of_not_contains hfar]
      rfl

/-- A text of digits is read as what they denote. -/
theorem parse?_digits {text : String} (hzero : bounds.Contains 0) (htext : text.toList = digits)
    (hne : digits ≠ []) (hdigits : ∀ c ∈ digits, c.isDigit) :
    bounds.parse? text = bounds.check? (Nat.ofDigitChars 10 digits 0 : Nat) := by
  obtain ⟨digit, rest, rfl⟩ := List.exists_cons_of_ne_nil hne
  have hdigit := hdigits digit List.mem_cons_self
  have hminus : digit ≠ '-' := fun h => absurd hdigit (by rw [h]; decide)
  have hplus : digit ≠ '+' := fun h => absurd hdigit (by rw [h]; decide)
  have hread : bounds.parse? text = bounds.append? false 0 (digit :: rest) := by
    simp [parse?, htext, hminus, hplus]
  rw [hread]
  exact append?_digits false 0 hzero hdigits hzero

/-- Behind a minus, digits are read as what they denote below zero, if the type has such numbers. -/
theorem parse?_minus {text : String} (hzero : bounds.Contains 0)
    (htext : text.toList = '-' :: digits) (hne : digits ≠ []) (hdigits : ∀ c ∈ digits, c.isDigit) :
    bounds.parse? text =
      if bounds.least < 0 then bounds.check? (-(Nat.ofDigitChars 10 digits 0 : Nat)) else none := by
  have hread : bounds.parse? text =
      if bounds.least < 0 then bounds.append? true 0 digits else none := by
    simp [parse?, htext]
  rw [hread]
  exact if_congr Iff.rfl (append?_digits true 0 hzero hdigits hzero) rfl

end Bounds

/-! ## What a literal is made of -/

theorem isDigit_ofByte {byte : UInt8} (h : isDigit byte = true) :
    (Char.ofNat byte.toNat).isDigit = true := by
  obtain ⟨hleast, hgreatest⟩ := isDigit_iff.mp h
  rw [UInt8.le_iff_toNat_le] at hleast hgreatest
  have hvalid : byte.toNat.isValidChar := .inl (Nat.lt_trans byte.toNat_lt (by decide))
  have hcode := (Char.toNat_ofNat byte.toNat).trans (if_pos hvalid)
  rw [Char.isDigit_iff_toNat, hcode]
  exact ⟨hleast, hgreatest⟩

theorem digits_of_whole {whole : List UInt8} (h : Grammar.Whole whole) :
    whole ≠ [] ∧ Digits whole := by
  cases h with
  | zero => exact ⟨List.cons_ne_nil _ _, Grammar.digits_cons.mpr ⟨rfl, Part.digits_nil⟩⟩
  | digits _ hdigits => exact ⟨List.cons_ne_nil _ _, hdigits⟩

theorem isFractional_iff {literal : String} :
    isFractional literal = true ↔ ∃ c ∈ literal.toList, c = '.' ∨ c = 'e' ∨ c = 'E' := by
  simp [isFractional, or_assoc]

/-- A literal of the grammar has a point or an exponent mark, or it is digits alone, behind a minus
or not. -/
theorem number_cases {literal : String} (h : Number (Text.bytes literal)) :
    isFractional literal = true ∨
      ∃ digits : List Char, digits ≠ [] ∧ (∀ c ∈ digits, c.isDigit) ∧
        (literal.toList = digits ∨ literal.toList = '-' :: digits) := by
  -- a literal is ASCII, so its characters are its bytes
  have hascii := Text.bytes_injective (Text.bytes_ofAscii (ascii_of_number h))
  have hchars := congrArg String.toList hascii
  rw [String.toList_ofList] at hchars
  generalize Text.bytes literal = text at h hchars
  rw [isFractional_iff, ← hchars]
  cases h with
  | @parts sign whole fraction exponent hsign hwhole hfraction hexponent =>
  simp only [List.map_append, List.mem_append, List.mem_map]
  cases hfraction with
  | digits => exact .inl ⟨'.', .inr (.inr (.inl ⟨0x2E, List.mem_cons_self, rfl⟩)), .inl rfl⟩
  | none =>
    cases hexponent with
    | digits hmark =>
      rcases hmark with rfl | rfl
      · exact .inl ⟨'e', .inr (.inr (.inr ⟨0x65, List.mem_cons_self, rfl⟩)), .inr (.inl rfl)⟩
      · exact .inl ⟨'E', .inr (.inr (.inr ⟨0x45, List.mem_cons_self, rfl⟩)), .inr (.inr rfl)⟩
    | none =>
      obtain ⟨hne, hdigits⟩ := digits_of_whole hwhole
      refine .inr ⟨whole.map fun byte => Char.ofNat byte.toNat, by simpa using hne, ?_, ?_⟩
      · intro c hc
        obtain ⟨byte, hbyte, rfl⟩ := List.mem_map.mp hc
        exact isDigit_ofByte (isDigit_iff.mpr (hdigits byte hbyte))
      · rcases hsign with rfl | rfl
        · exact .inl (by simp)
        · exact .inr (by simp)

/-! ## The integer that a literal denotes -/

theorem toNat?_digits {text : String} {digits : List Char} (htext : text.toList = digits)
    (hne : digits ≠ []) (hdigits : ∀ c ∈ digits, c.isDigit) :
    text.toNat? = some (Nat.ofDigitChars 10 digits 0) := by
  subst htext
  have hnat : text.isNat = true :=
    String.isNat_of_isDigit (fun h => hne (by rw [h]; rfl)) hdigits
  -- no digit is one of the underscores that the library passes over
  have hfilter : text.toList.filter (· != '_') = text.toList := by
    refine List.filter_eq_self.mpr fun c hc => ?_
    rw [bne_iff_ne]
    rintro rfl
    exact absurd (hdigits _ hc) (by decide)
  rw [String.toNat?_eq_some_ofDigitChars hnat, hfilter]

theorem toInt?_digits {text : String} {digits : List Char} (htext : text.toList = digits)
    (hne : digits ≠ []) (hdigits : ∀ c ∈ digits, c.isDigit) :
    text.toInt? = some (Nat.ofDigitChars 10 digits 0 : Int) :=
  String.toInt?_eq_some_of_toNat?_eq_some (toNat?_digits htext hne hdigits)

theorem toInt?_minus {text : String} {digits : List Char} (htext : text.toList = '-' :: digits)
    (hne : digits ≠ []) (hdigits : ∀ c ∈ digits, c.isDigit) :
    text.toInt? = some (-(Nat.ofDigitChars 10 digits 0 : Int)) := by
  have hminus : text = "-" ++ String.ofList digits := String.toList_injective (by simpa)
  rw [hminus, String.toInt?_minus_append, toNat?_digits String.toList_ofList hne hdigits]
  rfl

theorem signed_contains_zero : Bounds.signed.Contains 0 := by
  unfold Bounds.Contains
  decide

theorem unsigned_contains_zero : Bounds.unsigned.Contains 0 := by
  unfold Bounds.Contains
  decide

/-- A literal without point and exponent mark denotes an integer, and it is read in 64 bits, signed
or unsigned, exactly if that integer is within the limits of one of the two. -/
theorem fitsInteger_iff {literal : String} (h : Number (Text.bytes literal))
    (hwhole : isFractional literal = false) :
    ∃ value, literal.toInt? = some value ∧
      (fitsInteger literal = true ↔ -2 ^ 63 ≤ value ∧ value ≤ 2 ^ 64 - 1) := by
  rcases number_cases h with hmark | ⟨digits, hne, hdigits, htext | htext⟩
  · rw [hwhole] at hmark
    cases hmark
  · refine ⟨_, toInt?_digits htext hne hdigits, ?_⟩
    rw [fitsInteger, Bounds.parse?_digits signed_contains_zero htext hne hdigits,
      Bounds.parse?_digits unsigned_contains_zero htext hne hdigits, Bool.or_eq_true,
      Bounds.isSome_check?, Bounds.isSome_check?]
    simp only [Bounds.Contains, Bounds.signed, Bounds.unsigned]
    omega
  · refine ⟨_, toInt?_minus htext hne hdigits, ?_⟩
    -- without a sign nothing is read here, not even zero
    rw [fitsInteger, Bounds.parse?_minus signed_contains_zero htext hne hdigits,
      Bounds.parse?_minus unsigned_contains_zero htext hne hdigits, if_pos (by decide),
      if_neg (by decide), Bool.or_eq_true, Bounds.isSome_check?]
    simp only [Bounds.Contains, Bounds.signed, Option.isSome_none, Bool.false_eq_true, or_false]
    omega

end StructSketch.Json.Numeral
