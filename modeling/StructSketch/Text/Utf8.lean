/-!
# UTF-8 texts

A text is written as bytes and read back from bytes.

* **`Text.bytes s`** is the UTF-8 form of `s`, character by character.
* **`Text.decode bytes`** reads a byte text from its start; where no character can be
  read it stops and tells how many bytes are left, the offending one included.
* **`Text.byteLE`** orders texts by their bytes, the first difference deciding and a
  proper beginning coming first.
-/

namespace StructSketch.Text

/-- The bytes of a text in UTF-8. -/
def bytes (s : String) : List UInt8 := s.toList.flatMap String.utf8EncodeChar

/-- Takes the first character off a byte text, if one is encoded there. -/
def uncons? (text : List UInt8) : Option (Char × List UInt8) :=
  ((text.take 4).toByteArray.utf8DecodeChar? 0).map fun c => (c, text.drop c.utf8Size)

/-- What follows the first character is shorter than the text. -/
theorem length_lt_of_uncons? {text rest : List UInt8} {c : Char}
    (h : uncons? text = some (c, rest)) : rest.length < text.length := by
  obtain ⟨d, hd, heq⟩ := Option.map_eq_some_iff.1 h
  obtain ⟨rfl, rfl⟩ := Prod.mk.inj heq
  have hpos := d.utf8Size_pos
  cases text with
  | nil => cases hd
  | cons b text =>
    rw [List.length_drop, List.length_cons]
    omega

/-- Reads the characters of a byte text; a failure tells how many bytes were left. -/
def decodeChars (text : List UInt8) : Except Nat (List Char) :=
  match _h : uncons? text with
  | some (c, rest) => (decodeChars rest).map (c :: ·)
  | none => if text.isEmpty then .ok [] else .error text.length
termination_by text.length
decreasing_by exact length_lt_of_uncons? ‹_›

/-- Reads a byte text; a failure tells how many bytes were left. -/
def decode (text : List UInt8) : Except Nat String :=
  (decodeChars text).map String.ofList

/-- The order of texts by their bytes. -/
def byteLE (s t : String) : Bool := decide (bytes s ≤ bytes t)

end StructSketch.Text
