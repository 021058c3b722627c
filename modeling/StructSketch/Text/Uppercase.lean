import StructSketch.Text.Uppercase.Table

/-!
# Uppercasing a character

* **`Text.uppercase c`** is the full uppercase form of `c`: one character, or several where a
  letter has no single one.

The several-character forms are looked up first; the two lists share no letter.
-/

namespace StructSketch.Text

/-- The codes of the full uppercase form of a code. -/
def uppercaseCodes (code : Nat) : List Nat :=
  match expansions.lookup code with
  | some codes => codes
  | none => [(letterRuns.findSome? (·.upper? code)).getD code]

/-- The full uppercase form of a character. -/
def uppercase (c : Char) : List Char := (uppercaseCodes c.toNat).map Char.ofNat

end StructSketch.Text
