import StructSketch.Json.Reader

/-!
# Tokens at the start of a text

These readers take one token off a text and return what is left of it.

* **`skipBlanks`** drops the blanks at the start.
* **`takeWord`**, **`takeNumber`** and **`takeQuoted`** go on with a token whose first byte was
  taken already.
* **`peek`** finds the first byte that is no blank.

What is left is never longer than the text.
-/

namespace StructSketch.Json

/-- Drops the blanks at the start of a text. -/
def skipBlanks (text : List UInt8) : List UInt8 := text.dropWhile isBlank

/-- The first byte that is no blank and what follows it; `ifNone` says what is wrong with a text
that has none. -/
def peek (ifNone : Cause) (text : List UInt8) : Except Cause (UInt8 × List UInt8) :=
  match skipBlanks text with
  | [] => .error ifNone
  | byte :: rest => .ok (byte, rest)

/-- Takes the letters of a word. -/
def takeWord : List UInt8 → List UInt8 → Except Cause (List UInt8)
  | [], text => .ok text
  | _ :: _, [] => .error .endInValue
  | letter :: letters, byte :: rest =>
    if byte = letter then takeWord letters rest else .error .expectedWord

/-- Takes the rest of a number. -/
def takeNumber (numeral : Numeral) : List UInt8 → Except Cause (String × List UInt8)
  | [] => if numeral.isComplete then .ok (numeral.literal, []) else .error .endInValue
  | byte :: rest =>
    match numeral.next byte with
    | .ok (some numeral) => takeNumber numeral rest
    | .ok none => .ok (numeral.literal, byte :: rest)
    | .error cause => .error cause

/-- Takes the rest of a quoted text. -/
def takeQuoted (quoted : Quoted) : List UInt8 → Except Cause (String × List UInt8)
  | [] => .error .endInString
  | byte :: rest =>
    match quoted.next byte with
    | .ok (.more quoted) => takeQuoted quoted rest
    | .ok (.done text) => .ok (text, rest)
    | .error cause => .error cause

/-! ## What is left is no longer -/

/-- The byte that is found is taken off. -/
theorem length_lt_of_peek {ifNone : Cause} {text rest : List UInt8} {byte : UInt8}
    (h : peek ifNone text = .ok (byte, rest)) : rest.length < text.length := by
  unfold peek at h
  split at h
  · cases h
  · rename_i hskip
    cases h
    have := (List.dropWhile_suffix (l := text) isBlank).length_le
    rw [show text.dropWhile isBlank = _ from hskip, List.length_cons] at this
    exact this

/-- Taking a word lengthens nothing. -/
theorem length_le_of_takeWord {letters text rest : List UInt8}
    (h : takeWord letters text = .ok rest) : rest.length ≤ text.length := by
  fun_induction takeWord letters text with
  | case1 => cases h; exact Nat.le_refl _
  | case2 => cases h
  | case3 letters byte rest ih => exact Nat.le_succ_of_le (ih h)
  | case4 => cases h

/-- Taking a number lengthens nothing. -/
theorem length_le_of_takeNumber {numeral : Numeral} {text rest : List UInt8} {literal : String}
    (h : takeNumber numeral text = .ok (literal, rest)) : rest.length ≤ text.length := by
  fun_induction takeNumber numeral text with
  | case1 => cases h; exact Nat.le_refl _
  | case2 => cases h
  | case3 numeral byte rest numeral' hnext ih => exact Nat.le_succ_of_le (ih h)
  | case4 => cases h; exact Nat.le_refl _
  | case5 => cases h

/-- Taking a quoted text lengthens nothing. -/
theorem length_le_of_takeQuoted {quoted : Quoted} {text rest : List UInt8} {content : String}
    (h : takeQuoted quoted text = .ok (content, rest)) : rest.length ≤ text.length := by
  fun_induction takeQuoted quoted text with
  | case1 => cases h
  | case2 quoted byte rest quoted' hnext ih => exact Nat.le_succ_of_le (ih h)
  | case3 => cases h; exact Nat.le_succ _
  | case4 => cases h

end StructSketch.Json
