import StructSketch.Go.Style
import StructSketch.Json.DoubleRange
import StructSketch.Json.Scan

/-!
# Values of settings

Settings are written as JSON. Their values are read straight off a text, so that the first thing
that is wrong decides, be it the text or the type of a value.

* **`readString`**, **`readBool`** and **`readIndentation`** read a value and return what is left
  of the text.
* An indentation is `"Tab"`, `{"Tab": null}` or `{"Space": n}` with `n` below two to the 64th.

What is left is never longer than the text.
-/

namespace StructSketch.Go

open Json (Cause peek takeWord takeNumber takeQuoted word?)

/-- Why settings are not read: the text is not JSON, or well-formed so far and not what is
wanted. -/
inductive Refusal where
  | malformed (cause : Cause)
  | unwanted
deriving DecidableEq

/-- What is read off the start of a text, and what is left. -/
abbrev Reading (α : Type) := Except Refusal (α × List UInt8)

/-- Refuses a text for what is wrong with it. -/
def checked {α : Type} (result : Except Cause α) : Except Refusal α :=
  result.mapError Refusal.malformed

/-- The refusal of a token of a wrong type: what is wrong with the token comes first. -/
def refusalOf {α : Type} (token : Except Cause α) : Refusal :=
  match token with
  | .ok _ => .unwanted
  | .error cause => .malformed cause

/-- The refusal of a value of a wrong type, by its first byte. -/
def mismatch (byte : UInt8) (rest : List UInt8) : Refusal :=
  if byte = 0x22 then refusalOf (takeQuoted .start rest)
  else if byte = 0x5B ∨ byte = 0x7B then .unwanted
  else match word? byte, Json.Numeral.begin? byte with
    | some (left, _), _ => refusalOf (takeWord left rest)
    | none, some numeral => refusalOf (takeNumber numeral rest)
    | none, none => .malformed .expectedValue

/-! ## Values of settings -/

/-- Reads a text. -/
def readString (text : List UInt8) : Reading String :=
  match peek .endInValue text with
  | .error cause => .error (.malformed cause)
  | .ok (byte, rest) =>
    if byte = 0x22 then checked (takeQuoted .start rest) else .error (mismatch byte rest)

/-- Reads a truth value. -/
def readBool (text : List UInt8) : Reading Bool :=
  match peek .endInValue text with
  | .error cause => .error (.malformed cause)
  | .ok (byte, rest) =>
    match word? byte with
    | some (left, .boolean value) => checked ((takeWord left rest).map (value, ·))
    | _ => .error (mismatch byte rest)

/-- Reads `null`. -/
def readNull (text : List UInt8) : Reading Unit :=
  match peek .endInValue text with
  | .error cause => .error (.malformed cause)
  | .ok (byte, rest) =>
    match word? byte with
    | some (left, .null) => checked ((takeWord left rest).map ((), ·))
    | _ => .error (mismatch byte rest)

/-- The number of spaces that a literal denotes, below two to the 64th. Any other number is read
as a double, and one without a finite double is not even a number. -/
def spacesOfLiteral (literal : String) : Except Refusal Nat :=
  match literal.toList.head?, Json.Numeral.integer? literal with
  | some '-', _ | _, none =>
    if Json.Numeral.exceedsDoubles literal then .error (.malformed .invalidNumber)
    else .error .unwanted
  | _, some value =>
    if value < 0x10000000000000000 then .ok value.toNat
    else if Json.Numeral.exceedsDoubles literal then .error (.malformed .invalidNumber)
    else .error .unwanted

/-- Reads a number of spaces. -/
def readSpaces (text : List UInt8) : Reading Nat :=
  match peek .endInValue text with
  | .error cause => .error (.malformed cause)
  | .ok (byte, rest) =>
    match Json.Numeral.begin? byte with
    | some numeral =>
      match takeNumber numeral rest with
      | .ok (literal, rest) => (spacesOfLiteral literal).map (·, rest)
      | .error cause => .error (.malformed cause)
    | none => .error (mismatch byte rest)

/-- Reads a colon. -/
def readColon (text : List UInt8) : Except Refusal (List UInt8) :=
  match peek .endInObject text with
  | .error cause => .error (.malformed cause)
  | .ok (byte, rest) => if byte = 0x3A then .ok rest else .error (.malformed .expectedColon)

/-- Reads the name of a member. Anything but a text is not JSON there. -/
def readName (text : List UInt8) : Reading String :=
  match peek .endInObject text with
  | .error cause => .error (.malformed cause)
  | .ok (byte, rest) =>
    if byte = 0x22 then checked (takeQuoted .start rest) else .error (.malformed .keyNotString)

/-- Reads what follows the name of an indentation in an object. -/
def readIndentationOf (name : String) (text : List UInt8) : Reading Indentation :=
  if name = "Tab" then
    match readColon text with
    | .ok rest => (readNull rest).map fun (_, rest) => (.tab, rest)
    | .error refusal => .error refusal
  else if name = "Space" then
    match readColon text with
    | .ok rest => (readSpaces rest).map fun (count, rest) => (.spaces count, rest)
    | .error refusal => .error refusal
  else .error .unwanted

/-- Reads an indentation. -/
def readIndentation (text : List UInt8) : Reading Indentation :=
  match peek .endInValue text with
  | .error cause => .error (.malformed cause)
  | .ok (byte, rest) =>
    if byte = 0x22 then
      match takeQuoted .start rest with
      | .ok (name, rest) => if name = "Tab" then .ok (.tab, rest) else .error .unwanted
      | .error cause => .error (.malformed cause)
    else if byte = 0x7B then
      match readName rest with
      | .error refusal => .error refusal
      | .ok (name, rest) =>
        match readIndentationOf name rest with
        | .error refusal => .error refusal
        | .ok (indentation, rest) =>
          match peek .endInObject rest with
          | .error cause => .error (.malformed cause)
          | .ok (byte, rest) =>
            if byte = 0x7D then .ok (indentation, rest)
            else .error (.malformed .expectedValue)
    else .error (.malformed .expectedValue)

/-! ## What is left is no longer -/

/-- A result that was mapped came from a result. -/
theorem exists_of_map_eq_ok {ε α β : Type} {f : α → β} {result : Except ε α} {y : β}
    (h : result.map f = .ok y) : ∃ x, result = .ok x ∧ f x = y := by
  cases result with
  | ok x => exact ⟨x, rfl, Except.ok.inj h⟩
  | error e => cases h

/-- Checking keeps results. -/
theorem eq_ok_of_checked {α : Type} {result : Except Cause α} {x : α}
    (h : checked result = .ok x) : result = .ok x := by
  cases result with
  | ok y => exact congrArg Except.ok (Except.ok.inj h)
  | error cause => cases h

/-- Behind a byte that was met, a quoted text lengthens nothing. -/
theorem length_le_of_peek_takeQuoted {cause : Cause} {byte : UInt8} {text left rest : List UInt8}
    {s : String} (hpeek : peek cause text = .ok (byte, left))
    (h : checked (takeQuoted .start left) = .ok (s, rest)) : rest.length ≤ text.length :=
  Nat.le_of_lt (Nat.lt_of_le_of_lt (Json.length_le_of_takeQuoted (eq_ok_of_checked h))
    (Json.length_lt_of_peek hpeek))

/-- Behind a byte that was met, a word that stands for a value lengthens nothing. -/
theorem length_le_of_peek_takeWord {α : Type} {cause : Cause} {byte : UInt8}
    {text left rest word : List UInt8} {value found : α} (hpeek : peek cause text = .ok (byte, left))
    (h : checked ((takeWord word left).map (value, ·)) = .ok (found, rest)) :
    rest.length ≤ text.length := by
  obtain ⟨_, hword, heq⟩ := exists_of_map_eq_ok (eq_ok_of_checked h)
  cases heq
  exact Nat.le_of_lt (Nat.lt_of_le_of_lt (Json.length_le_of_takeWord hword)
    (Json.length_lt_of_peek hpeek))

/-- Reading a text lengthens nothing. -/
theorem length_le_of_readString {text rest : List UInt8} {s : String}
    (h : readString text = .ok (s, rest)) : rest.length ≤ text.length := by
  unfold readString at h
  split at h
  · cases h
  · rename_i hpeek
    split at h
    · exact length_le_of_peek_takeQuoted hpeek h
    · cases h

/-- Reading a truth value lengthens nothing. -/
theorem length_le_of_readBool {text rest : List UInt8} {b : Bool}
    (h : readBool text = .ok (b, rest)) : rest.length ≤ text.length := by
  unfold readBool at h
  split at h
  · cases h
  · rename_i hpeek
    split at h
    · exact length_le_of_peek_takeWord hpeek h
    · cases h

/-- Reading `null` lengthens nothing. -/
theorem length_le_of_readNull {text rest : List UInt8} {u : Unit}
    (h : readNull text = .ok (u, rest)) : rest.length ≤ text.length := by
  unfold readNull at h
  split at h
  · cases h
  · rename_i hpeek
    split at h
    · exact length_le_of_peek_takeWord hpeek h
    · cases h

/-- Reading a number of spaces lengthens nothing. -/
theorem length_le_of_readSpaces {text rest : List UInt8} {count : Nat}
    (h : readSpaces text = .ok (count, rest)) : rest.length ≤ text.length := by
  unfold readSpaces at h
  split at h
  · cases h
  · rename_i hpeek
    split at h
    · split at h
      · rename_i htake
        obtain ⟨_, _, heq⟩ := exists_of_map_eq_ok h
        cases heq
        exact Nat.le_of_lt (Nat.lt_of_le_of_lt (Json.length_le_of_takeNumber htake)
          (Json.length_lt_of_peek hpeek))
      · cases h
    · cases h

/-- Reading a colon lengthens nothing. -/
theorem length_le_of_readColon {text rest : List UInt8} (h : readColon text = .ok rest) :
    rest.length ≤ text.length := by
  unfold readColon at h
  split at h
  · cases h
  · rename_i hpeek
    split at h
    · cases h; exact Nat.le_of_lt (Json.length_lt_of_peek hpeek)
    · cases h

/-- Reading the name of a member lengthens nothing. -/
theorem length_le_of_readName {text rest : List UInt8} {name : String}
    (h : readName text = .ok (name, rest)) : rest.length ≤ text.length := by
  unfold readName at h
  split at h
  · cases h
  · rename_i hpeek
    split at h
    · exact length_le_of_peek_takeQuoted hpeek h
    · cases h

/-- Reading behind the name of an indentation lengthens nothing. -/
theorem length_le_of_readIndentationOf {name : String} {text rest : List UInt8}
    {indentation : Indentation} (h : readIndentationOf name text = .ok (indentation, rest)) :
    rest.length ≤ text.length := by
  unfold readIndentationOf at h
  split at h
  · split at h
    · rename_i hcolon
      obtain ⟨⟨_, _⟩, hnull, heq⟩ := exists_of_map_eq_ok h
      cases heq
      exact Nat.le_trans (length_le_of_readNull hnull) (length_le_of_readColon hcolon)
    · cases h
  · split at h
    · split at h
      · rename_i hcolon
        obtain ⟨⟨_, _⟩, hspaces, heq⟩ := exists_of_map_eq_ok h
        cases heq
        exact Nat.le_trans (length_le_of_readSpaces hspaces) (length_le_of_readColon hcolon)
      · cases h
    · cases h

/-- Reading an indentation lengthens nothing. -/
theorem length_le_of_readIndentation {text rest : List UInt8} {indentation : Indentation}
    (h : readIndentation text = .ok (indentation, rest)) : rest.length ≤ text.length := by
  unfold readIndentation at h
  split at h
  · cases h
  · rename_i hpeek
    have hlt := Json.length_lt_of_peek hpeek
    split at h
    · split at h
      · rename_i htake
        have := Json.length_le_of_takeQuoted htake
        split at h
        · cases h; omega
        · cases h
      · cases h
    · split at h
      · split at h
        · cases h
        · rename_i hname
          have := length_le_of_readName hname
          split at h
          · cases h
          · rename_i hof
            have := length_le_of_readIndentationOf hof
            split at h
            · cases h
            · rename_i hclose
              have := Json.length_lt_of_peek hclose
              split at h
              · cases h; omega
              · cases h
      · cases h

end StructSketch.Go
