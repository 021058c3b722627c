/-!
# Why and where a text is not JSON

* **`Json.Cause`** lists what can be wrong with a text. A cause is a *truncation* when the text
  ends too early; every other cause lies in a byte that is there.
* **`Json.Position`** counts lines from one and, within a line, the bytes up to a place.
* **`Json.Malformed`** is a cause with its place; `describe` words both.
-/

namespace StructSketch.Json

/-- What is wrong with a text. -/
inductive Cause where
  /-- The text ends where a value should come or go on. -/
  | endInValue
  /-- The text ends inside an array. -/
  | endInArray
  /-- The text ends inside an object. -/
  | endInObject
  /-- The text ends inside a quoted text. -/
  | endInString
  /-- A key is not followed by a colon. -/
  | expectedColon
  /-- An item is followed by neither a comma nor the end of its array. -/
  | expectedCommaOrBracket
  /-- A member is followed by neither a comma nor the end of its object. -/
  | expectedCommaOrBrace
  /-- A word begins like `true`, `false` or `null` and goes on differently. -/
  | expectedWord
  /-- A byte begins no value. -/
  | expectedValue
  /-- A backslash begins no escape. -/
  | invalidEscape
  /-- A number has a byte that no number has there. -/
  | invalidNumber
  /-- A quoted text is no UTF-8; `undecoded` of its bytes are left from the first bad one on. -/
  | invalidCodePoint (undecoded : Nat)
  /-- A quoted text holds a bare control character. -/
  | controlCharacter
  /-- A key is not a quoted text. -/
  | keyNotString
  /-- An escaped surrogate does not belong to a pair. -/
  | loneSurrogate
  /-- An escaped high surrogate is not followed by an escape. -/
  | endOfPair
  /-- A comma is followed by the end of its container. -/
  | trailingComma
  /-- The document is followed by more than blanks. -/
  | trailingCharacters
deriving DecidableEq

/-- Whether the text is only too short. -/
def Cause.isTruncation : Cause → Bool
  | .endInValue | .endInArray | .endInObject | .endInString => true
  | _ => false

/-- The wording of a cause. -/
def Cause.text : Cause → String
  | .endInValue => "EOF while parsing a value"
  | .endInArray => "EOF while parsing a list"
  | .endInObject => "EOF while parsing an object"
  | .endInString => "EOF while parsing a string"
  | .expectedColon => "expected `:`"
  | .expectedCommaOrBracket => "expected `,` or `]`"
  | .expectedCommaOrBrace => "expected `,` or `\x7d`"
  | .expectedWord => "expected ident"
  | .expectedValue => "expected value"
  | .invalidEscape => "invalid escape"
  | .invalidNumber => "invalid number"
  | .invalidCodePoint _ => "invalid unicode code point"
  | .controlCharacter => "control character (\\u0000-\\u001F) found while parsing a string"
  | .keyNotString => "key must be a string"
  | .loneSurrogate => "lone leading surrogate in hex escape"
  | .endOfPair => "unexpected end of hex escape"
  | .trailingComma => "trailing comma"
  | .trailingCharacters => "trailing characters"

/-- A place between two bytes of a text. -/
structure Position where
  line : Nat
  column : Nat
deriving DecidableEq

namespace Position

/-- The place before the first byte. -/
def start : Position := ⟨1, 0⟩

/-- The place behind one more byte; a line feed begins a line. -/
def advance (place : Position) (byte : UInt8) : Position :=
  if byte = 0x0A then ⟨place.line + 1, 0⟩ else ⟨place.line, place.column + 1⟩

/-- The place behind a text. -/
def behind (text : List UInt8) : Position := text.foldl advance start

/-- The place a number of bytes earlier, but not before the beginning of the line. -/
def back (place : Position) (count : Nat) : Position := ⟨place.line, place.column - count⟩

end Position

/-- The place a cause is reported at when it comes up at `place`: bytes that are no UTF-8 are
reported before themselves. -/
def Cause.placedAt (place : Position) : Cause → Position
  | .invalidCodePoint undecoded => place.back undecoded
  | _ => place

/-- A text that is not JSON: what is wrong with it, and where. -/
structure Malformed where
  cause : Cause
  position : Position
deriving DecidableEq

/-- The cause and its place in words. -/
def Malformed.describe (m : Malformed) : String :=
  m.cause.text ++ " at line " ++ toString m.position.line ++
    " column " ++ toString m.position.column

end StructSketch.Json
