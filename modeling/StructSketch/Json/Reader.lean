import StructSketch.Json.Basic
import StructSketch.Json.Numeral
import StructSketch.Json.Quoted

/-!
# Reading JSON byte by byte

The reader takes a document one byte at a time and keeps the containers that are still open.
Containers may be nested without limit, and a document is refused at the first byte that
nothing can follow.

* **`Reader.next`** takes one byte; a refusal is never a truncation.
* **`Reader.finish`** ends the document; a refusal is always a truncation.
* **`Json.parse`** reads a whole text: the value, or what is wrong right behind the byte that
  was refused, or at the end.

An object whose first key is `numberTag` stands for a number: its only member holds the literal
as a text. Any other value there is read to its end before it is refused.
-/

namespace StructSketch.Json

/-- The key of an object that stands for a number. -/
def numberTag : String := "$serde_json::private::Number"

/-- An open container around a value that is being read: an array with its items so far, the
latest first, an object with its members so far and the key of the value, or an object that
stands for a number. -/
inductive Frame where
  | item (items : List Json)
  | member (members : List (String × Json)) (key : String)
  | tagged

/-- A document that is being read. `outer` holds the open containers around the place, the
innermost first. -/
inductive Reader where
  /-- A value must come. -/
  | beforeValue (outer : List Frame)
  /-- An array was opened. -/
  | beforeFirstItem (outer : List Frame)
  /-- An item has ended. -/
  | afterItem (items : List Json) (outer : List Frame)
  /-- An item and a comma were read. -/
  | beforeItem (items : List Json) (outer : List Frame)
  /-- An object was opened. -/
  | beforeFirstKey (outer : List Frame)
  /-- A key is being read. -/
  | inKey (members : List (String × Json)) (quoted : Quoted) (outer : List Frame)
  /-- A key was read. -/
  | afterKey (members : List (String × Json)) (key : String) (outer : List Frame)
  /-- A member has ended. -/
  | afterMember (members : List (String × Json)) (outer : List Frame)
  /-- A member and a comma were read. -/
  | beforeKey (members : List (String × Json)) (outer : List Frame)
  /-- A word is being read; `left` must follow. -/
  | inWord (left : List UInt8) (meaning : Json) (outer : List Frame)
  /-- A number is being read. -/
  | inNumber (numeral : Numeral) (outer : List Frame)
  /-- A text is being read. -/
  | inText (quoted : Quoted) (outer : List Frame)
  /-- The text of a tagged number was read. -/
  | afterTagged (literal : String) (outer : List Frame)
  /-- A value was read behind the tag of a number that is no literal. -/
  | mistagged
  /-- The document has ended. -/
  | ended (document : Json)

/-- The blanks of JSON: space, tab, line feed and carriage return. -/
def isBlank (byte : UInt8) : Bool :=
  byte = 0x20 || byte = 0x09 || byte = 0x0A || byte = 0x0D

/-- The bytes of `true`, `false` and `null` behind the first one, with their meaning. -/
def word? (byte : UInt8) : Option (List UInt8 × Json) :=
  if byte = 0x74 then some ([0x72, 0x75, 0x65], .boolean true)
  else if byte = 0x66 then some ([0x61, 0x6C, 0x73, 0x65], .boolean false)
  else if byte = 0x6E then some ([0x75, 0x6C, 0x6C], .null)
  else none

namespace Reader

/-- A document of which nothing was read. -/
def start : Reader := .beforeValue []

/-- Puts a value that has ended into its container. -/
def settle (value : Json) : List Frame → Reader
  | [] => .ended value
  | .item items :: outer => .afterItem (value :: items) outer
  | .member members key :: outer => .afterMember (put key value members) outer
  | .tagged :: outer =>
    match value with
    | .string literal =>
      if Numeral.isLiteral (Text.bytes literal) then .afterTagged literal outer else .mistagged
    | _ => .mistagged

/-- Takes the first byte of a value. -/
def begin (outer : List Frame) (byte : UInt8) : Except Cause Reader :=
  if byte = 0x22 then .ok (.inText .start outer)
  else if byte = 0x5B then .ok (.beforeFirstItem outer)
  else if byte = 0x7B then .ok (.beforeFirstKey outer)
  else match word? byte, Numeral.begin? byte with
    | some (left, meaning), _ => .ok (.inWord left meaning outer)
    | none, some numeral => .ok (.inNumber numeral outer)
    | none, none => .error .expectedValue

/-- Takes one byte between the tokens of a document, or the first byte of a token. -/
def between : Reader → UInt8 → Except Cause Reader
  | .beforeValue outer, byte => begin outer byte
  | .beforeFirstItem outer, byte =>
    if byte = 0x5D then .ok (settle (.array []) outer) else begin (.item [] :: outer) byte
  | .afterItem items outer, byte =>
    if byte = 0x2C then .ok (.beforeItem items outer)
    else if byte = 0x5D then .ok (settle (.array items.reverse) outer)
    else .error .expectedCommaOrBracket
  | .beforeItem items outer, byte =>
    if byte = 0x5D then .error .trailingComma else begin (.item items :: outer) byte
  | .beforeFirstKey outer, byte =>
    if byte = 0x7D then .ok (settle (.object []) outer)
    else if byte = 0x22 then .ok (.inKey [] .start outer)
    else .error .keyNotString
  | .afterKey members key outer, byte =>
    if byte = 0x3A then
      if members.isEmpty ∧ key = numberTag then .ok (.beforeValue (.tagged :: outer))
      else .ok (.beforeValue (.member members key :: outer))
    else .error .expectedColon
  | .afterMember members outer, byte =>
    if byte = 0x2C then .ok (.beforeKey members outer)
    else if byte = 0x7D then .ok (settle (.object members) outer)
    else .error .expectedCommaOrBrace
  | .beforeKey members outer, byte =>
    if byte = 0x7D then .error .trailingComma
    else if byte = 0x22 then .ok (.inKey members .start outer)
    else .error .keyNotString
  | .afterTagged literal outer, byte =>
    if byte = 0x7D then .ok (settle (.number literal) outer)
    else if byte = 0x2C then .error .trailingComma
    else .error .trailingCharacters
  | .mistagged, _ => .error .invalidNumber
  | _, _ => .error .trailingCharacters

/-- Takes one byte outside of a token; blanks change nothing there. -/
def outside (reader : Reader) (byte : UInt8) : Except Cause Reader :=
  if isBlank byte then .ok reader else between reader byte

/-- Takes one byte. -/
def next : Reader → UInt8 → Except Cause Reader
  | .inKey members quoted outer, byte =>
    (quoted.next byte).map fun
      | .more quoted => .inKey members quoted outer
      | .done key => .afterKey members key outer
  | .inText quoted outer, byte =>
    (quoted.next byte).map fun
      | .more quoted => .inText quoted outer
      | .done text => settle (.string text) outer
  | .inWord left meaning outer, byte =>
    match left with
    | [] => outside (settle meaning outer) byte
    | [last] => if byte = last then .ok (settle meaning outer) else .error .expectedWord
    | letter :: left =>
      if byte = letter then .ok (.inWord left meaning outer) else .error .expectedWord
  | .inNumber numeral outer, byte =>
    match numeral.next byte with
    | .ok (some numeral) => .ok (.inNumber numeral outer)
    | .ok none => outside (settle (.number numeral.literal) outer) byte
    | .error cause => .error cause
  | reader, byte => outside reader byte

/-- Ends a document between two tokens. -/
def finishBetween : Reader → Except Cause Json
  | .ended document => .ok document
  | .beforeFirstItem _ | .afterItem .. => .error .endInArray
  | .beforeFirstKey _ | .afterKey .. | .afterMember .. | .afterTagged .. | .mistagged =>
    .error .endInObject
  | .inKey .. | .inText .. => .error .endInString
  | .beforeValue _ | .beforeItem .. | .beforeKey .. | .inWord .. | .inNumber .. =>
    .error .endInValue

/-- Ends a document. -/
def finish : Reader → Except Cause Json
  | .inNumber numeral outer =>
    if numeral.isComplete then finishBetween (settle (.number numeral.literal) outer)
    else .error .endInValue
  | reader => finishBetween reader

/-- Reads the rest of a document behind a place. -/
def run (reader : Reader) (place : Position) : List UInt8 → Except Malformed Json
  | [] => reader.finish.mapError fun cause => ⟨cause, cause.placedAt place⟩
  | byte :: rest =>
    match reader.next byte with
    | .ok reader => run reader (place.advance byte) rest
    | .error cause => .error ⟨cause, cause.placedAt (place.advance byte)⟩

end Reader

/-- Reads a JSON document. -/
def parse (text : List UInt8) : Except Malformed Json := Reader.start.run .start text

end StructSketch.Json
