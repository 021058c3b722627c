import StructSketch.Json.Basic
import StructSketch.Text.Utf8

/-!
# The grammar of JSON

The grammar of RFC 8259 as relations between byte texts and what they stand for, without a reader
and without a bound on nesting.

* **`Grammar.Number`**: number literals.
* **`Grammar.Character`** and **`Grammar.Quoted`**: quoted texts. A character is spelled as its
  UTF-8 form or by an escape, one beyond the first plane by two escaped surrogates.
* **`Grammar.Value`**, with **`Grammar.Element`** for a value between blanks: the values. The tree
  of an object has all members of the text, those of one key too.
* **`Grammar.Document`**: a text that is one value between blanks.
-/

namespace StructSketch.Json.Grammar

open String (utf8EncodeChar)

/-- Blanks are spaces, tabs, line feeds and carriage returns. -/
def Blanks (text : List UInt8) : Prop :=
  ∀ byte ∈ text, byte = 0x20 ∨ byte = 0x09 ∨ byte = 0x0A ∨ byte = 0x0D

/-! ## Numbers -/

/-- Only decimal digits. -/
def Digits (text : List UInt8) : Prop := ∀ byte ∈ text, 0x30 ≤ byte ∧ byte ≤ 0x39

/-- The whole part of a number: a zero, or digits that begin with no zero. -/
inductive Whole : List UInt8 → Prop
  | zero : Whole [0x30]
  | digits {first : UInt8} {rest : List UInt8} : first ≠ 0x30 → Digits (first :: rest) →
      Whole (first :: rest)

/-- The fraction of a number: a point and digits, or nothing. -/
inductive Fraction : List UInt8 → Prop
  | none : Fraction []
  | digits {digits : List UInt8} : digits ≠ [] → Digits digits → Fraction (0x2E :: digits)

/-- The exponent of a number: an `e`, a sign or none, and digits, or nothing. -/
inductive Exponent : List UInt8 → Prop
  | none : Exponent []
  | digits {mark : UInt8} {sign digits : List UInt8} : mark = 0x65 ∨ mark = 0x45 →
      sign = [] ∨ sign = [0x2B] ∨ sign = [0x2D] → digits ≠ [] → Digits digits →
      Exponent (mark :: (sign ++ digits))

/-- The literals of numbers. -/
inductive Number : List UInt8 → Prop
  | parts {sign whole fraction exponent : List UInt8} : sign = [] ∨ sign = [0x2D] →
      Whole whole → Fraction fraction → Exponent exponent →
      Number (sign ++ (whole ++ (fraction ++ exponent)))

/-! ## Quoted texts -/

/-- The hexadecimal digits of both cases with their values. -/
inductive HexDigit : UInt8 → Nat → Prop
  | decimal {value : Nat} : value < 10 → HexDigit (UInt8.ofNat (0x30 + value)) value
  | upper {value : Nat} : 10 ≤ value → value < 16 → HexDigit (UInt8.ofNat (0x37 + value)) value
  | lower {value : Nat} : 10 ≤ value → value < 16 → HexDigit (UInt8.ofNat (0x57 + value)) value

/-- An escape by four hexadecimal digits, with the number they denote. -/
inductive HexEscape : List UInt8 → Nat → Prop
  | digits {a b c d : UInt8} {u v w x : Nat} : HexDigit a u → HexDigit b v → HexDigit c w →
      HexDigit d x →
      HexEscape [0x5C, 0x75, a, b, c, d] (0x1000 * u + 0x100 * v + 0x10 * w + x)

/-- The letters behind a backslash with the characters they stand for. -/
def escapeLetters : List (UInt8 × Char) :=
  [(0x22, '"'), (0x5C, '\\'), (0x2F, '/'), (0x62, '\x08'), (0x66, '\x0c'), (0x6E, '\n'),
    (0x72, '\r'), (0x74, '\t')]

/-- The escapes of a character. -/
inductive Escape : List UInt8 → Char → Prop
  | letter {letter : UInt8} {c : Char} : (letter, c) ∈ escapeLetters → Escape [0x5C, letter] c
  | code {text : List UInt8} {c : Char} : HexEscape text c.toNat → Escape text c
  | pair {first second : List UInt8} {high low : Nat} {c : Char} : HexEscape first high →
      HexEscape second low → 0xD800 ≤ high → high < 0xDC00 → 0xDC00 ≤ low → low < 0xE000 →
      c.toNat = 0x10000 + 0x400 * (high - 0xD800) + (low - 0xDC00) → Escape (first ++ second) c

/-- The spellings of a character in a quoted text. -/
inductive Character : List UInt8 → Char → Prop
  | unescaped {c : Char} : 0x20 ≤ c.toNat → c ≠ '"' → c ≠ '\\' → Character (utf8EncodeChar c) c
  | escaped {text : List UInt8} {c : Char} : Escape text c → Character text c

/-- The spellings of some characters in a row. -/
inductive Characters : List UInt8 → List Char → Prop
  | nil : Characters [] []
  | cons {first rest : List UInt8} {c : Char} {cs : List Char} : Character first c →
      Characters rest cs → Characters (first ++ rest) (c :: cs)

/-- The spellings of a text in quotes. -/
inductive Quoted : List UInt8 → String → Prop
  | quotes {text : List UInt8} {content : String} : Characters text content.toList →
      Quoted (0x22 :: (text ++ [0x22])) content

/-! ## Values -/

mutual

/-- The spellings of a value. -/
inductive Value : List UInt8 → Json → Prop
  | nullWord : Value (Text.bytes "null") .null
  | trueWord : Value (Text.bytes "true") (.boolean true)
  | falseWord : Value (Text.bytes "false") (.boolean false)
  | number {literal : String} : Number (Text.bytes literal) →
      Value (Text.bytes literal) (.number literal)
  | string {text : List UInt8} {content : String} : Quoted text content →
      Value text (.string content)
  | emptyArray {blanks : List UInt8} : Blanks blanks → Value (0x5B :: (blanks ++ [0x5D])) (.array [])
  | array {text : List UInt8} {items : List Json} : Elements text items →
      Value (0x5B :: (text ++ [0x5D])) (.array items)
  | emptyObject {blanks : List UInt8} : Blanks blanks →
      Value (0x7B :: (blanks ++ [0x7D])) (.object [])
  | object {text : List UInt8} {members : List (String × Json)} : Members text members →
      Value (0x7B :: (text ++ [0x7D])) (.object members)

/-- A value between blanks. -/
inductive Element : List UInt8 → Json → Prop
  | padded {before text after : List UInt8} {value : Json} : Blanks before → Value text value →
      Blanks after → Element (before ++ (text ++ after)) value

/-- Elements with commas between them. -/
inductive Elements : List UInt8 → List Json → Prop
  | one {text : List UInt8} {item : Json} : Element text item → Elements text [item]
  | more {text last : List UInt8} {items : List Json} {item : Json} : Elements text items →
      Element last item → Elements (text ++ 0x2C :: last) (items ++ [item])

/-- A key, a colon and an element. -/
inductive Member : List UInt8 → String × Json → Prop
  | pair {before key after text : List UInt8} {name : String} {value : Json} : Blanks before →
      Quoted key name → Blanks after → Element text value →
      Member (before ++ (key ++ (after ++ 0x3A :: text))) (name, value)

/-- Members with commas between them. -/
inductive Members : List UInt8 → List (String × Json) → Prop
  | one {text : List UInt8} {member : String × Json} : Member text member →
      Members text [member]
  | more {text last : List UInt8} {members : List (String × Json)} {member : String × Json} :
      Members text members → Member last member →
      Members (text ++ 0x2C :: last) (members ++ [member])

end

/-- A document is a text that is one value between blanks. -/
def Document (text : List UInt8) (tree : Json) : Prop := Element text tree

end StructSketch.Json.Grammar
