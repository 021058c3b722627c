import StructSketch.Json.Malformed

/-!
# Number literals

A literal is an optional minus, a whole part without leading zeros, an optional fraction and an
optional exponent.

* **`Numeral`** is a literal that is being read, byte by byte: `begin?` takes its first byte and
  `next` decides on each further one. A byte that no literal has there is refused; a byte that
  only cannot continue a complete literal ends it.
* **`Numeral.isLiteral`** tells whether a whole text is a literal.
* **`Numeral.integer?`** is the value of a literal without fraction and exponent.
* **`Numeral.Bounds.parse?`** reads an integer of a fixed width and fails at the first digit that
  leaves its bounds; **`Numeral.fitsInteger`** tells whether a literal is read so in 64 bits, signed
  or unsigned.
-/

namespace StructSketch.Json

/-- The part of a literal that was read last. -/
inductive Numeral.Part where
  | sign
  | zero
  | whole
  | point
  | fraction
  | mark
  | markSign
  | exponent
deriving DecidableEq

/-- A literal that is being read; `read` holds its bytes, the latest first. -/
structure Numeral where
  part : Numeral.Part
  read : List UInt8

/-- The digits `0` to `9`. -/
def isDigit (byte : UInt8) : Bool := 0x30 ≤ byte && byte ≤ 0x39

/-- The letters `e` and `E`. -/
def isExponentMark (byte : UInt8) : Bool := byte = 0x65 || byte = 0x45

namespace Numeral

/-- The part that a first byte begins. -/
def Part.begin? (byte : UInt8) : Option Part :=
  if byte = 0x2D then some .sign
  else if byte = 0x30 then some .zero
  else if isDigit byte then some .whole
  else none

/-- The part that a byte leads to; none when the literal is complete and ends before it. -/
def Part.next (part : Part) (byte : UInt8) : Except Cause (Option Part) :=
  match part with
  | .sign =>
    if byte = 0x30 then .ok (some .zero)
    else if isDigit byte then .ok (some .whole)
    else .error .invalidNumber
  | .zero =>
    if isDigit byte then .error .invalidNumber
    else if byte = 0x2E then .ok (some .point)
    else if isExponentMark byte then .ok (some .mark)
    else .ok none
  | .whole =>
    if isDigit byte then .ok (some .whole)
    else if byte = 0x2E then .ok (some .point)
    else if isExponentMark byte then .ok (some .mark)
    else .ok none
  | .point => if isDigit byte then .ok (some .fraction) else .error .invalidNumber
  | .fraction =>
    if isDigit byte then .ok (some .fraction)
    else if isExponentMark byte then .ok (some .mark)
    else .ok none
  | .mark =>
    if byte = 0x2B || byte = 0x2D then .ok (some .markSign)
    else if isDigit byte then .ok (some .exponent)
    else .error .invalidNumber
  | .markSign => if isDigit byte then .ok (some .exponent) else .error .invalidNumber
  | .exponent => if isDigit byte then .ok (some .exponent) else .ok none

/-- Whether a literal may end behind a part. -/
def Part.isComplete : Part → Bool
  | .zero | .whole | .fraction | .exponent => true
  | .sign | .point | .mark | .markSign => false

/-- A literal of one byte. -/
def begin? (byte : UInt8) : Option Numeral := (Part.begin? byte).map (⟨·, [byte]⟩)

/-- The literal with one more byte; none when it ends before that byte. -/
def next (n : Numeral) (byte : UInt8) : Except Cause (Option Numeral) :=
  (n.part.next byte).map fun part? => part?.map (⟨·, byte :: n.read⟩)

/-- Whether the literal may end here. -/
def isComplete (n : Numeral) : Bool := n.part.isComplete

/-- The literal as a text. -/
def literal (n : Numeral) : String :=
  String.ofList (n.read.reverse.map fun byte => Char.ofNat byte.toNat)

/-- Whether a literal that was read up to a part can be completed by exactly these bytes. -/
def Part.completes : Part → List UInt8 → Bool
  | part, [] => part.isComplete
  | part, byte :: rest =>
    match part.next byte with
    | .ok (some part) => completes part rest
    | _ => false

/-- Whether a text is a number literal. -/
def isLiteral : List UInt8 → Bool
  | [] => false
  | byte :: rest =>
    match Part.begin? byte with
    | some part => part.completes rest
    | none => false

/-- The number that decimal digits denote. -/
def natural (digits : List Char) : Nat :=
  digits.foldl (fun value digit => 10 * value + (digit.toNat - '0'.toNat)) 0

/-- Whether a literal has a fraction or an exponent. -/
def isFractional (literal : String) : Bool :=
  literal.toList.any fun c => c = '.' || c = 'e' || c = 'E'

/-- The value of a literal without fraction and exponent. -/
def integer? (literal : String) : Option Int :=
  if isFractional literal then none
  else match literal.toList with
    | '-' :: digits => some (-(natural digits : Int))
    | digits => some (natural digits)

/-! ## Integers of a fixed width -/

/-- The least and the greatest integer of a type. -/
structure Bounds where
  least : Int
  greatest : Int

namespace Bounds

/-- The integers of 64 bits with a sign. -/
def signed : Bounds := ⟨-0x8000000000000000, 0x7FFFFFFFFFFFFFFF⟩

/-- The integers of 64 bits without a sign. -/
def unsigned : Bounds := ⟨0, 0xFFFFFFFFFFFFFFFF⟩

/-- A number that is within the bounds. -/
def check? (bounds : Bounds) (value : Int) : Option Int :=
  if bounds.least ≤ value ∧ value ≤ bounds.greatest then some value else none

/-- Appends digits to a number, on one side of zero. For each digit the number is shifted and then
moved by the digit, and neither may leave the bounds. -/
def append? (bounds : Bounds) (isNegative : Bool) (value : Int) : List Char → Option Int
  | [] => some value
  | digit :: rest =>
    if digit.isDigit then
      (bounds.check? (10 * value)).bind fun shifted =>
        let distance : Int := (digit.toNat - '0'.toNat : Nat)
        (bounds.check? (if isNegative then shifted - distance else shifted + distance)).bind
          fun longer => append? bounds isNegative longer rest
    else none

/-- The number that a text of a sign or none and some digits denotes, within the bounds. A minus
needs a type with negative numbers. -/
def parse? (bounds : Bounds) (text : String) : Option Int :=
  match text.toList with
  | [] | ['-'] | ['+'] => none
  | '-' :: digits => if bounds.least < 0 then bounds.append? true 0 digits else none
  | '+' :: digits => bounds.append? false 0 digits
  | digits => bounds.append? false 0 digits

end Bounds

/-- Whether a text denotes an integer of 64 bits, signed or unsigned. -/
def fitsInteger (literal : String) : Bool :=
  (Bounds.signed.parse? literal).isSome || (Bounds.unsigned.parse? literal).isSome

end Numeral

end StructSketch.Json
