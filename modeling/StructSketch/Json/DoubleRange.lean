import StructSketch.Json.Numeral

/-!
# Numbers beyond the doubles

A literal becomes a double in three roundings: of its leading digits, of a power of ten, and of
the product of the two. So near the greatest double the roundings decide, and not the number
that the literal denotes.

* **`Numeral.leading`** takes the leading digits of a literal, as many as fit 64 bits, and the
  power of ten that goes with them.
* **`nearestDouble`** rounds a natural number to 53 binary digits.
* **`Numeral.exceedsDoubles`** tells whether the product has no finite double.
-/

namespace StructSketch.Json

/-- The nearest number of 53 significant binary digits; of two the one with the even last digit.
It is a double if it is below two to the 1024th. -/
def nearestDouble (number : Nat) : Nat :=
  let unit := Nat.pow 2 (number.log2 + 1 - 53)
  let below := number / unit
  let left := 2 * (number % unit)
  if left < unit ∨ (left = unit ∧ below % 2 = 0) then below * unit else (below + 1) * unit

namespace Numeral

/-- Appends digits to a number while it stays below two to the 64th. From the first digit on
that does not fit, the digits are left. -/
def appendDigits (number : Nat) : List Char → Nat × List Char
  | [] => (number, [])
  | digit :: rest =>
    let longer := 10 * number + (digit.toNat - '0'.toNat)
    if longer < 0x10000000000000000 then appendDigits longer rest else (number, digit :: rest)

/-- The number that a sign and decimal digits denote. -/
def signed : List Char → Int
  | '-' :: digits => -(natural digits : Int)
  | '+' :: digits => natural digits
  | digits => natural digits

/-- The leading digits of a literal and their power of ten. A digit of the whole part that is
left counts as a factor of ten; a digit of the fraction counts only if it is taken. -/
def leading (literal : String) : Nat × Int :=
  let amount := literal.toList.takeWhile fun c => c ≠ 'e' ∧ c ≠ 'E'
  let whole := (amount.takeWhile (· ≠ '.')).filter (· ≠ '-')
  let fraction := (amount.dropWhile (· ≠ '.')).drop 1
  let exponent := (literal.toList.dropWhile fun c => c ≠ 'e' ∧ c ≠ 'E').drop 1
  let (upper, wholeLeft) := appendDigits 0 whole
  let (digits, fractionLeft) := appendDigits upper fraction
  (digits, signed exponent + wholeLeft.length + fractionLeft.length - fraction.length)

/-- Whether a literal has no finite double. A power of ten above the 308th has none itself; one
below the first makes nothing greater. -/
def exceedsDoubles (literal : String) : Bool :=
  let (digits, power) := leading literal
  if digits = 0 ∨ power < 0 then false
  else if power > 308 then true
  else
    let product := nearestDouble digits * nearestDouble (Nat.pow 10 power.toNat)
    decide (Nat.pow 2 1024 ≤ nearestDouble product)

end Numeral

end StructSketch.Json
