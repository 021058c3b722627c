import StructSketch.Text.Utf8
import StructSketch.Json.Malformed

/-!
# Quoted texts

* **`Quoted`** is a quoted text that is being read, from behind its opening quote: `next` takes
  one byte and either goes on, or ends with the text, or refuses.

A text is gathered as bytes, an escape adding the UTF-8 form of what it stands for; only the
closing quote asks whether the bytes are a text. The four digits after `\u` are looked at
together, and two escaped surrogates make one character.
-/

namespace StructSketch.Json

/-- The value of a hexadecimal digit. -/
def hexDigit? (byte : UInt8) : Option Nat :=
  if 0x30 ≤ byte && byte ≤ 0x39 then some (byte.toNat - 0x30)
  else if 0x61 ≤ byte && byte ≤ 0x66 then some (byte.toNat - 0x57)
  else if 0x41 ≤ byte && byte ≤ 0x46 then some (byte.toNat - 0x37)
  else none

/-- The number that hexadecimal digits denote, the last digit first. -/
def hexNumber? : List UInt8 → Option Nat
  | [] => some 0
  | digit :: earlier =>
    match hexDigit? digit, hexNumber? earlier with
    | some low, some high => some (16 * high + low)
    | _, _ => none

/-- The byte that a backslash and one letter stand for. -/
def simpleEscape? (byte : UInt8) : Option UInt8 :=
  if byte = 0x22 || byte = 0x5C || byte = 0x2F then some byte
  else if byte = 0x62 then some 0x08
  else if byte = 0x66 then some 0x0C
  else if byte = 0x6E then some 0x0A
  else if byte = 0x72 then some 0x0D
  else if byte = 0x74 then some 0x09
  else none

/-- The first half of a surrogate pair. -/
def isHighSurrogate (code : Nat) : Bool := 0xD800 ≤ code && code < 0xDC00

/-- The second half of a surrogate pair. -/
def isLowSurrogate (code : Nat) : Bool := 0xDC00 ≤ code && code < 0xE000

/-- The character that a surrogate pair stands for. -/
def pairedChar (high low : Nat) : Char :=
  Char.ofNat (0x10000 + 0x400 * (high - 0xD800) + (low - 0xDC00))

/-- A quoted text that is being read. In each state `content` holds the bytes of the text so far,
and `digits` those of an escape, the latest first. -/
inductive Quoted where
  /-- Any byte may follow. -/
  | plain (content : List UInt8)
  /-- A backslash was read. -/
  | escape (content : List UInt8)
  /-- A backslash and a `u` were read, and fewer than four digits. -/
  | code (content digits : List UInt8)
  /-- A high surrogate was read; a backslash must follow. -/
  | pairEscape (content : List UInt8) (high : Nat)
  /-- A high surrogate and a backslash were read; a `u` must follow. -/
  | pairLetter (content : List UInt8) (high : Nat)
  /-- A high surrogate, a backslash and a `u` were read, and fewer than four digits. -/
  | pairCode (content : List UInt8) (high : Nat) (digits : List UInt8)

namespace Quoted

/-- What one byte leads to. -/
inductive Progress where
  | more (quoted : Quoted)
  | done (text : String)

/-- A quoted text of which nothing was read. -/
def start : Quoted := .plain []

/-- Adds a character to the bytes of a text. -/
def push (content : List UInt8) (c : Char) : Quoted :=
  .plain ((String.utf8EncodeChar c).reverse ++ content)

/-- Ends a quoted text. -/
def close (content : List UInt8) : Except Cause Progress :=
  match Text.decode content.reverse with
  | .ok text => .ok (.done text)
  | .error undecoded => .error (.invalidCodePoint undecoded)

/-- Takes the code of a `\u` escape. -/
def takeCode (content : List UInt8) (code : Nat) : Except Cause Progress :=
  if isLowSurrogate code then .error .loneSurrogate
  else if isHighSurrogate code then .ok (.more (.pairEscape content code))
  else .ok (.more (push content (Char.ofNat code)))

/-- Takes the second code of a surrogate pair. -/
def takePairCode (content : List UInt8) (high low : Nat) : Except Cause Progress :=
  if isLowSurrogate low then .ok (.more (push content (pairedChar high low)))
  else .error .loneSurrogate

/-- Takes one byte. -/
def next : Quoted → UInt8 → Except Cause Progress
  | .plain content, byte =>
    if byte = 0x22 then close content
    else if byte = 0x5C then .ok (.more (.escape content))
    else if byte < 0x20 then .error .controlCharacter
    else .ok (.more (.plain (byte :: content)))
  | .escape content, byte =>
    if byte = 0x75 then .ok (.more (.code content []))
    else match simpleEscape? byte with
      | some meant => .ok (.more (.plain (meant :: content)))
      | none => .error .invalidEscape
  | .code content digits, byte =>
    if digits.length < 3 then .ok (.more (.code content (byte :: digits)))
    else match hexNumber? (byte :: digits) with
      | some unit => takeCode content unit
      | none => .error .invalidEscape
  | .pairEscape content high, byte =>
    if byte = 0x5C then .ok (.more (.pairLetter content high)) else .error .endOfPair
  | .pairLetter content high, byte =>
    if byte = 0x75 then .ok (.more (.pairCode content high [])) else .error .endOfPair
  | .pairCode content high digits, byte =>
    if digits.length < 3 then .ok (.more (.pairCode content high (byte :: digits)))
    else match hexNumber? (byte :: digits) with
      | some unit => takePairCode content high unit
      | none => .error .invalidEscape

end Quoted

end StructSketch.Json
