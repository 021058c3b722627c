import StructSketch.Json.Reader

/-!
# Passing over a value

A value that is not wanted is passed over: its structure is checked, its contents are not kept.

* **`Skim`** is a value that is being passed over; it keeps only the kinds of the open
  containers.
* **`skim`** passes over the value at the start of a text and returns what is left.

Passing over is more lenient than reading: an escape in a text needs four digits, but they need
not make a character. It has a word of its own for a number that the text cuts short: the
number is then invalid, and not only too short.
-/

namespace StructSketch.Json

/-- The kinds of containers. -/
inductive Container where
  | array
  | object
deriving DecidableEq

/-- A quoted text that is being passed over. -/
inductive Skim.Quoted where
  | plain
  | escape
  /-- A `u` escape lacks `lacking` digits; `sound` tells whether those read are digits. -/
  | code (lacking : Nat) (sound : Bool)

/-- A value that is being passed over. `outer` holds the open containers, the innermost first. -/
inductive Skim where
  | beforeValue (outer : List Container)
  | beforeFirstItem (outer : List Container)
  | beforeFirstKey (outer : List Container)
  | beforeKey (outer : List Container)
  | inKey (quoted : Skim.Quoted) (outer : List Container)
  | afterKey (outer : List Container)
  | afterValue (innermost : Container) (outer : List Container)
  | inWord (left : List UInt8) (outer : List Container)
  | inNumber (part : Numeral.Part) (outer : List Container)
  | inText (quoted : Skim.Quoted) (outer : List Container)

namespace Skim

/-- What one byte leads to: more, or the end of the value behind or before the byte. -/
inductive Progress where
  | more (skim : Skim)
  | endBehind
  | endBefore

/-- Takes one byte of a quoted text; none at its end. -/
def Quoted.next : Quoted → UInt8 → Except Cause (Option Quoted)
  | .plain, byte =>
    if byte = 0x22 then .ok none
    else if byte = 0x5C then .ok (some .escape)
    else if byte < 0x20 then .error .controlCharacter
    else .ok (some .plain)
  | .escape, byte =>
    if byte = 0x75 then .ok (some (.code 4 true))
    else if (simpleEscape? byte).isSome then .ok (some .plain)
    else .error .invalidEscape
  | .code lacking sound, byte =>
    let sound := sound && (hexDigit? byte).isSome
    if lacking > 1 then .ok (some (.code (lacking - 1) sound))
    else if sound then .ok (some .plain)
    else .error .invalidEscape

/-- Ends a value behind its last byte. -/
def settle : List Container → Progress
  | [] => .endBehind
  | innermost :: outer => .more (.afterValue innermost outer)

/-- Takes the first byte of a value. -/
def begin (outer : List Container) (byte : UInt8) : Except Cause Progress :=
  if byte = 0x22 then .ok (.more (.inText .plain outer))
  else if byte = 0x5B then .ok (.more (.beforeFirstItem outer))
  else if byte = 0x7B then .ok (.more (.beforeFirstKey outer))
  else match word? byte, Numeral.Part.begin? byte with
    | some (left, _), _ => .ok (.more (.inWord left outer))
    | none, some part => .ok (.more (.inNumber part outer))
    | none, none => .error .expectedValue

/-- Takes the byte behind a value in a container. -/
def afterValueNext (innermost : Container) (outer : List Container) (byte : UInt8) :
    Except Cause Progress :=
  match innermost with
  | .array =>
    if byte = 0x2C then .ok (.more (.beforeValue (.array :: outer)))
    else if byte = 0x5D then .ok (settle outer)
    else .error .expectedCommaOrBracket
  | .object =>
    if byte = 0x2C then .ok (.more (.beforeKey outer))
    else if byte = 0x7D then .ok (settle outer)
    else .error .expectedCommaOrBrace

/-- Takes one byte outside of a token; blanks change nothing there. -/
def outside (skim : Skim) (byte : UInt8) : Except Cause Progress :=
  if isBlank byte then .ok (.more skim)
  else match skim with
    | .beforeValue outer => begin outer byte
    | .beforeFirstItem outer =>
      if byte = 0x5D then .ok (settle outer) else begin (.array :: outer) byte
    | .beforeFirstKey outer =>
      if byte = 0x7D then .ok (settle outer)
      else if byte = 0x22 then .ok (.more (.inKey .plain outer))
      else .error .keyNotString
    | .beforeKey outer =>
      if byte = 0x22 then .ok (.more (.inKey .plain outer)) else .error .keyNotString
    | .afterKey outer =>
      if byte = 0x3A then .ok (.more (.beforeValue (.object :: outer)))
      else .error .expectedColon
    | .afterValue innermost outer => afterValueNext innermost outer byte
    | _ => .error .expectedValue

/-- Takes one byte. -/
def next : Skim → UInt8 → Except Cause Progress
  | .inKey quoted outer, byte =>
    (quoted.next byte).map fun
      | some quoted => .more (.inKey quoted outer)
      | none => .more (.afterKey outer)
  | .inText quoted outer, byte =>
    (quoted.next byte).map fun
      | some quoted => .more (.inText quoted outer)
      | none => settle outer
  | .inWord left outer, byte =>
    match left with
    | [last] => if byte = last then .ok (settle outer) else .error .expectedWord
    | letter :: left =>
      if byte = letter then .ok (.more (.inWord left outer)) else .error .expectedWord
    | [] => .ok .endBefore
  | .inNumber part outer, byte =>
    match part.next byte with
    | .ok (some part) => .ok (.more (.inNumber part outer))
    | .ok none =>
      match outer with
      | [] => .ok .endBefore
      | innermost :: outer => outside (.afterValue innermost outer) byte
    | .error cause => .error cause
  | skim, byte => outside skim byte

/-- What a text lacks that ends inside a container. -/
def cutShort : Container → Cause
  | .array => .endInArray
  | .object => .endInObject

/-- What a text lacks that ends inside a value; nothing where the value may end. -/
def lacks : Skim → Option Cause
  | .beforeValue _ => some .endInValue
  | .beforeFirstItem _ => some .endInArray
  | .beforeFirstKey _ | .beforeKey _ | .afterKey _ => some .endInObject
  | .inKey .. | .inText .. => some .endInString
  | .afterValue innermost _ => some (cutShort innermost)
  | .inWord .. => some .endInValue
  | .inNumber part outer =>
    if part.isComplete then outer.head?.map cutShort else some .invalidNumber

/-- Passes over the rest of a value. -/
def run (skim : Skim) : List UInt8 → Except Cause (List UInt8)
  | [] =>
    match skim.lacks with
    | some cause => .error cause
    | none => .ok []
  | byte :: rest =>
    match skim.next byte with
    | .ok (.more skim) => run skim rest
    | .ok .endBehind => .ok rest
    | .ok .endBefore => .ok (byte :: rest)
    | .error cause => .error cause

end Skim

/-- Passes over the value at the start of a text. -/
def skim (text : List UInt8) : Except Cause (List UInt8) := (Skim.beforeValue []).run text

/-- Passing over the rest of a value lengthens nothing. -/
theorem Skim.length_le_of_run {skim : Skim} {text rest : List UInt8}
    (h : skim.run text = .ok rest) : rest.length ≤ text.length := by
  fun_induction Skim.run skim text with
  | case1 => cases h
  | case2 => cases h; exact Nat.le_refl _
  | case3 skim byte rest skim' hnext ih => exact Nat.le_succ_of_le (ih h)
  | case4 => cases h; exact Nat.le_succ _
  | case5 => cases h; exact Nat.le_refl _
  | case6 => cases h

/-- Passing over a value lengthens nothing. -/
theorem length_le_of_skim {text rest : List UInt8} (h : skim text = .ok rest) :
    rest.length ≤ text.length := Skim.length_le_of_run h

end StructSketch.Json
