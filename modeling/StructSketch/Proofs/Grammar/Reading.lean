import StructSketch.Json.Reader

/-!
# Reading the rest of a document

* **`Reader.reads`**: what a reader makes of the rest of a document, without the places of faults.
* **`Reader.IsBetween`**: a reader between two tokens, where blanks change nothing.
* **`Reader.isBetween_settle`**: a value that has ended leaves the reader there.
-/

namespace StructSketch.Json

theorem isBlank_iff {byte : UInt8} :
    isBlank byte = true ↔ byte = 0x20 ∨ byte = 0x09 ∨ byte = 0x0A ∨ byte = 0x0D := by
  simp [isBlank, or_assoc]

namespace Reader

/-- Reads the rest of a document. -/
def reads (reader : Reader) : List UInt8 → Except Cause Json
  | [] => reader.finish
  | byte :: rest =>
    match reader.next byte with
    | .ok next => next.reads rest
    | .error cause => .error cause

/-- The places matter to refusals only. -/
theorem run_eq_ok {reader : Reader} {place : Position} {text : List UInt8} {document : Json} :
    reader.run place text = .ok document ↔ reader.reads text = .ok document := by
  induction text generalizing reader place with
  | nil =>
    rw [run, reads]
    cases reader.finish with
    | ok found => exact ⟨congrArg _ ∘ Except.ok.inj, congrArg _ ∘ Except.ok.inj⟩
    | error cause => exact iff_of_false nofun nofun
  | cons byte rest ih =>
    rw [run, reads]
    cases reader.next byte with
    | ok next => exact ih
    | error cause => exact iff_of_false nofun nofun

theorem reads_cons {reader next : Reader} {byte : UInt8} {rest : List UInt8}
    (h : reader.next byte = .ok next) : reader.reads (byte :: rest) = next.reads rest := by
  rw [reads, h]

theorem reads_congr {reader reader' : Reader} {byte : UInt8} {rest : List UInt8}
    (h : reader.next byte = reader'.next byte) :
    reader.reads (byte :: rest) = reader'.reads (byte :: rest) := by
  rw [reads, reads, h]

/-! ## Between two tokens -/

/-- No token is being read. -/
def IsBetween : Reader → Prop
  | .inKey .. | .inText .. | .inWord .. | .inNumber .. => False
  | _ => True

theorem IsBetween.next {reader : Reader} (h : reader.IsBetween) (byte : UInt8) :
    reader.next byte = outside reader byte := by
  cases reader with
  | inKey | inText | inWord | inNumber => cases h
  | _ => rfl

theorem IsBetween.finish {reader : Reader} (h : reader.IsBetween) :
    reader.finish = finishBetween reader := by
  cases reader with
  | inKey | inText | inWord | inNumber => cases h
  | _ => rfl

theorem outside_of_notBlank {reader : Reader} {byte : UInt8} (h : isBlank byte = false) :
    outside reader byte = between reader byte := by
  rw [outside, h]
  rfl

/-- A value that has ended leaves the reader between two tokens. -/
theorem isBetween_settle (value : Json) (outer : List Frame) : (settle value outer).IsBetween := by
  cases outer with
  | nil => trivial
  | cons frame outer =>
    cases frame with
    | item items => trivial
    | member members key => trivial
    | tagged =>
      cases value with
      | string literal =>
        simp only [settle]
        split <;> trivial
      | _ => trivial

end Reader

end StructSketch.Json
