import StructSketch.Go.Settings.Value
import StructSketch.Json.Skim

/-!
# Reading settings

* **`FileOptions.read`** and **`Style.read`** read an object of settings, each in any order and
  at most once, between members of other names, which are passed over; or an array of the
  settings in their order, of which the last ones may be missing.
* A setting that is missing has its default.
-/

namespace StructSketch.Go

open Json (Cause skipBlanks peek takeQuoted)

/-! ## Settings -/

/-- The settings. -/
inductive Setting where
  | package
  | importJson
  | indentation
deriving DecidableEq

/-- The key of a setting. -/
def Setting.key : Setting → String
  | .package => "package"
  | .importJson => "import_json"
  | .indentation => "indentation"

/-- The settings that were read. -/
structure Found where
  package : Option String := none
  importJson : Option Bool := none
  indentation : Option Indentation := none

/-- Whether a setting was read. -/
def Found.has (found : Found) : Setting → Bool
  | .package => found.package.isSome
  | .importJson => found.importJson.isSome
  | .indentation => found.indentation.isSome

/-- Reads the value of a setting. -/
def Found.readValue (found : Found) (setting : Setting) (text : List UInt8) : Reading Found :=
  match setting with
  | .package =>
    (readString text).map fun (package, rest) => ({ found with package := some package }, rest)
  | .importJson =>
    (readBool text).map fun (value, rest) => ({ found with importJson := some value }, rest)
  | .indentation =>
    (readIndentation text).map fun (value, rest) =>
      ({ found with indentation := some value }, rest)

/-- Reads a member from behind the opening quote of its key. -/
def Found.readMember (found : Found) (known : List Setting) (text : List UInt8) :
    Reading Found :=
  match takeQuoted .start text with
  | .error cause => .error (.malformed cause)
  | .ok (key, rest) =>
    match known.find? (·.key = key) with
    | some setting =>
      if found.has setting then .error .unwanted
      else match readColon rest with
        | .ok rest => found.readValue setting rest
        | .error refusal => .error refusal
    | none =>
      match readColon rest with
      | .ok rest => checked ((Json.skim rest).map (found, ·))
      | .error refusal => .error refusal

/-! ## What is left is no longer -/

/-- Reading the value of a setting lengthens nothing. -/
theorem Found.length_le_of_readValue {found found' : Found} {setting : Setting}
    {text rest : List UInt8} (h : found.readValue setting text = .ok (found', rest)) :
    rest.length ≤ text.length := by
  unfold Found.readValue at h
  split at h <;> obtain ⟨⟨_, _⟩, hvalue, heq⟩ := exists_of_map_eq_ok h <;> cases heq
  · exact length_le_of_readString hvalue
  · exact length_le_of_readBool hvalue
  · exact length_le_of_readIndentation hvalue

/-- What is left behind a member is no longer than the text. -/
theorem Found.length_le_of_readMember {found found' : Found} {known : List Setting}
    {text rest : List UInt8} (h : found.readMember known text = .ok (found', rest)) :
    rest.length ≤ text.length := by
  unfold Found.readMember at h
  split at h
  · cases h
  · rename_i htake
    have := Json.length_le_of_takeQuoted htake
    split at h
    · split at h
      · cases h
      · split at h
        · rename_i hcolon
          have := length_le_of_readColon hcolon
          have := Found.length_le_of_readValue h
          omega
        · cases h
    · split at h
      · rename_i hcolon
        have := length_le_of_readColon hcolon
        obtain ⟨_, hskim, heq⟩ := exists_of_map_eq_ok (eq_ok_of_checked h)
        cases heq
        have := Json.length_le_of_skim hskim
        omega
      · cases h

/-! ## Containers of settings -/

/-- Reads members from behind the opening quote of a key, up to the end of their object. -/
def Found.readMembers (found : Found) (known : List Setting) (text : List UInt8) :
    Reading Found :=
  match _hmember : found.readMember known text with
  | .error refusal => .error refusal
  | .ok (found, rest) =>
    match _hend : peek .endInObject rest with
    | .error cause => .error (.malformed cause)
    | .ok (byte, rest) =>
      if byte = 0x7D then .ok (found, rest)
      else if byte = 0x2C then
        match _hkey : peek .endInValue rest with
        | .error cause => .error (.malformed cause)
        | .ok (byte, rest) =>
          if byte = 0x22 then found.readMembers known rest
          else if byte = 0x7D then .error (.malformed .trailingComma)
          else .error (.malformed .keyNotString)
      else .error (.malformed .expectedCommaOrBrace)
termination_by text.length
decreasing_by
  have := Found.length_le_of_readMember _hmember
  have := Json.length_lt_of_peek _hend
  have := Json.length_lt_of_peek _hkey
  omega

/-- Reads an object of settings from behind its opening brace. -/
def readObject (known : List Setting) (text : List UInt8) : Reading Found :=
  match peek .endInObject text with
  | .error cause => .error (.malformed cause)
  | .ok (byte, rest) =>
    if byte = 0x7D then .ok ({}, rest)
    else if byte = 0x22 then ({} : Found).readMembers known rest
    else .error (.malformed .keyNotString)

/-- Reads the settings of an array from behind one of them on, up to the end of the array. -/
def Found.readLaterItems (found : Found) : List Setting → List UInt8 → Reading Found
  | [], text =>
    match peek .endInArray text with
    | .error cause => .error (.malformed cause)
    | .ok (byte, rest) =>
      if byte = 0x5D then .ok (found, rest) else .error (.malformed .trailingCharacters)
  | setting :: settings, text =>
    match peek .endInArray text with
    | .error cause => .error (.malformed cause)
    | .ok (byte, rest) =>
      if byte = 0x5D then .ok (found, rest)
      else if byte = 0x2C then
        match peek .endInValue rest with
        | .error cause => .error (.malformed cause)
        | .ok (byte, _) =>
          if byte = 0x5D then .error (.malformed .trailingComma)
          else match found.readValue setting rest with
            | .ok (found, rest) => found.readLaterItems settings rest
            | .error refusal => .error refusal
      else .error (.malformed .expectedCommaOrBracket)

/-- Reads an array of settings from behind its opening bracket. -/
def readArray (known : List Setting) (text : List UInt8) : Reading Found :=
  match known, peek .endInArray text with
  | _, .error cause => .error (.malformed cause)
  | [], .ok _ => ({} : Found).readLaterItems [] text
  | setting :: settings, .ok (byte, rest) =>
    if byte = 0x5D then .ok ({}, rest)
    else match ({} : Found).readValue setting text with
      | .ok (found, rest) => found.readLaterItems settings rest
      | .error refusal => .error refusal

/-- Reads settings off the start of a text. -/
def readContainer (known : List Setting) (text : List UInt8) : Reading Found :=
  match peek .endInValue text with
  | .error cause => .error (.malformed cause)
  | .ok (byte, rest) =>
    if byte = 0x5B then readArray known rest
    else if byte = 0x7B then readObject known rest
    else .error (mismatch byte rest)

/-- Reads a whole text of settings. -/
def readSettings (known : List Setting) (text : List UInt8) : Except Refusal Found :=
  match readContainer known text with
  | .error refusal => .error refusal
  | .ok (found, rest) =>
    if (skipBlanks rest).isEmpty then .ok found else .error (.malformed .trailingCharacters)

/-- The options that were read, with defaults for the others. -/
def Found.options (found : Found) : FileOptions :=
  let default : FileOptions := {}
  { package := found.package.getD default.package
    importJson := found.importJson.getD default.importJson }

/-- The style that was read, with defaults for what is missing. -/
def Found.style (found : Found) : Style :=
  let default : Style := {}
  { package := found.package.getD default.package
    importJson := found.importJson.getD default.importJson
    indentation := found.indentation.getD default.indentation }

/-- Reads file options. -/
def FileOptions.read (text : List UInt8) : Except Refusal FileOptions :=
  (readSettings [.package, .importJson] text).map Found.options

/-- Reads a style. -/
def Style.read (text : List UInt8) : Except Refusal Style :=
  (readSettings [.package, .importJson, .indentation] text).map Found.style

end StructSketch.Go
