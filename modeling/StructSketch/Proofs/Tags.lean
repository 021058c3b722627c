import Mathlib.Data.List.TakeWhile
import StructSketch.Go.Declaration
import StructSketch.Proofs.Utf8

/-!
# How Go reads a tag

* **`Go.unquote?`** reads a quoted text with the escapes of Go. Its value is as long as what stands
  between the quotes exactly if that has no escape and no line feed (`Go.plain_of_unquote?`).
* **`Go.keyOfLine?`** reads the key of a line: the raw string between the first two backquotes, in
  it the quoted text behind `json:`, and of its value the part before the first comma.
* **`Go.keyOfLine?_eq_some_iff`**: a tag between backquotes of its own gives back its key exactly if
  the key is **plain**: if it has no quote, backslash, backquote, comma, line feed or carriage
  return.
-/

namespace StructSketch.Go

open String (utf8EncodeChar)

/-! ## The text of a tag -/

/-- The text between the backquotes of a tag. -/
def tagText (key : String) : List Char :=
  ['j', 's', 'o', 'n', ':', '"'] ++ key.toList ++ ['"']

theorem toList_tag (key : String) :
    (tag key).toList = '\x60' :: tagText key ++ ['\x60'] := by
  simp [tag, tagText]

theorem backquote_notMem_tagText {key : String} (hkey : '\x60' ∉ key.toList) :
    '\x60' ∉ tagText key := by
  simp [tagText, hkey]

/-! ## Quoted texts -/

/-- The value of a digit. -/
def digitValue? (c : Char) : Option Nat :=
  if '0' ≤ c ∧ c ≤ '9' then some (c.toNat - '0'.toNat)
  else if 'a' ≤ c ∧ c ≤ 'f' then some (c.toNat - 'a'.toNat + 10)
  else if 'A' ≤ c ∧ c ≤ 'F' then some (c.toNat - 'A'.toNat + 10)
  else none

/-- Reads `count` digits, the first of them the highest, behind the digits of `value`. -/
def takeNumber? (base : Nat) : (count value : Nat) → List Char → Option (Nat × List Char)
  | 0, value, text => some (value, text)
  | _ + 1, _, [] => none
  | count + 1, value, c :: text =>
    match digitValue? c with
    | some digit =>
      if digit < base then takeNumber? base count (base * value + digit) text else none
    | none => none

/-- Reads the code of a character. -/
def takeCode? (count : Nat) (text : List Char) : Option (List UInt8 × List Char) :=
  match takeNumber? 16 count 0 text with
  | some (code, rest) =>
    if code < 0xD800 ∨ 0xDFFF < code ∧ code < 0x110000 then
      some (utf8EncodeChar (Char.ofNat code), rest)
    else none
  | none => none

/-- Reads the code of a byte. -/
def takeByte? (base count : Nat) (text : List Char) : Option (List UInt8 × List Char) :=
  match takeNumber? base count 0 text with
  | some (code, rest) => if code < 0x100 then some ([UInt8.ofNat code], rest) else none
  | none => none

/-- The escapes of one character. -/
def simpleEscapes : List (Char × UInt8) :=
  [('a', 0x07), ('b', 0x08), ('f', 0x0C), ('n', 0x0A), ('r', 0x0D), ('t', 0x09), ('v', 0x0B),
   ('\\', 0x5C), ('"', 0x22)]

/-- Reads what stands behind a backslash. -/
def takeEscape? (text : List Char) : Option (List UInt8 × List Char) :=
  match text with
  | [] => none
  | c :: rest =>
    match simpleEscapes.lookup c with
    | some byte => some ([byte], rest)
    | none =>
      if c = 'x' then takeByte? 16 2 rest
      else if c = 'u' then takeCode? 4 rest
      else if c = 'U' then takeCode? 8 rest
      else takeByte? 8 3 text

/-- The number of bytes of a text. -/
def size (text : List Char) : Nat := (text.flatMap utf8EncodeChar).length

@[simp]
theorem size_cons (c : Char) (text : List Char) :
    size (c :: text) = (utf8EncodeChar c).length + size text := by
  simp [size]

@[simp]
theorem size_append (text text' : List Char) : size (text ++ text') = size text + size text' := by
  simp [size]

theorem encode_length_pos (c : Char) : 0 < (utf8EncodeChar c).length :=
  List.length_pos_of_ne_nil String.utf8EncodeChar_ne_nil

theorem encode_length_le (c : Char) : (utf8EncodeChar c).length ≤ 4 := by
  rw [String.length_utf8EncodeChar]
  exact c.utf8Size_le_four

/-- Digits have bytes of their own. -/
theorem size_of_takeNumber? {base count value number : Nat} {text rest : List Char}
    (h : takeNumber? base count value text = some (number, rest)) :
    count + size rest ≤ size text := by
  induction count generalizing value text with
  | zero =>
    cases h
    omega
  | succ count ih =>
    cases text with
    | nil => cases h
    | cons c text =>
      rw [takeNumber?] at h
      split at h
      · split at h
        · have hrest := ih h
          have hpos := encode_length_pos c
          rw [size_cons]
          omega
        · cases h
      · cases h

theorem size_of_takeCode? {count : Nat} {value : List UInt8} {text rest : List Char}
    (h : takeCode? count text = some (value, rest)) (hcount : 4 ≤ count) :
    value.length + size rest ≤ size text := by
  unfold takeCode? at h
  split at h
  · rename_i code rest' hnumber
    split at h
    · cases h
      have hlength := encode_length_le (Char.ofNat code)
      have hsize := size_of_takeNumber? hnumber
      omega
    · cases h
  · cases h

theorem size_of_takeByte? {base count : Nat} {value : List UInt8} {text rest : List Char}
    (h : takeByte? base count text = some (value, rest)) (hcount : 1 ≤ count) :
    value.length + size rest ≤ size text := by
  unfold takeByte? at h
  split at h
  · rename_i code rest' hnumber
    split at h
    · cases h
      have hsize := size_of_takeNumber? hnumber
      rw [List.length_singleton]
      omega
    · cases h
  · cases h

/-- What stands for an escape is no longer than the escape without its backslash. -/
theorem size_of_takeEscape? {value : List UInt8} {text rest : List Char}
    (h : takeEscape? text = some (value, rest)) : value.length + size rest ≤ size text := by
  cases text with
  | nil => cases h
  | cons c text =>
    have hpos := encode_length_pos c
    rw [takeEscape?] at h
    split at h
    · cases h
      rw [size_cons, List.length_singleton]
      omega
    · split_ifs at h
      · have hsize := size_of_takeByte? h (by omega)
        rw [size_cons]
        omega
      · have hsize := size_of_takeCode? h (by omega)
        rw [size_cons]
        omega
      · have hsize := size_of_takeCode? h (by omega)
        rw [size_cons]
        omega
      · exact size_of_takeByte? h (by omega)

/-- Reads a text behind its opening quote, up to the closing one. -/
def unquote? (text : List Char) : Option (List UInt8) :=
  match text with
  | [] => none
  | c :: rest =>
    if c = '"' then some []
    else if c = '\n' then none
    else if c = '\\' then
      match _h : takeEscape? rest with
      | some (value, rest) => (unquote? rest).map (value ++ ·)
      | none => none
    else (unquote? rest).map (utf8EncodeChar c ++ ·)
termination_by size text
decreasing_by
  · have hsize := size_of_takeEscape? ‹_›
    have hpos := encode_length_pos c
    rw [size_cons]
    omega
  · have hpos := encode_length_pos c
    rw [size_cons]
    omega

/-- A character that stands for itself between quotes. -/
def IsLiteral (c : Char) : Prop := c ≠ '"' ∧ c ≠ '\n' ∧ c ≠ '\\'

/-- Characters that stand for themselves are read as they are. -/
theorem unquote?_literal {text : List Char} (h : ∀ c ∈ text, IsLiteral c) :
    unquote? (text ++ ['"']) = some (text.flatMap utf8EncodeChar) := by
  induction text with
  | nil =>
    rw [List.nil_append, unquote?, if_pos rfl]
    rfl
  | cons c text ih =>
    obtain ⟨⟨hquote, hfeed, hbackslash⟩, htext⟩ := List.forall_mem_cons.mp h
    rw [List.cons_append, unquote?, if_neg hquote, if_neg hfeed, if_neg hbackslash, ih htext]
    rfl

/-- A value is shorter than its quoted text by the closing quote, and by more wherever the text has
an escape or does not end with the quote. -/
theorem plain_of_unquote? {text : List Char} {value : List UInt8}
    (h : unquote? text = some value) :
    value.length + 1 ≤ size text ∧
      (value.length + 1 = size text →
        ∃ literal, text = literal ++ ['"'] ∧ ∀ c ∈ literal, IsLiteral c) := by
  fun_induction unquote? text generalizing value with
  | case1 => cases h
  | case2 rest =>
    cases h
    rw [size_cons]
    refine ⟨Nat.le_trans (by decide) (Nat.le_add_right _ _), fun hsize => ⟨[], ?_, ?_⟩⟩
    · cases rest with
      | nil => rfl
      | cons c rest =>
        have hpos := encode_length_pos c
        have hone : (utf8EncodeChar '"').length = 1 := rfl
        rw [hone, size_cons, List.length_nil] at hsize
        omega
    · intro c hc
      cases hc
  | case3 => cases h
  | case4 rest value' rest' hescape _ _ ih =>
    obtain ⟨tail, htail, rfl⟩ := Option.map_eq_some_iff.mp h
    have hsize := size_of_takeEscape? hescape
    have hle := (ih htail).1
    have hone : (utf8EncodeChar '\\').length = 1 := rfl
    rw [List.length_append, size_cons, hone]
    exact ⟨by omega, fun heq => by omega⟩
  | case5 => cases h
  | case6 c rest hquote hfeed hbackslash ih =>
    obtain ⟨tail, htail, rfl⟩ := Option.map_eq_some_iff.mp h
    obtain ⟨hle, hplain⟩ := ih htail
    rw [List.length_append, size_cons]
    refine ⟨by omega, fun heq => ?_⟩
    obtain ⟨literal, rfl, hliteral⟩ := hplain (by omega)
    exact ⟨c :: literal, rfl, List.forall_mem_cons.mpr ⟨⟨hquote, hfeed, hbackslash⟩, hliteral⟩⟩

/-! ## Keys of lines -/

/-- The raw string between the first two backquotes; carriage returns are no part of it. -/
def rawString? (line : List Char) : Option (List Char) :=
  match line.dropWhile (· ≠ '\x60') with
  | [] => none
  | _ :: rest =>
    if '\x60' ∈ rest then some ((rest.takeWhile (· ≠ '\x60')).filter (· ≠ '\r')) else none

/-- The quoted value that a tag has for `json`. -/
def jsonValue? : List Char → Option (List UInt8)
  | 'j' :: 's' :: 'o' :: 'n' :: ':' :: '"' :: text => unquote? text
  | _ => none

/-- The name in the value of a tag, which ends at a comma. -/
def nameOfValue (value : List UInt8) : List UInt8 := value.takeWhile (· ≠ 0x2C)

/-- The key that the tag in the line of a field gives back, as bytes. -/
def keyOfLine? (line : String) : Option (List UInt8) :=
  ((rawString? line.toList).bind jsonValue?).map nameOfValue

/-- The keys that a tag gives back. -/
def Plain (key : String) : Prop :=
  ∀ c ∈ key.toList, c ∉ ['"', '\\', '\x60', ',', '\n', '\r']

instance (key : String) : Decidable (Plain key) :=
  List.decidableBAll (fun c => c ∉ ['"', '\\', '\x60', ',', '\n', '\r']) key.toList

theorem rawString?_append {before inside after : List Char} (hbefore : '\x60' ∉ before)
    (hinside : '\x60' ∉ inside) :
    rawString? (before ++ '\x60' :: inside ++ '\x60' :: after) =
      some (inside.filter (· ≠ '\r')) := by
  have hne : ∀ {text : List Char}, '\x60' ∉ text → ∀ c ∈ text, decide (c ≠ '\x60') = true := by
    intro text htext c hc
    rw [decide_eq_true_eq]
    rintro rfl
    exact htext hc
  have hdrop : (before ++ '\x60' :: inside ++ '\x60' :: after).dropWhile (· ≠ '\x60') =
      '\x60' :: (inside ++ '\x60' :: after) := by
    rw [List.append_assoc, List.dropWhile_append_of_pos (hne hbefore), List.cons_append,
      List.dropWhile_cons_of_neg (by decide)]
  have htake : (inside ++ '\x60' :: after).takeWhile (· ≠ '\x60') = inside := by
    rw [List.takeWhile_append_of_pos (hne hinside), List.takeWhile_cons_of_neg (by decide),
      List.append_nil]
  rw [rawString?, hdrop]
  simp only [List.mem_append, List.mem_cons_self, or_true, if_true, htake]

/-- The bytes of other characters than the comma have no comma. -/
theorem comma_notMem_encode {c : Char} (hc : c ≠ ',') : 0x2C ∉ utf8EncodeChar c := by
  rcases Text.encode_ascii_or c with ⟨hlt, hencode⟩ | ⟨_, hbytes⟩
  · rw [hencode, List.mem_singleton]
    intro h
    have hvalue := congrArg UInt8.toNat h
    rw [UInt8.toNat_ofNat_of_lt' (Nat.lt_trans hlt (by decide))] at hvalue
    exact hc (by rw [← Char.ofNat_toNat c, ← hvalue]; rfl)
  · intro h
    exact absurd (hbytes _ h) (by decide)

theorem size_filter_le (p : Char → Bool) (text : List Char) : size (text.filter p) ≤ size text := by
  induction text with
  | nil => exact Nat.le_refl _
  | cons c text ih =>
    by_cases hc : p c
    · rw [List.filter_cons_of_pos hc, size_cons, size_cons]
      omega
    · rw [List.filter_cons_of_neg hc, size_cons]
      omega

/-- A text loses bytes with every character that is left out. -/
theorem all_of_size_filter {p : Char → Bool} {text : List Char}
    (h : size (text.filter p) = size text) : ∀ c ∈ text, p c := by
  induction text with
  | nil =>
    intro c hc
    cases hc
  | cons d text ih =>
    have hle := size_filter_le p text
    have hpos := encode_length_pos d
    by_cases hd : p d
    · rw [List.filter_cons_of_pos hd, size_cons, size_cons] at h
      exact List.forall_mem_cons.mpr ⟨hd, ih (by omega)⟩
    · rw [List.filter_cons_of_neg hd, size_cons] at h
      omega

theorem comma_notMem_nameOfValue (value : List UInt8) : 0x2C ∉ nameOfValue value := fun h =>
  absurd (List.mem_takeWhile_imp h) (by decide)

/-- A tag between backquotes of its own holds the key between its quotes, without its carriage
returns. -/
theorem keyOfLine?_tag {before after key : String} (hbefore : '\x60' ∉ before.toList)
    (hkey : '\x60' ∉ key.toList) :
    keyOfLine? (before ++ tag key ++ after) =
      (unquote? (key.toList.filter (· ≠ '\r') ++ ['"'])).map nameOfValue := by
  have hline : (before ++ tag key ++ after).toList =
      before.toList ++ '\x60' :: tagText key ++ '\x60' :: after.toList := by
    simp [toList_tag]
  have hraw : rawString? (before ++ tag key ++ after).toList =
      some (['j', 's', 'o', 'n', ':', '"'] ++ (key.toList.filter (· ≠ '\r') ++ ['"'])) := by
    rw [hline, rawString?_append hbefore (backquote_notMem_tagText hkey)]
    simp [tagText]
  rw [keyOfLine?, hraw]
  rfl

/-- A key that is read back is plain: a carriage return, an escape, an early quote and a comma would
each cost a byte. -/
theorem plain_of_name {key : String} {value : List UInt8} (hkey : '\x60' ∉ key.toList)
    (hvalue : unquote? (key.toList.filter (· ≠ '\r') ++ ['"']) = some value)
    (hname : nameOfValue value = Text.bytes key) : Plain key := by
  obtain ⟨hle, hliteral⟩ := plain_of_unquote? hvalue
  have hprefix : (nameOfValue value).length ≤ value.length :=
    (List.takeWhile_prefix _).length_le
  have hfilter := size_filter_le (fun c => decide (c ≠ '\r')) key.toList
  have hsize : (nameOfValue value).length = size key.toList := congrArg List.length hname
  have hone : size ['"'] = 1 := rfl
  rw [size_append, hone] at hle hliteral
  obtain ⟨literal, heq, hplain⟩ := hliteral (by omega)
  obtain rfl : key.toList.filter (fun c => decide (c ≠ '\r')) = literal :=
    List.append_cancel_right heq
  have hreturn := all_of_size_filter (by omega :
    size (key.toList.filter fun c => decide (c ≠ '\r')) = size key.toList)
  rw [List.filter_eq_self.mpr hreturn] at hplain
  intro c hc
  obtain ⟨hquote, hfeed, hbackslash⟩ := hplain c hc
  have hreturn := of_decide_eq_true (hreturn c hc)
  have hcomma : c ≠ ',' := by
    rintro rfl
    have hmem : 0x2C ∈ Text.bytes key := List.mem_flatMap.mpr ⟨',', hc, by decide⟩
    rw [← hname] at hmem
    exact comma_notMem_nameOfValue value hmem
  have hbackquote : c ≠ '\x60' := by
    rintro rfl
    exact hkey hc
  simp only [List.mem_cons, List.not_mem_nil, or_false, not_or]
  exact ⟨hquote, hbackslash, hbackquote, hcomma, hfeed, hreturn⟩

/-- A plain key is read back. -/
theorem name_of_plain {key : String} (h : Plain key) :
    (unquote? (key.toList.filter (· ≠ '\r') ++ ['"'])).map nameOfValue =
      some (Text.bytes key) := by
  have hplain : ∀ c ∈ key.toList, IsLiteral c ∧ c ≠ ',' ∧ c ≠ '\r' := by
    intro c hc
    have hne := h c hc
    simp only [List.mem_cons, List.not_mem_nil, or_false, not_or] at hne
    obtain ⟨hquote, hbackslash, _, hcomma, hfeed, hreturn⟩ := hne
    exact ⟨⟨hquote, hfeed, hbackslash⟩, hcomma, hreturn⟩
  have hfilter : key.toList.filter (fun c => decide (c ≠ '\r')) = key.toList :=
    List.filter_eq_self.mpr fun c hc => decide_eq_true (hplain c hc).2.2
  have hcomma : ∀ byte ∈ Text.bytes key, decide (byte ≠ 0x2C) = true := by
    intro byte hbyte
    obtain ⟨c, hc, hmem⟩ := List.mem_flatMap.mp hbyte
    rw [decide_eq_true_eq]
    rintro rfl
    exact comma_notMem_encode (hplain c hc).2.1 hmem
  rw [hfilter, unquote?_literal fun c hc => (hplain c hc).1, Option.map_some]
  exact congrArg some (List.takeWhile_eq_self_iff.mpr hcomma)

/-- A tag between backquotes of its own gives back its key exactly if the key is plain. -/
theorem keyOfLine?_eq_some_iff {before after key : String} (hbefore : '\x60' ∉ before.toList)
    (hkey : '\x60' ∉ key.toList) :
    keyOfLine? (before ++ tag key ++ after) = some (Text.bytes key) ↔ Plain key := by
  rw [keyOfLine?_tag hbefore hkey]
  constructor
  · intro h
    obtain ⟨value, hvalue, hname⟩ := Option.map_eq_some_iff.mp h
    exact plain_of_name hkey hvalue hname
  · exact name_of_plain

end StructSketch.Go
