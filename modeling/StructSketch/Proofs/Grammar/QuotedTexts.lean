import StructSketch.Json.Scan
import StructSketch.Proofs.Grammar
import StructSketch.Proofs.Utf8

/-!
# Quoted texts are those of the grammar

* **`takeQuoted_quoted`**: a quoted text of the grammar is taken up to its closing quote, and the
  text that is found is the one it stands for.
* **`Quoted.Pieces`**: the bytes and escapes that were read, with the bytes they stand for. Where
  these bytes are a text, the bytes that were read spell its characters
  (`Quoted.Pieces.characters`), since an escape never stands within a character.
* **`Quoted.Holds`**: what is kept while a quoted text is read (`Quoted.Holds.next`); one that is
  closed is a quoted text of the grammar (`Quoted.Holds.quoted`).
-/

namespace StructSketch.Json

open String (utf8EncodeChar)
open Grammar (HexDigit HexEscape Escape Character Characters escapeLetters)

/-! ## Escapes -/

theorem hexDigit?_eq_some {byte : UInt8} {value : Nat} :
    hexDigit? byte = some value ↔ HexDigit byte value := by
  constructor
  · intro h
    unfold hexDigit? at h
    simp only [Bool.and_eq_true, decide_eq_true_eq] at h
    split_ifs at h with hdecimal hlower hupper <;> cases h
    · have hge : 0x30 ≤ byte.toNat := hdecimal.1
      have hle : byte.toNat ≤ 0x39 := hdecimal.2
      have hdigit := HexDigit.decimal (by omega : byte.toNat - 0x30 < 10)
      rwa [Nat.add_sub_of_le hge, UInt8.ofNat_toNat] at hdigit
    · have hge : 0x61 ≤ byte.toNat := hlower.1
      have hle : byte.toNat ≤ 0x66 := hlower.2
      have hdigit := HexDigit.lower (by omega : 10 ≤ byte.toNat - 0x57) (by omega)
      rwa [Nat.add_sub_of_le (by omega), UInt8.ofNat_toNat] at hdigit
    · have hge : 0x41 ≤ byte.toNat := hupper.1
      have hle : byte.toNat ≤ 0x46 := hupper.2
      have hdigit := HexDigit.upper (by omega : 10 ≤ byte.toNat - 0x37) (by omega)
      rwa [Nat.add_sub_of_le (by omega), UInt8.ofNat_toNat] at hdigit
  · intro h
    have hvalues : ∀ v < 16,
        (v < 10 → hexDigit? (UInt8.ofNat (0x30 + v)) = some v) ∧
          (10 ≤ v → hexDigit? (UInt8.ofNat (0x37 + v)) = some v ∧
            hexDigit? (UInt8.ofNat (0x57 + v)) = some v) := by
      decide
    cases h with
    | decimal hlt => exact (hvalues value (by omega)).1 hlt
    | upper hge hlt => exact ((hvalues value hlt).2 hge).1
    | lower hge hlt => exact ((hvalues value hlt).2 hge).2

theorem hexNumber?_cons {digit : UInt8} {earlier : List UInt8} {number : Nat} :
    hexNumber? (digit :: earlier) = some number ↔
      ∃ low high, HexDigit digit low ∧ hexNumber? earlier = some high ∧
        number = 16 * high + low := by
  simp only [← hexDigit?_eq_some]
  rw [hexNumber?]
  cases hexDigit? digit <;> cases hexNumber? earlier <;> simp [eq_comm]

/-- Four digits, the last one first, make an escape. -/
theorem hexNumber?_eq_some {a b c d : UInt8} {number : Nat} :
    hexNumber? [d, c, b, a] = some number ↔ HexEscape [0x5C, 0x75, a, b, c, d] number := by
  constructor
  · intro h
    obtain ⟨x, abc, hx, habc, rfl⟩ := hexNumber?_cons.mp h
    obtain ⟨w, ab, hw, hab, rfl⟩ := hexNumber?_cons.mp habc
    obtain ⟨v, _, hv, ha, rfl⟩ := hexNumber?_cons.mp hab
    obtain ⟨u, _, hu, hnone, rfl⟩ := hexNumber?_cons.mp ha
    cases hnone
    have hnumber := HexEscape.digits hu hv hw hx
    have heq : 16 * (16 * (16 * (16 * 0 + u) + v) + w) + x =
      0x1000 * u + 0x100 * v + 0x10 * w + x := by omega
    rwa [heq]
  · intro h
    cases h with
    | @digits _ _ _ _ u v w x hu hv hw hx =>
      refine hexNumber?_cons.mpr ⟨x, _, hx, hexNumber?_cons.mpr ⟨w, _, hw,
        hexNumber?_cons.mpr ⟨v, _, hv, hexNumber?_cons.mpr ⟨u, 0, hu, rfl, rfl⟩, rfl⟩, rfl⟩, ?_⟩
      omega

theorem hexDigit_lt {byte : UInt8} {value : Nat} (h : HexDigit byte value) : value < 16 := by
  cases h <;> omega

theorem hexEscape_lt {text : List UInt8} {number : Nat} (h : HexEscape text number) :
    number < 0x10000 := by
  cases h with
  | digits hu hv hw hx =>
    have := hexDigit_lt hu
    have := hexDigit_lt hv
    have := hexDigit_lt hw
    have := hexDigit_lt hx
    omega

/-- The letters of the escapes are those of the grammar. -/
theorem simpleEscape?_eq_some {letter meant : UInt8} :
    simpleEscape? letter = some meant ↔
      ∃ c, (letter, c) ∈ escapeLetters ∧ utf8EncodeChar c = [meant] := by
  constructor
  · intro h
    unfold simpleEscape? at h
    simp only [Bool.or_eq_true, decide_eq_true_eq] at h
    split_ifs at h with hself hb hf hn hr ht <;> cases h
    · rcases hself with (rfl | rfl) | rfl
      · exact ⟨'"', by decide, by decide⟩
      · exact ⟨'\\', by decide, by decide⟩
      · exact ⟨'/', by decide, by decide⟩
    · exact ⟨'\x08', by rw [hb]; decide, by decide⟩
    · exact ⟨'\x0c', by rw [hf]; decide, by decide⟩
    · exact ⟨'\n', by rw [hn]; decide, by decide⟩
    · exact ⟨'\r', by rw [hr]; decide, by decide⟩
    · exact ⟨'\t', by rw [ht]; decide, by decide⟩
  · rintro ⟨c, hmem, hmeant⟩
    have hletters : ∀ escape ∈ escapeLetters,
        (simpleEscape? escape.1).map ([·]) = some (utf8EncodeChar escape.2) := by
      decide
    have hescape := hletters _ hmem
    rw [hmeant] at hescape
    obtain ⟨found, hfound, heq⟩ := Option.map_eq_some_iff.mp hescape
    rw [hfound, List.singleton_inj.mp heq]

/-! ## Taking what the grammar allows -/

/-- Bytes that are neither a quote nor a backslash nor a control character are taken as they
stand. -/
theorem takeQuoted_raw {bytes content rest : List UInt8}
    (h : ∀ byte ∈ bytes, byte ≠ 0x22 ∧ byte ≠ 0x5C ∧ 0x20 ≤ byte) :
    takeQuoted (.plain content) (bytes ++ rest) =
      takeQuoted (.plain (bytes.reverse ++ content)) rest := by
  induction bytes generalizing content with
  | nil => rfl
  | cons byte bytes ih =>
    obtain ⟨⟨hquote, hbackslash, hcontrol⟩, hbytes⟩ := List.forall_mem_cons.mp h
    rw [List.cons_append, takeQuoted, Quoted.next, if_neg hquote, if_neg hbackslash,
      if_neg (UInt8.not_lt.mpr hcontrol)]
    rw [List.reverse_cons, List.append_assoc]
    exact ih hbytes

/-- The bytes of an unescaped character are of that kind. -/
theorem raw_of_unescaped {c : Char} (hcontrol : 0x20 ≤ c.toNat) (hquote : c ≠ '"')
    (hbackslash : c ≠ '\\') :
    ∀ byte ∈ utf8EncodeChar c, byte ≠ 0x22 ∧ byte ≠ 0x5C ∧ 0x20 ≤ byte := by
  intro byte hbyte
  rcases Text.encode_ascii_or c with ⟨hlt, hencode⟩ | ⟨_, hbytes⟩
  · rw [hencode, List.mem_singleton] at hbyte
    have hvalue : byte.toNat = c.toNat := by
      rw [hbyte]
      exact UInt8.toNat_ofNat_of_lt' (Nat.lt_trans hlt (by decide))
    have hne : ∀ d : Char, c ≠ d → byte.toNat ≠ d.toNat := by
      intro d hcd heq
      exact hcd (Char.toNat_inj.mp (hvalue.symm.trans heq))
    refine ⟨?_, ?_, ?_⟩
    · rintro rfl
      exact hne _ hquote rfl
    · rintro rfl
      exact hne _ hbackslash rfl
    · show 0x20 ≤ byte.toNat
      omega
  · have hge := hbytes byte hbyte
    refine ⟨?_, ?_, UInt8.le_trans (by decide) hge⟩
    · rintro rfl
      exact absurd hge (by decide)
    · rintro rfl
      exact absurd hge (by decide)

/-- Four digits are taken together. -/
theorem takeQuoted_code {text content rest : List UInt8} {number : Nat} {progress : Quoted}
    (h : HexEscape text number) (hcode : Quoted.takeCode content number = .ok (.more progress)) :
    takeQuoted (.plain content) (text ++ rest) = takeQuoted progress rest := by
  cases h with
  | @digits a b c d u v w x hu hv hw hx =>
    have hnumber := hexNumber?_eq_some.mpr (.digits hu hv hw hx)
    simp [takeQuoted, Quoted.next, hnumber, hcode]

theorem takeQuoted_pairCode {text content rest : List UInt8} {high number : Nat}
    {progress : Quoted} (h : HexEscape text number)
    (hcode : Quoted.takePairCode content high number = .ok (.more progress)) :
    takeQuoted (.pairEscape content high) (text ++ rest) = takeQuoted progress rest := by
  cases h with
  | @digits a b c d u v w x hu hv hw hx =>
    have hnumber := hexNumber?_eq_some.mpr (.digits hu hv hw hx)
    simp [takeQuoted, Quoted.next, hnumber, hcode]

theorem isHighSurrogate_iff {code : Nat} :
    isHighSurrogate code = true ↔ 0xD800 ≤ code ∧ code < 0xDC00 := by
  simp [isHighSurrogate]

theorem isLowSurrogate_iff {code : Nat} :
    isLowSurrogate code = true ↔ 0xDC00 ≤ code ∧ code < 0xE000 := by
  simp [isLowSurrogate]

/-- A character is no surrogate. -/
theorem takeCode_char (content : List UInt8) (c : Char) :
    Quoted.takeCode content c.toNat = .ok (.more (Quoted.push content c)) := by
  have hvalid : c.toNat < 0xD800 ∨ 0xDFFF < c.toNat ∧ c.toNat < 0x110000 := c.valid
  have hlow : ¬ isLowSurrogate c.toNat = true := by
    rw [isLowSurrogate_iff]
    omega
  have hhigh : ¬ isHighSurrogate c.toNat = true := by
    rw [isHighSurrogate_iff]
    omega
  rw [Quoted.takeCode, if_neg hlow, if_neg hhigh, Char.ofNat_toNat]

theorem takeCode_high {content : List UInt8} {high : Nat} (hge : 0xD800 ≤ high)
    (hlt : high < 0xDC00) :
    Quoted.takeCode content high = .ok (.more (.pairEscape content high)) := by
  have hlow : ¬ isLowSurrogate high = true := by
    rw [isLowSurrogate_iff]
    omega
  rw [Quoted.takeCode, if_neg hlow, if_pos (isHighSurrogate_iff.mpr ⟨hge, hlt⟩)]

theorem takePairCode_low {content : List UInt8} {high low : Nat} {c : Char}
    (hge : 0xDC00 ≤ low) (hlt : low < 0xE000)
    (hc : c.toNat = 0x10000 + 0x400 * (high - 0xD800) + (low - 0xDC00)) :
    Quoted.takePairCode content high low = .ok (.more (Quoted.push content c)) := by
  rw [Quoted.takePairCode, if_pos (isLowSurrogate_iff.mpr ⟨hge, hlt⟩), pairedChar, ← hc,
    Char.ofNat_toNat]

/-- An escape adds the bytes of its character. -/
theorem takeQuoted_escape {text content rest : List UInt8} {c : Char} (h : Escape text c) :
    takeQuoted (.plain content) (text ++ rest) =
      takeQuoted (.plain ((utf8EncodeChar c).reverse ++ content)) rest := by
  cases h with
  | @letter letter _ hletter =>
    obtain ⟨meant, hmeant⟩ : ∃ meant, utf8EncodeChar c = [meant] := by
      have hascii : ∀ escape ∈ escapeLetters, ∃ meant, utf8EncodeChar escape.2 = [meant] := by
        simp [escapeLetters, utf8EncodeChar]
      exact hascii _ hletter
    have hescape := simpleEscape?_eq_some.mpr ⟨c, hletter, hmeant⟩
    have hu : letter ≠ 0x75 := by
      rintro rfl
      cases hescape
    simp [takeQuoted, Quoted.next, hescape, hu, hmeant]
  | code hcode => exact takeQuoted_code hcode (takeCode_char content c)
  | pair hfirst hsecond hge hlt hge' hlt' hc =>
    rw [List.append_assoc, takeQuoted_code hfirst (takeCode_high hge hlt),
      takeQuoted_pairCode hsecond (takePairCode_low hge' hlt' hc)]
    rfl

theorem takeQuoted_characters {text content rest : List UInt8} {cs : List Char}
    (h : Characters text cs) :
    takeQuoted (.plain content) (text ++ rest) =
      takeQuoted (.plain ((cs.flatMap utf8EncodeChar).reverse ++ content)) rest := by
  induction h generalizing content with
  | nil => rfl
  | @cons first more c cs hfirst _ ih =>
    have hcharacter : takeQuoted (.plain content) (first ++ (more ++ rest)) =
        takeQuoted (.plain ((utf8EncodeChar c).reverse ++ content)) (more ++ rest) := by
      cases hfirst with
      | unescaped hcontrol hquote hbackslash =>
        exact takeQuoted_raw (raw_of_unescaped hcontrol hquote hbackslash)
      | escaped hescape => exact takeQuoted_escape hescape
    rw [List.append_assoc, hcharacter, ih, List.flatMap_cons, List.reverse_append,
      List.append_assoc]

/-- A quoted text of the grammar is taken up to its closing quote. -/
theorem takeQuoted_quoted {text : List UInt8} {content : String}
    (h : Grammar.Quoted text content) :
    ∃ spelled, text = 0x22 :: spelled ∧
      ∀ rest, takeQuoted .start (spelled ++ rest) = .ok (content, rest) := by
  cases h with
  | @quotes spelled _ hcharacters =>
    refine ⟨spelled ++ [0x22], rfl, fun rest => ?_⟩
    have hdecode : Text.decode (content.toList.flatMap utf8EncodeChar) = .ok content :=
      Text.decode_eq_ok.mpr rfl
    rw [List.append_assoc, Quoted.start, takeQuoted_characters hcharacters]
    simp [takeQuoted, Quoted.next, Quoted.close, hdecode]

/-! ## What is kept while a quoted text is read -/

/-- The bytes and escapes of a quoted text, with the bytes that they stand for. -/
inductive Quoted.Pieces : List UInt8 → List UInt8 → Prop
  | nil : Pieces [] []
  | raw {byte : UInt8} {text content : List UInt8} : byte ≠ 0x22 → byte ≠ 0x5C → 0x20 ≤ byte →
      Pieces text content → Pieces (byte :: text) (byte :: content)
  | escape {spelled text content : List UInt8} {c : Char} : Escape spelled c →
      Pieces text content → Pieces (spelled ++ text) (utf8EncodeChar c ++ content)

namespace Quoted

theorem Pieces.append {text text' content content' : List UInt8} (h : Pieces text content)
    (h' : Pieces text' content') : Pieces (text ++ text') (content ++ content') := by
  induction h with
  | nil => exact h'
  | raw hquote hbackslash hcontrol _ ih => exact .raw hquote hbackslash hcontrol ih
  | escape hescape _ ih =>
    rw [List.append_assoc, List.append_assoc]
    exact .escape hescape ih

theorem pieces_raw {byte : UInt8} (hquote : byte ≠ 0x22) (hbackslash : byte ≠ 0x5C)
    (hcontrol : 0x20 ≤ byte) : Pieces [byte] [byte] := .raw hquote hbackslash hcontrol .nil

theorem pieces_escape {spelled : List UInt8} {c : Char} (h : Escape spelled c) :
    Pieces spelled (utf8EncodeChar c) := by
  have hpieces := Pieces.escape h .nil
  rwa [List.append_nil, List.append_nil] at hpieces

/-- Bytes that begin no character stand for themselves. -/
theorem Pieces.raw_of_later {later text content : List UInt8}
    (hlater : ∀ byte ∈ later, ¬ byte.IsUTF8FirstByte) (h : Pieces text (later ++ content)) :
    ∃ rest, text = later ++ rest ∧ Pieces rest content := by
  induction later generalizing text with
  | nil => exact ⟨text, rfl, h⟩
  | cons byte later ih =>
    obtain ⟨hbyte, hlater⟩ := List.forall_mem_cons.mp hlater
    generalize heq : byte :: later ++ content = whole at h
    cases h with
    | nil => cases heq
    | raw hquote hbackslash hcontrol hrest =>
      obtain ⟨rfl, rfl⟩ := List.cons.inj heq
      obtain ⟨rest, rfl, htail⟩ := ih hlater hrest
      exact ⟨rest, rfl, htail⟩
    | @escape _ _ _ c _ _ =>
      -- an escape stands for a whole character, and that begins with another kind of byte
      cases hencode : utf8EncodeChar c with
      | nil => exact absurd hencode String.utf8EncodeChar_ne_nil
      | cons first rest =>
        rw [hencode] at heq
        obtain ⟨rfl, _⟩ := List.cons.inj heq
        exact absurd (Text.encode_eq_cons hencode).1 hbyte

theorem character_of_raw {byte : UInt8} {later : List UInt8} {c : Char}
    (hencode : utf8EncodeChar c = byte :: later) (hquote : byte ≠ 0x22) (hbackslash : byte ≠ 0x5C)
    (hcontrol : 0x20 ≤ byte) : Character (utf8EncodeChar c) c := by
  refine .unescaped ?_ ?_ ?_
  · rcases Text.encode_ascii_or c with ⟨hlt, hascii⟩ | ⟨hge, _⟩
    · obtain ⟨rfl, _⟩ := List.cons.inj (hencode.symm.trans hascii)
      rwa [UInt8.le_iff_toNat_le, UInt8.toNat_ofNat_of_lt' (Nat.lt_trans hlt (by decide))]
        at hcontrol
    · omega
  · rintro rfl
    exact hquote (List.cons.inj hencode).1.symm
  · rintro rfl
    exact hbackslash (List.cons.inj hencode).1.symm

/-- The first character of what was read has a spelling of its own. -/
theorem Pieces.uncons {text content : List UInt8} {c : Char}
    (h : Pieces text (utf8EncodeChar c ++ content)) :
    ∃ first rest, text = first ++ rest ∧ Character first c ∧ Pieces rest content := by
  generalize heq : utf8EncodeChar c ++ content = whole at h
  cases h with
  | nil => exact absurd (List.append_eq_nil_iff.mp heq).1 String.utf8EncodeChar_ne_nil
  | @raw byte text _ hquote hbackslash hcontrol hrest =>
    cases hencode : utf8EncodeChar c with
    | nil => exact absurd hencode String.utf8EncodeChar_ne_nil
    | cons first later =>
      rw [hencode] at heq
      obtain ⟨rfl, rfl⟩ := List.cons.inj heq
      obtain ⟨rest, rfl, htail⟩ := hrest.raw_of_later (Text.encode_eq_cons hencode).2
      refine ⟨utf8EncodeChar c, rest, by rw [hencode]; rfl, ?_, htail⟩
      exact character_of_raw hencode hquote hbackslash hcontrol
  | @escape spelled rest _ d hescape hrest =>
    have hfirst := Text.uncons?_eq_some.mpr (Eq.refl (utf8EncodeChar c ++ content))
    rw [heq, Text.uncons?_eq_some.mpr rfl] at hfirst
    obtain ⟨rfl, rfl⟩ := Prod.mk.inj (Option.some.inj hfirst)
    exact ⟨spelled, rest, rfl, .escaped hescape, hrest⟩

/-- Where the bytes that were meant are a text, its characters were spelled. -/
theorem Pieces.characters {text : List UInt8} {cs : List Char}
    (h : Pieces text (cs.flatMap utf8EncodeChar)) : Characters text cs := by
  induction cs generalizing text with
  | nil =>
    generalize heq : List.flatMap utf8EncodeChar [] = whole at h
    cases h with
    | nil => exact .nil
    | raw => cases heq
    | @escape _ _ _ c _ _ =>
      exact absurd (List.append_eq_nil_iff.mp heq.symm).1 String.utf8EncodeChar_ne_nil
  | cons c cs ih =>
    rw [List.flatMap_cons] at h
    obtain ⟨first, rest, rfl, hfirst, hrest⟩ := h.uncons
    exact .cons hfirst (ih hrest)

/-- What is kept while a quoted text is read, from behind its opening quote. -/
inductive Holds : List UInt8 → Quoted → Prop
  | plain {text content : List UInt8} : Pieces text content.reverse → Holds text (.plain content)
  | escape {text content : List UInt8} : Pieces text content.reverse →
      Holds (text ++ [0x5C]) (.escape content)
  | code {text content digits : List UInt8} : Pieces text content.reverse → digits.length ≤ 3 →
      Holds (text ++ 0x5C :: 0x75 :: digits.reverse) (.code content digits)
  | pairEscape {text first content : List UInt8} {high : Nat} : Pieces text content.reverse →
      HexEscape first high → isHighSurrogate high = true →
      Holds (text ++ first) (.pairEscape content high)
  | pairLetter {text first content : List UInt8} {high : Nat} : Pieces text content.reverse →
      HexEscape first high → isHighSurrogate high = true →
      Holds (text ++ (first ++ [0x5C])) (.pairLetter content high)
  | pairCode {text first content digits : List UInt8} {high : Nat} :
      Pieces text content.reverse → HexEscape first high → isHighSurrogate high = true →
      digits.length ≤ 3 →
      Holds (text ++ (first ++ 0x5C :: 0x75 :: digits.reverse)) (.pairCode content high digits)

theorem holds_start : Holds [] .start := .plain .nil

/-- An escape that was read to its end adds its character. -/
theorem Pieces.push {text spelled content : List UInt8} {c : Char}
    (h : Pieces text content.reverse) (hescape : Escape spelled c) :
    Holds (text ++ spelled) (push content c) := by
  refine .plain ?_
  rw [List.reverse_append, List.reverse_reverse]
  exact h.append (pieces_escape hescape)

theorem hexEscape_of_digits {digits : List UInt8} {byte : UInt8} {number : Nat}
    (hlength : digits.length = 3) (h : hexNumber? (byte :: digits) = some number) :
    HexEscape (0x5C :: 0x75 :: (digits.reverse ++ [byte])) number := by
  obtain ⟨c, b, a, rfl⟩ := List.length_eq_three.mp hlength
  exact hexNumber?_eq_some.mp h

/-- The code of an escape is a character or the first half of a pair. -/
theorem Pieces.takeCode {text spelled content : List UInt8} {code : Nat} {quoted : Quoted}
    (h : Pieces text content.reverse) (hescape : HexEscape spelled code)
    (hcode : Quoted.takeCode content code = .ok (.more quoted)) :
    Holds (text ++ spelled) quoted := by
  have hlt := hexEscape_lt hescape
  unfold Quoted.takeCode at hcode
  split_ifs at hcode with hlow hhigh <;> cases hcode
  · exact .pairEscape h hescape hhigh
  · have hvalid : code.isValidChar := by
      rw [isLowSurrogate_iff] at hlow
      rw [isHighSurrogate_iff] at hhigh
      show code < 0xD800 ∨ 0xDFFF < code ∧ code < 0x110000
      omega
    have hcharacter := (Char.toNat_ofNat code).trans (if_pos hvalid)
    rw [← hcharacter] at hescape
    exact h.push (.code hescape)

/-- The second code of a pair completes a character. -/
theorem Pieces.takePairCode {text first second content : List UInt8} {high low : Nat}
    {quoted : Quoted} (h : Pieces text content.reverse) (hfirst : HexEscape first high)
    (hhigh : isHighSurrogate high = true) (hsecond : HexEscape second low)
    (hcode : Quoted.takePairCode content high low = .ok (.more quoted)) :
    Holds (text ++ (first ++ second)) quoted := by
  unfold Quoted.takePairCode at hcode
  split_ifs at hcode with hlow
  cases hcode
  obtain ⟨hge, hlt⟩ := isHighSurrogate_iff.mp hhigh
  obtain ⟨hge', hlt'⟩ := isLowSurrogate_iff.mp hlow
  have hvalid : (0x10000 + 0x400 * (high - 0xD800) + (low - 0xDC00)).isValidChar := by
    refine .inr ⟨?_, ?_⟩ <;> omega
  have hcharacter := (Char.toNat_ofNat _).trans (if_pos hvalid)
  exact h.push (.pair hfirst hsecond hge hlt hge' hlt' hcharacter)

/-- Each byte keeps what is held. -/
theorem Holds.next {text : List UInt8} {quoted quoted' : Quoted} {byte : UInt8}
    (h : Holds text quoted) (hnext : quoted.next byte = .ok (.more quoted')) :
    Holds (text ++ [byte]) quoted' := by
  cases h with
  | @plain _ content hpieces =>
    simp only [Quoted.next] at hnext
    split_ifs at hnext with hquote hbackslash hcontrol
    · unfold close at hnext
      split at hnext <;> cases hnext
    · cases hnext
      rw [hbackslash]
      exact .escape hpieces
    · cases hnext
      refine .plain ?_
      rw [List.reverse_cons]
      exact hpieces.append (pieces_raw hquote hbackslash (UInt8.not_lt.mp hcontrol))
  | @escape text content hpieces =>
    simp only [Quoted.next] at hnext
    split_ifs at hnext with hu
    · cases hnext
      rw [hu, List.append_assoc]
      exact @Holds.code text content [] hpieces (Nat.zero_le 3)
    · split at hnext
      · rename_i meant hmeant
        cases hnext
        obtain ⟨c, hletter, hencode⟩ := simpleEscape?_eq_some.mp hmeant
        have hpush := hpieces.push (Escape.letter hletter)
        rw [push, hencode] at hpush
        rw [List.append_assoc]
        exact hpush
      · cases hnext
  | @code text content digits hpieces hlength =>
    simp only [Quoted.next] at hnext
    split_ifs at hnext with hfew
    · cases hnext
      have hcode := @Holds.code text content (byte :: digits) hpieces hfew
      rw [List.reverse_cons] at hcode
      rwa [List.append_assoc]
    · split at hnext
      · rename_i number hnumber
        have hescape := hexEscape_of_digits (by omega) hnumber
        have hheld := hpieces.takeCode hescape hnext
        rwa [List.append_assoc]
      · cases hnext
  | @pairEscape text first content high hpieces hfirst hhigh =>
    simp only [Quoted.next] at hnext
    split_ifs at hnext with hbackslash
    cases hnext
    rw [hbackslash, List.append_assoc]
    exact .pairLetter hpieces hfirst hhigh
  | @pairLetter text first content high hpieces hfirst hhigh =>
    simp only [Quoted.next] at hnext
    split_ifs at hnext with hu
    cases hnext
    rw [hu, List.append_assoc, List.append_assoc]
    exact @Holds.pairCode text first content [] high hpieces hfirst hhigh (Nat.zero_le 3)
  | @pairCode text first content digits high hpieces hfirst hhigh hlength =>
    simp only [Quoted.next] at hnext
    split_ifs at hnext with hfew
    · cases hnext
      have hcode := @Holds.pairCode text first content (byte :: digits) high hpieces hfirst hhigh
        hfew
      rw [List.reverse_cons] at hcode
      rwa [List.append_assoc, List.append_assoc]
    · split at hnext
      · rename_i number hnumber
        have hescape := hexEscape_of_digits (by omega) hnumber
        have hheld := hpieces.takePairCode hfirst hhigh hescape hnext
        rwa [List.append_assoc, List.append_assoc]
      · cases hnext

/-- A quoted text ends with a quote that no escape has, behind the bytes of a text. -/
theorem next_eq_done {quoted : Quoted} {byte : UInt8} {content : String}
    (h : quoted.next byte = .ok (.done content)) :
    ∃ bytes, quoted = .plain bytes ∧ byte = 0x22 ∧ Text.decode bytes.reverse = .ok content := by
  cases quoted with
  | plain bytes =>
    simp only [Quoted.next] at h
    split_ifs at h with hquote
    · unfold close at h
      split at h
      · rename_i found hdecode
        cases h
        exact ⟨bytes, rfl, hquote, hdecode⟩
      · cases h
    · cases h
    · cases h
  | escape bytes =>
    simp only [Quoted.next] at h
    split_ifs at h
    · cases h
    · split at h <;> cases h
  | code bytes digits =>
    simp only [Quoted.next] at h
    split_ifs at h
    · cases h
    · split at h
      · unfold takeCode at h
        split_ifs at h <;> cases h
      · cases h
  | pairEscape bytes high =>
    simp only [Quoted.next] at h
    split_ifs at h
    cases h
  | pairLetter bytes high =>
    simp only [Quoted.next] at h
    split_ifs at h
    cases h
  | pairCode bytes high digits =>
    simp only [Quoted.next] at h
    split_ifs at h
    · cases h
    · split at h
      · unfold takePairCode at h
        split_ifs at h
        cases h
      · cases h

/-- A quoted text that is closed is one of the grammar. -/
theorem Holds.quoted {text : List UInt8} {quoted : Quoted} {byte : UInt8} {content : String}
    (h : Holds text quoted) (hnext : quoted.next byte = .ok (.done content)) :
    Grammar.Quoted (0x22 :: (text ++ [byte])) content := by
  obtain ⟨bytes, rfl, rfl, hdecode⟩ := next_eq_done hnext
  cases h with
  | plain hpieces =>
    rw [Text.decode_eq_ok.mp hdecode] at hpieces
    exact .quotes hpieces.characters

end Quoted

end StructSketch.Json
