import Mathlib
import StructSketch.Text.Utf8

/-!
# Reading back UTF-8

* **`Text.uncons?_eq_some`**: a character is read off a byte text exactly if the text begins with
  the bytes of the character.
* **`Text.decode_eq_ok`**: exactly the bytes of a text are read as that text, so no two texts have
  the same bytes (`Text.bytes_injective`).
* **`Text.encode_eq_cons`**: of the bytes of a character only the first one can begin a character.
-/

namespace StructSketch.Text

open String (utf8EncodeChar)

theorem bytes_append (s t : String) : bytes (s ++ t) = bytes s ++ bytes t := by
  unfold bytes
  rw [String.toList_append, List.flatMap_append]

theorem bytes_join (texts : List String) :
    bytes (String.join texts) = (texts.map bytes).flatten := by
  induction texts with
  | nil => rfl
  | cons text rest ih => rw [String.join_cons, bytes_append, ih]; rfl

/-- A byte text begins with a character exactly if it begins with the bytes of the character. -/
theorem uncons?_eq_some {text rest : List UInt8} {c : Char} :
    uncons? text = some (c, rest) ↔ text = utf8EncodeChar c ++ rest := by
  unfold uncons?
  rw [Option.map_eq_some_iff]
  have hsize := c.utf8Size_le_four
  have hlength := String.length_utf8EncodeChar c
  constructor
  · rintro ⟨d, hd, heq⟩
    obtain ⟨rfl, rfl⟩ := Prod.mk.inj heq
    have hsome : ((text.take 4).toByteArray.utf8DecodeChar? 0).isSome = true := by
      rw [hd]
      rfl
    have hchar : (text.take 4).toByteArray.utf8DecodeChar 0 hsome = d := by
      simp only [ByteArray.utf8DecodeChar, hd, Option.get_some]
    have hencode := ByteArray.utf8EncodeChar_utf8DecodeChar (h := hsome)
    rw [hchar] at hencode
    have hbytes : utf8EncodeChar d = text.take d.utf8Size := by
      have harray := congrArg (fun bytes => bytes.data.toList) hencode
      simpa [ByteArray.data_extract, List.take_take, hsize] using harray
    rw [hbytes, List.take_append_drop]
  · rintro rfl
    refine ⟨c, ?_, ?_⟩
    · rw [List.take_append, List.take_of_length_le (by omega), List.toByteArray_append]
      exact ByteArray.utf8DecodeChar?_utf8EncodeChar_append
    · rw [List.drop_append_of_le_length (by omega), List.drop_of_length_le (by omega)]
      rfl

theorem decodeChars_encode (cs : List Char) :
    decodeChars (cs.flatMap utf8EncodeChar) = .ok cs := by
  induction cs with
  | nil =>
    rw [decodeChars]
    split
    · rename_i c rest h
      have hlength := length_lt_of_uncons? h
      simp at hlength
    · rfl
  | cons c cs ih =>
    rw [decodeChars]
    split
    · rename_i d rest h
      rw [List.flatMap_cons, uncons?_eq_some.mpr rfl] at h
      obtain ⟨rfl, rfl⟩ := Prod.mk.inj (Option.some.inj h)
      rw [ih]
      rfl
    · rename_i h
      rw [List.flatMap_cons, uncons?_eq_some.mpr rfl] at h
      cases h

theorem eq_of_decodeChars {text : List UInt8} {cs : List Char} (h : decodeChars text = .ok cs) :
    text = cs.flatMap utf8EncodeChar := by
  fun_induction decodeChars text generalizing cs with
  | case1 text c rest huncons ih =>
    cases hrest : decodeChars rest with
    | error left =>
      rw [hrest] at h
      cases h
    | ok cs' =>
      rw [hrest] at h
      cases h
      rw [List.flatMap_cons, ← ih hrest]
      exact uncons?_eq_some.mp huncons
  | case2 text _ hempty =>
    cases h
    exact List.isEmpty_iff.mp hempty
  | case3 => cases h

/-- Exactly the bytes of a text are read as that text. -/
theorem decode_eq_ok {text : List UInt8} {s : String} : decode text = .ok s ↔ text = bytes s := by
  unfold decode bytes
  constructor
  · intro h
    cases hchars : decodeChars text with
    | error left =>
      rw [hchars] at h
      cases h
    | ok cs =>
      rw [hchars] at h
      cases h
      rw [String.toList_ofList]
      exact eq_of_decodeChars hchars
  · rintro rfl
    rw [decodeChars_encode]
    exact congrArg Except.ok String.ofList_toList

theorem bytes_injective : Function.Injective bytes := by
  intro s t h
  have hs : decode (bytes s) = .ok s := decode_eq_ok.mpr rfl
  have ht : decode (bytes s) = .ok t := decode_eq_ok.mpr h
  exact Except.ok.inj (hs.symm.trans ht)

/-! ## The bytes of a character -/

/-- A character of ASCII is its only byte, and the bytes of the others are none of ASCII. -/
theorem encode_ascii_or (c : Char) :
    (c.toNat < 0x80 ∧ utf8EncodeChar c = [UInt8.ofNat c.toNat]) ∨
      (0x80 ≤ c.toNat ∧ ∀ byte ∈ utf8EncodeChar c, 0x80 ≤ byte) := by
  have hbyte : ∀ n : Nat, 0x80 ≤ n → n < 0x100 → (0x80 : UInt8) ≤ UInt8.ofNat n := by
    intro n hge hlt
    rw [UInt8.le_iff_toNat_le, UInt8.toNat_ofNat_of_lt' hlt]
    exact hge
  by_cases hascii : c.toNat ≤ 127
  · refine .inl ⟨by omega, ?_⟩
    unfold utf8EncodeChar
    exact if_pos hascii
  · refine .inr ⟨by omega, ?_⟩
    change ¬ c.val.toNat ≤ 127 at hascii
    unfold utf8EncodeChar
    intro byte hmem
    simp only [if_neg hascii] at hmem
    split_ifs at hmem <;> simp only [List.mem_cons, List.not_mem_nil, or_false] at hmem <;>
      rcases hmem with rfl | rfl | rfl | rfl <;> exact hbyte _ (by omega) (by omega)

/-- The text of some bytes of ASCII has those bytes. -/
theorem bytes_ofAscii {text : List UInt8} (h : ∀ byte ∈ text, byte < 0x80) :
    bytes (String.ofList (text.map fun byte => Char.ofNat byte.toNat)) = text := by
  unfold bytes
  rw [String.toList_ofList, List.flatMap_map]
  refine (List.flatMap_congr ?_).trans (List.flatMap_singleton' text)
  intro byte hbyte
  have hlt : byte.toNat < 0x80 := h byte hbyte
  have hvalid : byte.toNat.isValidChar := .inl (by omega)
  have hvalue := (Char.toNat_ofNat byte.toNat).trans (if_pos hvalid)
  rcases encode_ascii_or (Char.ofNat byte.toNat) with ⟨_, hencode⟩ | ⟨hge, _⟩
  · rw [hencode, hvalue, UInt8.ofNat_toNat]
  · omega

/-- Only the first byte of a character begins a character. -/
theorem encode_eq_cons {c : Char} {byte : UInt8} {later : List UInt8}
    (h : utf8EncodeChar c = byte :: later) :
    byte.IsUTF8FirstByte ∧ ∀ other ∈ later, ¬ other.IsUTF8FirstByte := by
  have hfirst : ∀ (i : Nat) (hi : i < (byte :: later).length),
      ((byte :: later)[i]).IsUTF8FirstByte ↔ i = 0 := by
    rw [← h]
    intro i hi
    exact UInt8.isUTF8FirstByte_getElem_utf8EncodeChar
  refine ⟨(hfirst 0 (by simp)).mpr rfl, fun other hother => ?_⟩
  obtain ⟨i, hi, rfl⟩ := List.mem_iff_getElem.mp hother
  intro hbegins
  have hzero := (hfirst (i + 1) (by simpa using hi)).mp hbegins
  omega

end StructSketch.Text
