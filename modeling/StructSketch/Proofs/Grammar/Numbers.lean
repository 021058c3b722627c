import StructSketch.Json.Scan
import StructSketch.Proofs.Grammar
import StructSketch.Proofs.Utf8

/-!
# Number literals are those of the grammar

* **`Numeral.Part.Rest`**: what the grammar allows behind the part of a literal that was read.
* **`Numeral.Part.completes_iff_rest`**: exactly this completes the literal.
* **`Numeral.isLiteral_iff_number`**: so the literals are the numbers of the grammar.
* **`Numeral.takeNumber_literal`**: a literal in front of a byte that no literal has there is taken
  as it stands.
* **`Numeral.IsBegun`**: what is kept while a literal is read; a literal that may end is a number
  (`Numeral.IsBegun.number`).
-/

namespace StructSketch.Json

open Grammar (Digits Whole Fraction Exponent Number)

theorem isDigit_iff {byte : UInt8} : isDigit byte = true ↔ 0x30 ≤ byte ∧ byte ≤ 0x39 := by
  simp [isDigit]

theorem ne_of_isDigit {byte other : UInt8} (h : isDigit byte = true)
    (hother : isDigit other = false) : byte ≠ other := by
  rintro rfl
  exact Bool.false_ne_true (hother.symm.trans h)

theorem isExponentMark_iff {byte : UInt8} :
    isExponentMark byte = true ↔ byte = 0x65 ∨ byte = 0x45 := by
  simp [isExponentMark]

theorem Grammar.digits_cons {byte : UInt8} {text : List UInt8} :
    Digits (byte :: text) ↔ isDigit byte = true ∧ Digits text := by
  unfold Digits
  rw [List.forall_mem_cons, isDigit_iff]

namespace Numeral.Part

/-- Digits and something behind them. -/
def DigitsThen (P : List UInt8 → Prop) (text : List UInt8) : Prop :=
  ∃ digits tail, text = digits ++ tail ∧ Digits digits ∧ P tail

/-- A fraction and an exponent, of which each may be missing. -/
def Tail (text : List UInt8) : Prop :=
  ∃ fraction exponent, text = fraction ++ exponent ∧ Fraction fraction ∧ Exponent exponent

/-- What may follow in a literal that was read up to a part. -/
def Rest : Part → List UInt8 → Prop
  | .sign, text => ∃ whole tail, text = whole ++ tail ∧ Whole whole ∧ Tail tail
  | .zero, text => Tail text
  | .whole, text => DigitsThen Tail text
  | .point, text => ∃ digits exponent, text = digits ++ exponent ∧ digits ≠ [] ∧
      Digits digits ∧ Exponent exponent
  | .fraction, text => DigitsThen Exponent text
  | .mark, text => ∃ sign digits, text = sign ++ digits ∧
      (sign = [] ∨ sign = [0x2B] ∨ sign = [0x2D]) ∧ digits ≠ [] ∧ Digits digits
  | .markSign, text => text ≠ [] ∧ Digits text
  | .exponent, text => Digits text

variable {byte : UInt8} {text : List UInt8}

theorem digits_nil : Digits [] := fun _ h => by cases h

theorem digitsThen_nil {P : List UInt8 → Prop} : DigitsThen P [] ↔ P [] := by
  constructor
  · rintro ⟨digits, tail, heq, _, htail⟩
    obtain ⟨rfl, rfl⟩ := List.append_eq_nil_iff.mp heq.symm
    exact htail
  · exact fun h => ⟨[], [], rfl, digits_nil, h⟩

theorem digitsThen_cons {P : List UInt8 → Prop} :
    DigitsThen P (byte :: text) ↔ isDigit byte = true ∧ DigitsThen P text ∨ P (byte :: text) := by
  constructor
  · rintro ⟨digits, tail, heq, hdigits, htail⟩
    rcases List.cons_eq_append_iff.mp heq with ⟨rfl, rfl⟩ | ⟨digits, rfl, rfl⟩
    · exact .inr htail
    · obtain ⟨hfirst, hdigits⟩ := Grammar.digits_cons.mp hdigits
      exact .inl ⟨hfirst, digits, tail, rfl, hdigits, htail⟩
  · rintro (⟨hfirst, digits, tail, rfl, hdigits, htail⟩ | h)
    · exact ⟨byte :: digits, tail, rfl, Grammar.digits_cons.mpr ⟨hfirst, hdigits⟩, htail⟩
    · exact ⟨[], _, rfl, digits_nil, h⟩

theorem exponent_cons :
    Exponent (byte :: text) ↔ isExponentMark byte = true ∧ Rest .mark text := by
  constructor
  · rintro (_ | ⟨hmark, hsign, hne, hdigits⟩)
    exact ⟨isExponentMark_iff.mpr hmark, _, _, rfl, hsign, hne, hdigits⟩
  · rintro ⟨hmark, sign, digits, rfl, hsign, hne, hdigits⟩
    exact .digits (isExponentMark_iff.mp hmark) hsign hne hdigits

theorem rest_exponent_cons :
    Rest .exponent (byte :: text) ↔ isDigit byte = true ∧ Rest .exponent text :=
  Grammar.digits_cons

theorem rest_markSign_cons :
    Rest .markSign (byte :: text) ↔ isDigit byte = true ∧ Rest .exponent text :=
  (and_iff_right (List.cons_ne_nil _ _)).trans Grammar.digits_cons

theorem rest_mark_cons : Rest .mark (byte :: text) ↔
    (byte = 0x2B ∨ byte = 0x2D) ∧ Rest .markSign text ∨
      isDigit byte = true ∧ Rest .exponent text := by
  constructor
  · rintro ⟨sign, digits, heq, rfl | rfl | rfl, hne, hdigits⟩
    · obtain rfl : byte :: text = digits := heq
      exact .inr (Grammar.digits_cons.mp hdigits)
    · obtain ⟨rfl, rfl⟩ := List.cons.inj heq
      exact .inl ⟨.inl rfl, hne, hdigits⟩
    · obtain ⟨rfl, rfl⟩ := List.cons.inj heq
      exact .inl ⟨.inr rfl, hne, hdigits⟩
  · rintro (⟨rfl | rfl, hne, hdigits⟩ | hdigits)
    · exact ⟨[0x2B], text, rfl, .inr (.inl rfl), hne, hdigits⟩
    · exact ⟨[0x2D], text, rfl, .inr (.inr rfl), hne, hdigits⟩
    · exact ⟨[], byte :: text, rfl, .inl rfl, List.cons_ne_nil _ _,
        Grammar.digits_cons.mpr hdigits⟩

theorem rest_fraction_cons : Rest .fraction (byte :: text) ↔
    isDigit byte = true ∧ Rest .fraction text ∨
      isExponentMark byte = true ∧ Rest .mark text :=
  digitsThen_cons.trans (or_congr_right exponent_cons)

theorem rest_point_cons :
    Rest .point (byte :: text) ↔ isDigit byte = true ∧ Rest .fraction text := by
  constructor
  · rintro ⟨digits, exponent, heq, hne, hdigits, hexponent⟩
    rcases List.cons_eq_append_iff.mp heq with ⟨rfl, _⟩ | ⟨digits, rfl, rfl⟩
    · exact absurd rfl hne
    · obtain ⟨hfirst, hdigits⟩ := Grammar.digits_cons.mp hdigits
      exact ⟨hfirst, digits, exponent, rfl, hdigits, hexponent⟩
  · rintro ⟨hfirst, digits, exponent, rfl, hdigits, hexponent⟩
    exact ⟨byte :: digits, exponent, rfl, List.cons_ne_nil _ _,
      Grammar.digits_cons.mpr ⟨hfirst, hdigits⟩, hexponent⟩

theorem rest_zero_cons : Rest .zero (byte :: text) ↔
    byte = 0x2E ∧ Rest .point text ∨ isExponentMark byte = true ∧ Rest .mark text := by
  rw [← exponent_cons]
  constructor
  · rintro ⟨fraction, exponent, heq, hfraction, hexponent⟩
    cases hfraction with
    | none =>
      obtain rfl : byte :: text = exponent := heq
      exact .inr hexponent
    | digits hne hdigits =>
      obtain ⟨rfl, rfl⟩ := List.cons.inj heq
      exact .inl ⟨rfl, _, _, rfl, hne, hdigits, hexponent⟩
  · rintro (⟨rfl, digits, exponent, rfl, hne, hdigits, hexponent⟩ | hexponent)
    · exact ⟨0x2E :: digits, exponent, rfl, .digits hne hdigits, hexponent⟩
    · exact ⟨[], _, rfl, .none, hexponent⟩

theorem rest_whole_cons : Rest .whole (byte :: text) ↔
    isDigit byte = true ∧ Rest .whole text ∨
      byte = 0x2E ∧ Rest .point text ∨ isExponentMark byte = true ∧ Rest .mark text :=
  digitsThen_cons.trans (or_congr_right rest_zero_cons)

theorem rest_sign_cons : Rest .sign (byte :: text) ↔
    byte = 0x30 ∧ Rest .zero text ∨
      byte ≠ 0x30 ∧ isDigit byte = true ∧ Rest .whole text := by
  constructor
  · rintro ⟨whole, tail, heq, hwhole, htail⟩
    cases hwhole with
    | zero =>
      obtain ⟨rfl, rfl⟩ := List.cons.inj heq
      exact .inl ⟨rfl, htail⟩
    | digits hne hdigits =>
      obtain ⟨rfl, rfl⟩ := List.cons.inj heq
      obtain ⟨hfirst, hdigits⟩ := Grammar.digits_cons.mp hdigits
      exact .inr ⟨hne, hfirst, _, _, rfl, hdigits, htail⟩
  · rintro (⟨rfl, htail⟩ | ⟨hne, hfirst, digits, tail, rfl, hdigits, htail⟩)
    · exact ⟨[0x30], text, rfl, .zero, htail⟩
    · exact ⟨byte :: digits, tail, rfl,
        .digits hne (Grammar.digits_cons.mpr ⟨hfirst, hdigits⟩), htail⟩

theorem tail_nil : Tail [] := ⟨[], [], rfl, .none, .none⟩

theorem rest_nil_iff {part : Part} : Rest part [] ↔ part.isComplete = true := by
  cases part with
  | sign =>
    refine iff_of_false ?_ (by decide)
    rintro ⟨whole, tail, heq, hwhole, _⟩
    obtain ⟨rfl, _⟩ := List.append_eq_nil_iff.mp heq.symm
    cases hwhole
  | zero => exact iff_of_true tail_nil rfl
  | whole => exact iff_of_true (digitsThen_nil.mpr tail_nil) rfl
  | point =>
    refine iff_of_false ?_ (by decide)
    rintro ⟨digits, exponent, heq, hne, _⟩
    exact hne (List.append_eq_nil_iff.mp heq.symm).1
  | fraction => exact iff_of_true (digitsThen_nil.mpr .none) rfl
  | mark =>
    refine iff_of_false ?_ (by decide)
    rintro ⟨sign, digits, heq, _, hne, _⟩
    exact hne (List.append_eq_nil_iff.mp heq.symm).2
  | markSign => exact iff_of_false (fun h => h.1 rfl) (by decide)
  | exponent => exact iff_of_true digits_nil rfl

theorem isExponentMark_of_isDigit (h : isDigit byte = true) : isExponentMark byte = false := by
  refine Bool.eq_false_iff.mpr fun hmark => ?_
  rcases isExponentMark_iff.mp hmark with hmark | hmark <;>
    exact ne_of_isDigit h (by rfl) hmark

/-- One more byte of a literal, one case for each part. -/
theorem rest_cons_iff {part : Part} : Rest part (byte :: text) ↔
    ∃ part', part.next byte = .ok (some part') ∧ Rest part' text := by
  have hpoint : isExponentMark 0x2E = false := rfl
  by_cases hdigit : isDigit byte = true
  · have hmark := isExponentMark_of_isDigit hdigit
    have hpoint : byte ≠ 0x2E := ne_of_isDigit hdigit (by rfl)
    have hplus : byte ≠ 0x2B := ne_of_isDigit hdigit (by rfl)
    have hminus : byte ≠ 0x2D := ne_of_isDigit hdigit (by rfl)
    cases part with
    | sign => by_cases hzero : byte = 0x30 <;> simp [rest_sign_cons, next, hzero, hdigit]
    | zero => simp [rest_zero_cons, next, hdigit, hpoint, hmark]
    | whole => simp [rest_whole_cons, next, hdigit, hpoint, hmark]
    | point => simp [rest_point_cons, next, hdigit]
    | fraction => simp [rest_fraction_cons, next, hdigit, hmark]
    | mark => simp [rest_mark_cons, next, hdigit, hplus, hminus]
    | markSign => simp [rest_markSign_cons, next, hdigit]
    | exponent => simp [rest_exponent_cons, next, hdigit]
  · cases part with
    | sign =>
      have hzero : byte ≠ 0x30 := fun h => hdigit (h ▸ rfl)
      simp [rest_sign_cons, next, hdigit, hzero]
    | zero =>
      by_cases hdot : byte = 0x2E <;> by_cases hmark : isExponentMark byte = true <;>
        simp_all [rest_zero_cons, next]
    | whole =>
      by_cases hdot : byte = 0x2E <;> by_cases hmark : isExponentMark byte = true <;>
        simp_all [rest_whole_cons, next]
    | point => simp [rest_point_cons, next, hdigit]
    | fraction =>
      by_cases hmark : isExponentMark byte = true <;>
        simp [rest_fraction_cons, next, hdigit, hmark]
    | mark =>
      by_cases hsign : byte = 0x2B ∨ byte = 0x2D <;>
        simp [rest_mark_cons, next, hdigit, hsign]
    | markSign => simp [rest_markSign_cons, next, hdigit]
    | exponent => simp [rest_exponent_cons, next, hdigit]

/-- A literal is completed by what the grammar allows behind what was read. -/
theorem completes_iff_rest {part : Part} : part.completes text = true ↔ Rest part text := by
  induction text generalizing part with
  | nil => exact rest_nil_iff.symm
  | cons byte text ih =>
    rw [completes, rest_cons_iff]
    split
    · rename_i part' hnext
      simp [hnext, ih]
    · rename_i hnext
      exact iff_of_false Bool.false_ne_true fun ⟨part', h, _⟩ => hnext part' h

end Numeral.Part

namespace Numeral

open Numeral.Part (Rest)

theorem number_cons {byte : UInt8} {text : List UInt8} : Number (byte :: text) ↔
    byte = 0x2D ∧ Rest .sign text ∨ Rest .sign (byte :: text) := by
  constructor
  · intro h
    generalize heq : byte :: text = literal at h
    cases h with
    | @parts sign whole fraction exponent hsign hwhole hfraction hexponent =>
      have htail : Part.Tail (fraction ++ exponent) := ⟨_, _, rfl, hfraction, hexponent⟩
      rcases hsign with rfl | rfl
      · exact .inr ⟨whole, _, rfl, hwhole, htail⟩
      · obtain ⟨rfl, rfl⟩ := List.cons.inj heq
        exact .inl ⟨rfl, whole, _, rfl, hwhole, htail⟩
  · rintro (⟨rfl, whole, tail, rfl, hwhole, fraction, exponent, rfl, hfraction, hexponent⟩ |
      ⟨whole, tail, heq, hwhole, fraction, exponent, rfl, hfraction, hexponent⟩)
    · exact .parts (.inr rfl) hwhole hfraction hexponent
    · rw [heq]
      exact .parts (.inl rfl) hwhole hfraction hexponent

theorem number_nil : ¬ Number [] := by
  intro h
  generalize heq : [] = literal at h
  obtain ⟨_, hwhole, _, _⟩ := h
  obtain ⟨rfl, _⟩ := List.append_eq_nil_iff.mp (List.append_eq_nil_iff.mp heq.symm).2
  cases hwhole

/-- The literals are the numbers of the grammar. -/
theorem isLiteral_iff_number {text : List UInt8} : isLiteral text = true ↔ Number text := by
  cases text with
  | nil => exact iff_of_false (by decide) number_nil
  | cons byte text =>
    rw [number_cons, Part.rest_sign_cons, isLiteral, Part.begin?]
    by_cases hminus : byte = 0x2D
    · subst hminus
      simp [Part.completes_iff_rest, isDigit]
    · by_cases hzero : byte = 0x30
      · simp [hzero, Part.completes_iff_rest]
      · by_cases hdigit : isDigit byte = true <;>
          simp [hminus, hzero, hdigit, Part.completes_iff_rest]

/-! ## Literals that are being read -/

/-- A byte that comes behind a literal and does not belong to it. -/
def Ends (rest : List UInt8) : Prop :=
  ∀ byte ∈ rest.head?, isDigit byte = false ∧ byte ≠ 0x2E ∧ isExponentMark byte = false

theorem Part.next_of_ends {part : Part} {byte : UInt8} {rest : List UInt8}
    (hcomplete : part.isComplete = true) (hends : Ends (byte :: rest)) :
    part.next byte = .ok none := by
  obtain ⟨hdigit, hpoint, hmark⟩ := hends byte rfl
  cases part with
  | sign | point | mark | markSign => cases hcomplete
  | zero | whole | fraction | exponent => simp [Part.next, hdigit, hpoint, hmark]

theorem Part.isComplete_of_next {part : Part} {byte : UInt8}
    (h : part.next byte = .ok none) : part.isComplete = true := by
  cases part with
  | zero | whole | fraction | exponent => rfl
  | sign | point | mark | markSign =>
    simp only [Part.next] at h
    split_ifs at h <;> cases h

/-- What completes a literal is taken, and no more. -/
theorem takeNumber_of_completes {part : Part} {read text rest : List UInt8}
    (htext : part.completes text = true) (hends : Ends rest) :
    takeNumber ⟨part, read⟩ (text ++ rest) =
      .ok ((⟨part, text.reverse ++ read⟩ : Numeral).literal, rest) := by
  induction text generalizing part read with
  | nil =>
    cases rest with
    | nil => exact if_pos htext
    | cons byte rest =>
      rw [List.nil_append, takeNumber, next, Part.next_of_ends htext hends]
      rfl
  | cons byte text ih =>
    rw [Part.completes] at htext
    split at htext
    · rename_i part' hnext
      rw [List.cons_append, takeNumber, next, hnext, List.reverse_cons, List.append_assoc]
      exact ih htext
    · cases htext

theorem ascii_of_digits {text : List UInt8} (h : Digits text) : ∀ byte ∈ text, byte < 0x80 :=
  fun byte hbyte => UInt8.lt_of_le_of_lt (h byte hbyte).2 (by decide)

theorem ascii_of_number {text : List UInt8} (h : Number text) : ∀ byte ∈ text, byte < 0x80 := by
  cases h with
  | parts hsign hwhole hfraction hexponent =>
    simp only [List.forall_mem_append]
    refine ⟨?_, ?_, ?_, ?_⟩
    · rcases hsign with rfl | rfl <;> simp
    · cases hwhole with
      | zero => simp
      | digits _ hdigits => exact ascii_of_digits hdigits
    · cases hfraction with
      | none => simp
      | digits _ hdigits => exact List.forall_mem_cons.mpr ⟨by decide, ascii_of_digits hdigits⟩
    · cases hexponent with
      | none => simp
      | digits hmark hsign _ hdigits =>
        refine List.forall_mem_cons.mpr ⟨?_, List.forall_mem_append.mpr ⟨?_, ?_⟩⟩
        · rcases hmark with rfl | rfl <;> decide
        · rcases hsign with rfl | rfl | rfl <;> simp
        · exact ascii_of_digits hdigits

/-- The text of a literal has the bytes that were read. -/
theorem bytes_literal {n : Numeral} (h : Number n.read.reverse) :
    Text.bytes n.literal = n.read.reverse := by
  exact Text.bytes_ofAscii (ascii_of_number h)

/-- The first byte of a number begins a part that the other bytes complete. -/
theorem exists_begin? {text : List UInt8} (h : Number text) :
    ∃ byte more part, text = byte :: more ∧ Part.begin? byte = some part ∧
      part.completes more = true := by
  have hliteral := isLiteral_iff_number.mpr h
  cases text with
  | nil => cases hliteral
  | cons byte more =>
    rw [isLiteral] at hliteral
    split at hliteral
    · rename_i part hbegin
      exact ⟨byte, more, part, rfl, hbegin, hliteral⟩
    · cases hliteral

/-- A literal that only a byte follows that no literal has there is taken as it stands. -/
theorem takeNumber_literal {literal : String} (h : Number (Text.bytes literal)) :
    ∃ byte text numeral, Text.bytes literal = byte :: text ∧ begin? byte = some numeral ∧
      ∀ rest, Ends rest → takeNumber numeral (text ++ rest) = .ok (literal, rest) := by
  obtain ⟨byte, text, part, heq, hbegin, htext⟩ := exists_begin? h
  refine ⟨byte, text, ⟨part, [byte]⟩, heq, by rw [begin?, hbegin]; rfl, fun rest hends => ?_⟩
  have hread : (text.reverse ++ [byte]).reverse = byte :: text := by simp
  rw [takeNumber_of_completes htext hends]
  -- texts of the same bytes are the same
  refine congrArg (fun read => Except.ok (read, rest)) (Text.bytes_injective ?_)
  rw [heq] at h ⊢
  rw [bytes_literal (hread ▸ h)]
  exact hread

/-- Whatever completes a literal that is being read completes the bytes that were read. -/
def IsBegun (n : Numeral) : Prop :=
  ∀ text, n.part.completes text = true → isLiteral (n.read.reverse ++ text) = true

theorem isBegun_of_begin? {byte : UInt8} {n : Numeral} (h : begin? byte = some n) :
    n.IsBegun ∧ n.read = [byte] := by
  obtain ⟨part, hpart, rfl⟩ := Option.map_eq_some_iff.mp h
  refine ⟨fun text htext => ?_, rfl⟩
  show isLiteral (byte :: text) = true
  rw [isLiteral, hpart]
  exact htext

theorem IsBegun.next {n n' : Numeral} {byte : UInt8} (h : n.IsBegun)
    (hnext : n.next byte = .ok (some n')) : n'.IsBegun ∧ n'.read = byte :: n.read := by
  unfold Numeral.next at hnext
  cases hpart : n.part.next byte with
  | error cause =>
    rw [hpart] at hnext
    cases hnext
  | ok part? =>
    rw [hpart] at hnext
    cases part? with
    | none => cases hnext
    | some part =>
      cases hnext
      refine ⟨fun text htext => ?_, rfl⟩
      have hwhole := h (byte :: text) (by rw [Part.completes, hpart]; exact htext)
      rwa [List.reverse_cons, List.append_assoc]

theorem isComplete_of_next {n : Numeral} {byte : UInt8} (h : n.next byte = .ok none) :
    n.isComplete = true := by
  unfold Numeral.next at h
  cases hpart : n.part.next byte with
  | error cause =>
    rw [hpart] at h
    cases h
  | ok part? =>
    rw [hpart] at h
    cases part? with
    | none => exact Part.isComplete_of_next hpart
    | some part => cases h

/-- A literal that may end is a number of the grammar, and it has the bytes that were read. -/
theorem IsBegun.number {n : Numeral} (h : n.IsBegun) (hcomplete : n.isComplete = true) :
    Number (Text.bytes n.literal) ∧ Text.bytes n.literal = n.read.reverse := by
  have hliteral := h [] hcomplete
  rw [List.append_nil] at hliteral
  have hnumber := isLiteral_iff_number.mp hliteral
  have hbytes := bytes_literal hnumber
  rw [← hbytes] at hnumber
  exact ⟨hnumber, hbytes⟩

end Numeral

end StructSketch.Json
