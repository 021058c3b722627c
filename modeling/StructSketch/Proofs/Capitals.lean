import StructSketch.Proofs.KeyNames

/-!
# Capitals

* **`Text.capitalRuns`** are the characters with the property Uppercase of Unicode 17.0, and
  **`Text.isCapital`** tells whether a character is one.
* **`Text.uppercase_of_isCapital`**: a capital is its own uppercase form.
* **`Text.head_uppercase`**: the uppercase form of a character begins with a capital, unless it is
  the character alone; the one exception is `'\u0149'`, whose uppercase form begins with an
  apostrophe.
* **`Text.uppercase_of_head`**: so an uppercase form begins with a character that is its own
  uppercase form.

The tables are compared run by run, and not letter by letter.
-/

namespace StructSketch.Text

/-! ## Runs of codes -/

/-- The codes `first`, `first + step`, … up to `last`. -/
structure CodeRun where
  first : Nat
  last : Nat
  step : Nat

namespace CodeRun

/-- Whether a code is one of the run. -/
def contains (run : CodeRun) (code : Nat) : Bool :=
  run.first.ble code && code.ble run.last && ((code - run.first) % run.step).beq 0

/-- Whether the codes of the run are all even or all odd. -/
def isSparse (run : CodeRun) : Bool := run.step.beq 2 || run.first.beq run.last

/-- Whether the bounds tell that each code of a run is one of the other run. -/
def within (run other : CodeRun) : Bool :=
  other.first.ble run.first && run.last.ble other.last &&
    (other.step.beq 1 ||
      other.step.beq 2 && run.isSparse && ((run.first - other.first) % 2).beq 0)

/-- Whether the bounds tell that no code of a run is one of the other run. -/
def apart (run other : CodeRun) : Bool :=
  run.last.blt other.first || other.last.blt run.first ||
    run.isSparse && other.isSparse && ((run.first + other.first) % 2).beq 1

variable {run other : CodeRun} {code : Nat}

theorem contains_iff : run.contains code = true ↔
    run.first ≤ code ∧ code ≤ run.last ∧ (code - run.first) % run.step = 0 := by
  simp [contains, and_assoc]

theorem isSparse_iff : run.isSparse = true ↔ run.step = 2 ∨ run.first = run.last := by
  simp [isSparse]

/-- A sparse run keeps to the parity of its first code. -/
theorem parity_of_isSparse (hsparse : run.isSparse = true) (h : run.contains code = true) :
    (code - run.first) % 2 = 0 := by
  obtain ⟨hge, hle, hstep⟩ := contains_iff.mp h
  rcases isSparse_iff.mp hsparse with htwo | hone
  · rwa [htwo] at hstep
  · omega

theorem contains_of_within (hwithin : run.within other = true) (h : run.contains code = true) :
    other.contains code = true := by
  simp only [within, Bool.and_eq_true, Bool.or_eq_true, Nat.ble_eq, Nat.beq_eq] at hwithin
  obtain ⟨⟨hfirst, hlast⟩, hstep⟩ := hwithin
  obtain ⟨hge, hle, _⟩ := contains_iff.mp h
  refine contains_iff.mpr ⟨by omega, by omega, ?_⟩
  rcases hstep with hone | ⟨⟨htwo, hsparse⟩, hparity⟩
  · rw [hone, Nat.mod_one]
  · have hcode := parity_of_isSparse hsparse h
    rw [htwo]
    omega

theorem not_contains_of_apart (hapart : run.apart other = true) (h : run.contains code = true) :
    other.contains code = false := by
  refine Bool.eq_false_iff.mpr fun hother => ?_
  simp only [apart, Bool.and_eq_true, Bool.or_eq_true, Nat.blt_eq, Nat.beq_eq] at hapart
  obtain ⟨hge, hle, _⟩ := contains_iff.mp h
  obtain ⟨hge', hle', _⟩ := contains_iff.mp hother
  rcases hapart with (hbelow | habove) | ⟨⟨hsparse, hsparse'⟩, hparity⟩
  · omega
  · omega
  · have := parity_of_isSparse hsparse h
    have := parity_of_isSparse hsparse' hother
    omega

end CodeRun

namespace LetterRun

/-- The letters of a run. -/
def letters (run : LetterRun) : CodeRun := ⟨run.first, run.last, run.step⟩

/-- The uppercase forms of the letters of a run. -/
def forms (run : LetterRun) : CodeRun :=
  ⟨run.upper, run.upper + (run.last - run.first), run.step⟩

variable {run : LetterRun} {code upper : Nat}

theorem contains_forms (h : run.upper? code = some upper) : run.forms.contains upper = true := by
  unfold upper? at h
  split_ifs at h with hletter
  cases h
  refine CodeRun.contains_iff.mpr ⟨Nat.le_add_right _ _, ?_, ?_⟩
  · show _ ≤ run.upper + (run.last - run.first)
    omega
  · show (run.upper + (code - run.first) - run.upper) % run.step = 0
    rw [Nat.add_sub_cancel_left]
    exact hletter.2.2

theorem upper?_eq_none (h : run.letters.contains code = false) : run.upper? code = none := by
  refine if_neg fun hletter => ?_
  rw [CodeRun.contains_iff.mpr hletter] at h
  cases h

end LetterRun

/-! ## Capitals -/

/-- The codes of the capitals. -/
def capitalRuns : List CodeRun :=
  [⟨0x0041, 0x005A, 1⟩, ⟨0x00C0, 0x00D6, 1⟩, ⟨0x00D8, 0x00DE, 1⟩, ⟨0x0100, 0x0136, 2⟩,
   ⟨0x0139, 0x0147, 2⟩, ⟨0x014A, 0x0178, 2⟩, ⟨0x0179, 0x017D, 2⟩, ⟨0x0181, 0x0181, 1⟩,
   ⟨0x0182, 0x0184, 2⟩, ⟨0x0186, 0x0187, 1⟩, ⟨0x0189, 0x018B, 1⟩, ⟨0x018E, 0x0191, 1⟩,
   ⟨0x0193, 0x0194, 1⟩, ⟨0x0196, 0x0198, 1⟩, ⟨0x019C, 0x019D, 1⟩, ⟨0x019F, 0x019F, 1⟩,
   ⟨0x01A0, 0x01A6, 2⟩, ⟨0x01A7, 0x01A9, 2⟩, ⟨0x01AC, 0x01AC, 1⟩, ⟨0x01AE, 0x01AF, 1⟩,
   ⟨0x01B1, 0x01B2, 1⟩, ⟨0x01B3, 0x01B5, 2⟩, ⟨0x01B7, 0x01B8, 1⟩, ⟨0x01BC, 0x01BC, 1⟩,
   ⟨0x01C4, 0x01C4, 1⟩, ⟨0x01C7, 0x01C7, 1⟩, ⟨0x01CA, 0x01CA, 1⟩, ⟨0x01CD, 0x01DB, 2⟩,
   ⟨0x01DE, 0x01EE, 2⟩, ⟨0x01F1, 0x01F1, 1⟩, ⟨0x01F4, 0x01F4, 1⟩, ⟨0x01F6, 0x01F7, 1⟩,
   ⟨0x01F8, 0x0232, 2⟩, ⟨0x023A, 0x023B, 1⟩, ⟨0x023D, 0x023E, 1⟩, ⟨0x0241, 0x0241, 1⟩,
   ⟨0x0243, 0x0245, 1⟩, ⟨0x0246, 0x024E, 2⟩, ⟨0x0370, 0x0372, 2⟩, ⟨0x0376, 0x0376, 1⟩,
   ⟨0x037F, 0x037F, 1⟩, ⟨0x0386, 0x0386, 1⟩, ⟨0x0388, 0x038A, 1⟩, ⟨0x038C, 0x038C, 1⟩,
   ⟨0x038E, 0x038F, 1⟩, ⟨0x0391, 0x03A1, 1⟩, ⟨0x03A3, 0x03AB, 1⟩, ⟨0x03CF, 0x03CF, 1⟩,
   ⟨0x03D2, 0x03D4, 1⟩, ⟨0x03D8, 0x03EE, 2⟩, ⟨0x03F4, 0x03F4, 1⟩, ⟨0x03F7, 0x03F7, 1⟩,
   ⟨0x03F9, 0x03FA, 1⟩, ⟨0x03FD, 0x042F, 1⟩, ⟨0x0460, 0x0480, 2⟩, ⟨0x048A, 0x04C0, 2⟩,
   ⟨0x04C1, 0x04CD, 2⟩, ⟨0x04D0, 0x052E, 2⟩, ⟨0x0531, 0x0556, 1⟩, ⟨0x10A0, 0x10C5, 1⟩,
   ⟨0x10C7, 0x10C7, 1⟩, ⟨0x10CD, 0x10CD, 1⟩, ⟨0x13A0, 0x13F5, 1⟩, ⟨0x1C89, 0x1C89, 1⟩,
   ⟨0x1C90, 0x1CBA, 1⟩, ⟨0x1CBD, 0x1CBF, 1⟩, ⟨0x1E00, 0x1E94, 2⟩, ⟨0x1E9E, 0x1EFE, 2⟩,
   ⟨0x1F08, 0x1F0F, 1⟩, ⟨0x1F18, 0x1F1D, 1⟩, ⟨0x1F28, 0x1F2F, 1⟩, ⟨0x1F38, 0x1F3F, 1⟩,
   ⟨0x1F48, 0x1F4D, 1⟩, ⟨0x1F59, 0x1F5F, 2⟩, ⟨0x1F68, 0x1F6F, 1⟩, ⟨0x1FB8, 0x1FBB, 1⟩,
   ⟨0x1FC8, 0x1FCB, 1⟩, ⟨0x1FD8, 0x1FDB, 1⟩, ⟨0x1FE8, 0x1FEC, 1⟩, ⟨0x1FF8, 0x1FFB, 1⟩,
   ⟨0x2102, 0x2102, 1⟩, ⟨0x2107, 0x2107, 1⟩, ⟨0x210B, 0x210D, 1⟩, ⟨0x2110, 0x2112, 1⟩,
   ⟨0x2115, 0x2115, 1⟩, ⟨0x2119, 0x211D, 1⟩, ⟨0x2124, 0x2128, 2⟩, ⟨0x212A, 0x212D, 1⟩,
   ⟨0x2130, 0x2133, 1⟩, ⟨0x213E, 0x213F, 1⟩, ⟨0x2145, 0x2145, 1⟩, ⟨0x2160, 0x216F, 1⟩,
   ⟨0x2183, 0x2183, 1⟩, ⟨0x24B6, 0x24CF, 1⟩, ⟨0x2C00, 0x2C2F, 1⟩, ⟨0x2C60, 0x2C60, 1⟩,
   ⟨0x2C62, 0x2C64, 1⟩, ⟨0x2C67, 0x2C6B, 2⟩, ⟨0x2C6D, 0x2C6F, 1⟩, ⟨0x2C70, 0x2C72, 2⟩,
   ⟨0x2C75, 0x2C75, 1⟩, ⟨0x2C7E, 0x2C7F, 1⟩, ⟨0x2C80, 0x2CE2, 2⟩, ⟨0x2CEB, 0x2CED, 2⟩,
   ⟨0x2CF2, 0x2CF2, 1⟩, ⟨0xA640, 0xA66C, 2⟩, ⟨0xA680, 0xA69A, 2⟩, ⟨0xA722, 0xA72E, 2⟩,
   ⟨0xA732, 0xA76E, 2⟩, ⟨0xA779, 0xA77D, 2⟩, ⟨0xA77E, 0xA786, 2⟩, ⟨0xA78B, 0xA78D, 2⟩,
   ⟨0xA790, 0xA792, 2⟩, ⟨0xA796, 0xA7A8, 2⟩, ⟨0xA7AA, 0xA7AE, 1⟩, ⟨0xA7B0, 0xA7B3, 1⟩,
   ⟨0xA7B4, 0xA7C2, 2⟩, ⟨0xA7C4, 0xA7C6, 1⟩, ⟨0xA7C7, 0xA7CB, 2⟩, ⟨0xA7CC, 0xA7DC, 2⟩,
   ⟨0xA7F5, 0xA7F5, 1⟩, ⟨0xFF21, 0xFF3A, 1⟩, ⟨0x10400, 0x10427, 1⟩, ⟨0x104B0, 0x104D3, 1⟩,
   ⟨0x10570, 0x10594, 2⟩, ⟨0x10571, 0x10579, 2⟩, ⟨0x1057D, 0x10589, 2⟩, ⟨0x1058D, 0x10591, 2⟩,
   ⟨0x10595, 0x10595, 1⟩, ⟨0x10C80, 0x10CB2, 1⟩, ⟨0x10D50, 0x10D65, 1⟩, ⟨0x118A0, 0x118BF, 1⟩,
   ⟨0x16E40, 0x16E5F, 1⟩, ⟨0x16EA0, 0x16EB8, 1⟩, ⟨0x1D400, 0x1D419, 1⟩, ⟨0x1D434, 0x1D44D, 1⟩,
   ⟨0x1D468, 0x1D481, 1⟩, ⟨0x1D49C, 0x1D49C, 1⟩, ⟨0x1D49E, 0x1D49F, 1⟩, ⟨0x1D4A2, 0x1D4A2, 1⟩,
   ⟨0x1D4A5, 0x1D4A6, 1⟩, ⟨0x1D4A9, 0x1D4AC, 1⟩, ⟨0x1D4AE, 0x1D4B5, 1⟩, ⟨0x1D4D0, 0x1D4E9, 1⟩,
   ⟨0x1D504, 0x1D505, 1⟩, ⟨0x1D507, 0x1D50A, 1⟩, ⟨0x1D50D, 0x1D514, 1⟩, ⟨0x1D516, 0x1D51C, 1⟩,
   ⟨0x1D538, 0x1D539, 1⟩, ⟨0x1D53B, 0x1D53E, 1⟩, ⟨0x1D540, 0x1D543, 1⟩, ⟨0x1D544, 0x1D546, 2⟩,
   ⟨0x1D54A, 0x1D550, 1⟩, ⟨0x1D56C, 0x1D585, 1⟩, ⟨0x1D5A0, 0x1D5B9, 1⟩, ⟨0x1D5D4, 0x1D5ED, 1⟩,
   ⟨0x1D608, 0x1D621, 1⟩, ⟨0x1D63C, 0x1D655, 1⟩, ⟨0x1D670, 0x1D689, 1⟩, ⟨0x1D6A8, 0x1D6C0, 1⟩,
   ⟨0x1D6E2, 0x1D6FA, 1⟩, ⟨0x1D71C, 0x1D734, 1⟩, ⟨0x1D756, 0x1D76E, 1⟩, ⟨0x1D790, 0x1D7A8, 1⟩,
   ⟨0x1D7CA, 0x1D7CA, 1⟩, ⟨0x1E900, 0x1E921, 1⟩, ⟨0x1F130, 0x1F149, 1⟩, ⟨0x1F150, 0x1F169, 1⟩,
   ⟨0x1F170, 0x1F189, 1⟩]

/-- Whether a code is that of a capital. -/
def isCapitalCode (code : Nat) : Bool := capitalRuns.any (·.contains code)

/-- Whether a character is a capital. -/
def isCapital (c : Char) : Bool := isCapitalCode c.toNat

theorem valid_capitalRuns :
    (capitalRuns.all fun run =>
      run.last.blt 0xD800 || Nat.blt 0xDFFF run.first && run.last.blt 0x110000) = true := by
  decide +kernel

theorem isCapital_ofNat {code : Nat} (h : isCapitalCode code = true) :
    isCapital (Char.ofNat code) = true := by
  obtain ⟨run, hrun, hcode⟩ := List.any_eq_true.mp h
  have hvalid := List.all_eq_true.mp valid_capitalRuns run hrun
  simp only [Bool.or_eq_true, Bool.and_eq_true, Nat.blt_eq] at hvalid
  obtain ⟨hge, hle, _⟩ := CodeRun.contains_iff.mp hcode
  have hchar : code.isValidChar := by
    show code < 0xD800 ∨ 0xDFFF < code ∧ code < 0x110000
    omega
  rwa [isCapital, Char.toNat_ofNat, if_pos hchar]

/-! ## Capitals and uppercase forms -/

/-- The single uppercase forms are capitals. -/
theorem forms_within_capitalRuns :
    (letterRuns.all fun run => capitalRuns.any run.forms.within) = true := by
  decide +kernel

/-- The uppercase forms of several characters begin with capitals, but for one. -/
theorem heads_expansions :
    (expansions.all fun p => p.1.beq 0x0149 || p.2.head?.any isCapitalCode) = true := by
  decide +kernel

/-- No capital has an uppercase form other than itself. -/
theorem capitalRuns_apart :
    (capitalRuns.all fun run => letterRuns.all (run.apart ·.letters) &&
      expansions.all fun p => !run.contains p.1) = true := by
  decide +kernel

theorem uppercaseCodes_of_isCapitalCode {code : Nat} (h : isCapitalCode code = true) :
    uppercaseCodes code = [code] := by
  obtain ⟨run, hrun, hcode⟩ := List.any_eq_true.mp h
  have hall := List.all_eq_true.mp capitalRuns_apart run hrun
  obtain ⟨hletters, hexpansions⟩ := Bool.and_eq_true_iff.mp hall
  have hlookup : expansions.lookup code = none := by
    refine List.lookup_eq_none_iff.mpr fun p hp => ?_
    have hnot := List.all_eq_true.mp hexpansions p hp
    refine bne_iff_ne.mpr ?_
    rintro rfl
    rw [hcode] at hnot
    cases hnot
  have hnone : letterRuns.findSome? (·.upper? code) = none := by
    refine List.findSome?_eq_none_iff.mpr fun other hother => ?_
    have hapart := List.all_eq_true.mp hletters other hother
    exact LetterRun.upper?_eq_none (CodeRun.not_contains_of_apart hapart hcode)
  rw [uppercaseCodes, hlookup, hnone]
  rfl

/-- A capital is its own uppercase form. -/
theorem uppercase_of_isCapital {c : Char} (h : isCapital c = true) : uppercase c = [c] := by
  rw [uppercase, uppercaseCodes_of_isCapitalCode h, List.map_singleton, Char.ofNat_toNat]

/-- But for one code, an uppercase form is the code alone, or it begins with a capital. -/
theorem head_uppercaseCodes {code : Nat} (hexception : code ≠ 0x0149) :
    uppercaseCodes code = [code] ∨
      ∃ upper, (uppercaseCodes code).head? = some upper ∧ isCapitalCode upper = true := by
  unfold uppercaseCodes
  split
  · rename_i codes hlookup
    obtain ⟨before, after, heq, _⟩ := List.lookup_eq_some_iff.mp hlookup
    have hmem : (code, codes) ∈ expansions := by
      rw [heq]
      exact List.mem_append_right _ List.mem_cons_self
    have hhead := List.all_eq_true.mp heads_expansions _ hmem
    rw [Bool.or_eq_true, Nat.beq_eq] at hhead
    exact .inr ((Option.any_eq_true ..).mp (hhead.resolve_left hexception))
  · cases hform : letterRuns.findSome? (·.upper? code) with
    | none => exact .inl rfl
    | some upper =>
      obtain ⟨run, hrun, hupper⟩ := List.exists_of_findSome?_eq_some hform
      obtain ⟨capitals, hcapitals, hwithin⟩ :=
        List.any_eq_true.mp (List.all_eq_true.mp forms_within_capitalRuns run hrun)
      refine .inr ⟨upper, rfl, List.any_eq_true.mpr ⟨capitals, hcapitals, ?_⟩⟩
      exact CodeRun.contains_of_within hwithin (LetterRun.contains_forms hupper)

/-- An uppercase form is the character alone, or it begins with a capital; only that of `'\u0149'`
begins otherwise. -/
theorem head_uppercase {c d : Char} (h : (uppercase c).head? = some d) :
    uppercase c = [c] ∨ isCapital d = true ∨ c = '\u0149' ∧ d = '\u02BC' := by
  by_cases hexception : c.toNat = 0x0149
  · obtain rfl : c = '\u0149' := Char.toNat_inj.mp hexception
    exact .inr (.inr ⟨rfl, Option.some.inj (h.symm.trans (by decide))⟩)
  · unfold uppercase at h ⊢
    rw [List.head?_map] at h
    rcases head_uppercaseCodes hexception with hself | ⟨upper, hupper, hcapital⟩
    · left
      rw [hself, List.map_singleton, Char.ofNat_toNat]
    · rw [hupper] at h
      cases h
      exact .inr (.inl (isCapital_ofNat hcapital))

/-- An uppercase form begins with a character that is its own uppercase form. -/
theorem uppercase_of_head {c d : Char} (h : (uppercase c).head? = some d) :
    uppercase d = [d] := by
  rcases head_uppercase h with hself | hcapital | ⟨_, rfl⟩
  · rw [hself] at h
    cases h
    exact hself
  · exact uppercase_of_isCapital hcapital
  · decide

end StructSketch.Text
