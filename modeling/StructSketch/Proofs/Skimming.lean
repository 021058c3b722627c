import StructSketch.Json.Skim
import StructSketch.Proofs.Grammar.Completeness

/-!
# What the grammar allows is passed over

Passing over a value keeps no tree, so the proof is about what is left of the text alone.

* **`Skim.Quoted.Leads`**: a stretch of a quoted text leads from one state to another. The spelling
  of a character leads back to where it began (`Skim.Quoted.leads_character`).
* **`Grammar.Value.skims`**: a value of the grammar is passed over and settled in its container.
  The proof goes along the derivation, a case for each rule.
* **`skim_value`**: so behind some blanks a value is passed over up to its last byte.
-/

namespace StructSketch.Json

open String (utf8EncodeChar)
open Grammar (Blanks HexEscape Escape Character Characters Value Element Elements Member Members)

namespace Skim

/-! ## Quoted texts -/

namespace Quoted

/-- A stretch of a text leads from one state to another. -/
def Leads (quoted : Quoted) : List UInt8 → Quoted → Prop
  | [], last => quoted = last
  | byte :: text, last => ∃ next, quoted.next byte = .ok (some next) ∧ next.Leads text last

theorem Leads.append {first middle last : Quoted} {text text' : List UInt8}
    (h : first.Leads text middle) (h' : middle.Leads text' last) :
    first.Leads (text ++ text') last := by
  induction text generalizing first with
  | nil =>
    cases h
    exact h'
  | cons byte text ih =>
    obtain ⟨next, hnext, h⟩ := h
    exact ⟨next, hnext, ih h⟩

theorem leads_raw {bytes : List UInt8}
    (h : ∀ byte ∈ bytes, byte ≠ 0x22 ∧ byte ≠ 0x5C ∧ 0x20 ≤ byte) :
    Quoted.plain.Leads bytes .plain := by
  induction bytes with
  | nil => rfl
  | cons byte bytes ih =>
    obtain ⟨⟨hquote, hbackslash, hcontrol⟩, hbytes⟩ := List.forall_mem_cons.mp h
    refine ⟨.plain, ?_, ih hbytes⟩
    rw [Quoted.next, if_neg hquote, if_neg hbackslash, if_neg (UInt8.not_lt.mpr hcontrol)]

/-- Four digits are enough, whatever they stand for. -/
theorem leads_code {text : List UInt8} {number : Nat} (h : HexEscape text number) :
    Quoted.plain.Leads text .plain := by
  cases h with
  | digits hu hv hw hx =>
    have hu := hexDigit?_eq_some.mpr hu
    have hv := hexDigit?_eq_some.mpr hv
    have hw := hexDigit?_eq_some.mpr hw
    have hx := hexDigit?_eq_some.mpr hx
    refine ⟨.escape, rfl, .code 4 true, rfl, .code 3 true, ?_, .code 2 true, ?_, .code 1 true, ?_,
      .plain, ?_, rfl⟩ <;> simp [Quoted.next, hu, hv, hw, hx]

theorem leads_escape {text : List UInt8} {c : Char} (h : Escape text c) :
    Quoted.plain.Leads text .plain := by
  cases h with
  | @letter letter _ hletter =>
    refine ⟨.escape, rfl, .plain, ?_, rfl⟩
    have hletters : ∀ escape ∈ Grammar.escapeLetters,
        Quoted.escape.next escape.1 = .ok (some .plain) := by
      simp [Grammar.escapeLetters, Quoted.next, simpleEscape?]
    exact hletters _ hletter
  | code hcode => exact leads_code hcode
  | pair hfirst hsecond => exact (leads_code hfirst).append (leads_code hsecond)

/-- The spelling of a character leads back to where it began. -/
theorem leads_character {text : List UInt8} {c : Char} (h : Character text c) :
    Quoted.plain.Leads text .plain := by
  cases h with
  | unescaped hcontrol hquote hbackslash =>
    exact leads_raw (raw_of_unescaped hcontrol hquote hbackslash)
  | escaped hescape => exact leads_escape hescape

theorem leads_characters {text : List UInt8} {cs : List Char} (h : Characters text cs) :
    Quoted.plain.Leads text .plain := by
  induction h with
  | nil => rfl
  | cons hfirst _ ih => exact (leads_character hfirst).append ih

end Quoted

/-! ## Tokens -/

/-- What is left behind a value that has ended: the rest, or what is left of its container. -/
def settled : List Container → List UInt8 → Except Cause (List UInt8)
  | [], rest => .ok rest
  | innermost :: outer, rest => (afterValue innermost outer).run rest

theorem run_cons {skim next : Skim} {byte : UInt8} {rest : List UInt8}
    (h : skim.next byte = .ok (.more next)) : skim.run (byte :: rest) = next.run rest := by
  rw [run, h]

theorem run_settle {skim : Skim} {outer : List Container} {byte : UInt8} {rest : List UInt8}
    (h : skim.next byte = .ok (settle outer)) : skim.run (byte :: rest) = settled outer rest := by
  rw [run, h]
  cases outer <;> rfl

/-- A quoted text is passed over, whether it is a key or a value. -/
theorem run_leads {skim : Quoted → Skim}
    (hskim : ∀ quoted next byte, quoted.next byte = .ok (some next) →
      (skim quoted).next byte = .ok (.more (skim next)))
    {first last : Quoted} {text : List UInt8} (h : first.Leads text last) (rest : List UInt8) :
    (skim first).run (text ++ rest) = (skim last).run rest := by
  induction text generalizing first with
  | nil =>
    cases h
    rfl
  | cons byte text ih =>
    obtain ⟨next, hnext, h⟩ := h
    rw [List.cons_append, run_cons (hskim _ _ _ hnext)]
    exact ih h

theorem run_inText {text : List UInt8} {cs : List Char} (h : Characters text cs)
    (outer : List Container) (rest : List UInt8) :
    (inText .plain outer).run (text ++ 0x22 :: rest) = settled outer rest := by
  rw [@run_leads (inText · outer) ?_ _ _ _ (Quoted.leads_characters h)]
  · exact run_settle rfl
  · intro quoted next byte hnext
    rw [Skim.next, hnext]
    rfl

theorem run_inKey {text : List UInt8} {cs : List Char} (h : Characters text cs)
    (outer : List Container) (rest : List UInt8) :
    (inKey .plain outer).run (text ++ 0x22 :: rest) = (afterKey outer).run rest := by
  rw [@run_leads (inKey · outer) ?_ _ _ _ (Quoted.leads_characters h)]
  · exact run_cons rfl
  · intro quoted next byte hnext
    rw [Skim.next, hnext]
    rfl

theorem run_inWord {left rest : List UInt8} {outer : List Container} (h : left ≠ []) :
    (inWord left outer).run (left ++ rest) = settled outer rest := by
  induction left with
  | nil => exact absurd rfl h
  | cons letter left ih =>
    cases left with
    | nil => exact run_settle (if_pos rfl)
    | cons letter' left =>
      rw [← ih (List.cons_ne_nil _ _)]
      refine run_cons ?_
      rw [Skim.next]
      · exact if_pos rfl
      · exact nofun

theorem run_word {first : UInt8} {left rest : List UInt8} {meaning : Json}
    {outer : List Container} (h : word? first = some (left, meaning)) :
    (beforeValue outer).run (first :: (left ++ rest)) = settled outer rest := by
  unfold word? at h
  split_ifs at h with ht hf hn <;> cases h
  · rw [ht, run_cons (by rfl : _ = Except.ok (Progress.more (inWord _ outer)))]
    exact run_inWord (List.cons_ne_nil _ _)
  · rw [hf, run_cons (by rfl : _ = Except.ok (Progress.more (inWord _ outer)))]
    exact run_inWord (List.cons_ne_nil _ _)
  · rw [hn, run_cons (by rfl : _ = Except.ok (Progress.more (inWord _ outer)))]
    exact run_inWord (List.cons_ne_nil _ _)

/-- What completes a number is passed over, and no more. -/
theorem run_inNumber {part : Numeral.Part} {text rest : List UInt8} {outer : List Container}
    (htext : part.completes text = true) (hends : Numeral.Ends rest) :
    (inNumber part outer).run (text ++ rest) = settled outer rest := by
  induction text generalizing part with
  | nil =>
    have hcomplete : part.isComplete = true := htext
    cases rest with
    | nil => cases outer <;> simp [run, lacks, settled, hcomplete]
    | cons byte rest =>
      have hnext := Numeral.Part.next_of_ends hcomplete hends
      cases outer with
      | nil => simp [run, Skim.next, settled, hnext]
      | cons innermost outer =>
        rw [List.nil_append, run, settled, run, Skim.next, hnext]
        rfl
  | cons byte text ih =>
    rw [Numeral.Part.completes] at htext
    split at htext
    · rename_i part' hnext
      have hmore : (inNumber part outer).next byte = .ok (.more (.inNumber part' outer)) := by
        simp only [Skim.next, hnext]
      rw [List.cons_append, run_cons hmore]
      exact ih htext
    · cases htext

/-! ## Between two tokens -/

/-- No token is being passed over. -/
def IsBetween : Skim → Prop
  | .inKey .. | .inText .. | .inWord .. | .inNumber .. => False
  | _ => True

theorem IsBetween.next {skim : Skim} (h : skim.IsBetween) (byte : UInt8) :
    skim.next byte = outside skim byte := by
  cases skim with
  | inKey | inText | inWord | inNumber => cases h
  | _ => rfl

theorem run_blanks (skim : Skim) (h : skim.IsBetween) {blanks rest : List UInt8}
    (hblanks : Blanks blanks) : skim.run (blanks ++ rest) = skim.run rest := by
  induction blanks with
  | nil => rfl
  | cons byte blanks ih =>
    obtain ⟨hbyte, hblanks⟩ := List.forall_mem_cons.mp hblanks
    have hnext : skim.next byte = .ok (.more skim) := by
      rw [h.next]
      exact if_pos (isBlank_iff.mpr hbyte)
    rw [List.cons_append, run_cons hnext, ih hblanks]

theorem next_beforeValue {byte : UInt8} (h : isBlank byte = false) (outer : List Container) :
    (beforeValue outer).next byte = begin outer byte := by
  show outside _ byte = _
  unfold outside
  rw [h]
  rfl

theorem run_number {byte : UInt8} {rest : List UInt8} {part : Numeral.Part}
    {outer : List Container} (h : Numeral.Part.begin? byte = some part) :
    (beforeValue outer).run (byte :: rest) = (inNumber part outer).run rest := by
  have hbegin : Numeral.begin? byte = some ⟨part, [byte]⟩ := by
    rw [Numeral.begin?, h]
    rfl
  obtain ⟨hblank, hword, hquote, hbracket, _, hbrace⟩ := Reader.begins_number hbegin
  refine run_cons ?_
  rw [next_beforeValue hblank, begin, if_neg hquote, if_neg hbracket, if_neg hbrace, hword, h]

end Skim

/-! ## Rules of the grammar -/

namespace Grammar

open Container

/-- The first item of an array is passed over like any item. -/
theorem BeginsValue.skims_first {text : List UInt8} (h : BeginsValue text)
    (outer : List Container) (rest : List UInt8) :
    (Skim.beforeFirstItem outer).run (text ++ rest) =
      (Skim.beforeValue (.array :: outer)).run (text ++ rest) := by
  obtain ⟨blanks, byte, more, rfl, hblanks, hblank, hend⟩ := h
  rw [List.append_assoc, Skim.run_blanks (.beforeFirstItem outer) trivial hblanks,
    Skim.run_blanks (.beforeValue (.array :: outer)) trivial hblanks, List.cons_append,
    Skim.run, Skim.run]
  have hnext : (Skim.beforeFirstItem outer).next byte =
      (Skim.beforeValue (.array :: outer)).next byte := by
    rw [Skim.next_beforeValue hblank]
    show Skim.outside _ byte = _
    unfold Skim.outside
    rw [hblank]
    exact if_neg hend
  rw [hnext]

/-- The first key of an object is passed over like any key. -/
theorem Member.skims_first {text : List UInt8} {member : String × Json} (h : Member text member)
    (outer : List Container) (rest : List UInt8) :
    (Skim.beforeFirstKey outer).run (text ++ rest) =
      (Skim.beforeKey outer).run (text ++ rest) := by
  cases h with
  | pair hbefore hkey =>
    cases hkey
    rw [List.append_assoc, Skim.run_blanks (.beforeFirstKey outer) trivial hbefore,
      Skim.run_blanks (.beforeKey outer) trivial hbefore]
    rfl

mutual

/-- A value is passed over and settled in its container. -/
theorem Value.skims {text : List UInt8} {tree : Json} : Value text tree →
    ∀ (outer : List Container) (rest : List UInt8), Follows rest →
      (Skim.beforeValue outer).run (text ++ rest) = Skim.settled outer rest
  | .nullWord, _, _, _ => Skim.run_word rfl
  | .trueWord, _, _, _ => Skim.run_word rfl
  | .falseWord, _, _, _ => Skim.run_word rfl
  | .number h, outer, rest, hrest => by
    obtain ⟨byte, more, part, htext, hbegin, hmore⟩ := Numeral.exists_begin? h
    rw [htext, List.cons_append, Skim.run_number hbegin]
    exact Skim.run_inNumber hmore hrest.ends
  | .string h, outer, rest, _ => by
    cases h with
    | quotes h =>
      rw [List.cons_append, List.append_assoc]
      exact Skim.run_inText h outer rest
  | .emptyArray h, outer, rest, _ => by
    rw [List.cons_append, List.append_assoc]
    refine (Skim.run_blanks (.beforeFirstItem outer) trivial h).trans ?_
    exact Skim.run_settle rfl
  | .array h, outer, rest, _ => by
    rw [List.cons_append, List.append_assoc]
    refine (h.skims outer (0x5D :: rest) (follows_cons (by decide))).trans ?_
    exact Skim.run_settle rfl
  | .emptyObject h, outer, rest, _ => by
    rw [List.cons_append, List.append_assoc]
    refine (Skim.run_blanks (.beforeFirstKey outer) trivial h).trans ?_
    exact Skim.run_settle rfl
  | .object h, outer, rest, _ => by
    rw [List.cons_append, List.append_assoc]
    refine (h.skims outer (0x7D :: rest) (follows_cons (by decide))).trans ?_
    exact Skim.run_settle rfl

theorem Element.skims {text : List UInt8} {tree : Json} : Element text tree →
    ∀ (innermost : Container) (outer : List Container) (rest : List UInt8), Follows rest →
      (Skim.beforeValue (innermost :: outer)).run (text ++ rest) =
        (Skim.afterValue innermost outer).run rest
  | .padded hbefore h hafter, innermost, outer, rest, hrest => by
    rw [List.append_assoc, List.append_assoc,
      Skim.run_blanks (.beforeValue (innermost :: outer)) trivial hbefore,
      h.skims (innermost :: outer) _ (hrest.blanks hafter)]
    exact Skim.run_blanks (.afterValue innermost outer) trivial hafter

theorem Elements.skims {text : List UInt8} {items : List Json} : Elements text items →
    ∀ (outer : List Container) (rest : List UInt8), Follows rest →
      (Skim.beforeFirstItem outer).run (text ++ rest) = (Skim.afterValue .array outer).run rest
  | .one h, outer, rest, hrest => by
    rw [h.begins.skims_first]
    exact h.skims .array outer rest hrest
  | .more h hlast, outer, rest, hrest => by
    rw [List.append_assoc, List.cons_append, h.skims outer _ (follows_cons (.inl rfl)),
      Skim.run_cons rfl]
    exact hlast.skims .array outer rest hrest

theorem Member.skims {text : List UInt8} {member : String × Json} : Member text member →
    ∀ (outer : List Container) (rest : List UInt8), Follows rest →
      (Skim.beforeKey outer).run (text ++ rest) = (Skim.afterValue .object outer).run rest
  | .pair hbefore hkey hafter hvalue, outer, rest, hrest => by
    cases hkey with
    | quotes hkey =>
      simp only [List.append_assoc, List.cons_append, List.nil_append]
      rw [Skim.run_blanks (.beforeKey outer) trivial hbefore, Skim.run_cons rfl,
        Skim.run_inKey hkey, Skim.run_blanks (.afterKey outer) trivial hafter,
        Skim.run_cons rfl]
      exact hvalue.skims .object outer rest hrest

theorem Members.skims {text : List UInt8} {members : List (String × Json)} :
    Members text members → ∀ (outer : List Container) (rest : List UInt8), Follows rest →
      (Skim.beforeFirstKey outer).run (text ++ rest) = (Skim.afterValue .object outer).run rest
  | .one h, outer, rest, hrest => by
    rw [h.skims_first]
    exact h.skims outer rest hrest
  | .more h hlast, outer, rest, hrest => by
    rw [List.append_assoc, List.cons_append, h.skims outer _ (follows_cons (.inl rfl)),
      Skim.run_cons rfl]
    exact hlast.skims outer rest hrest

end

end Grammar

/-- Behind some blanks a value is passed over up to its last byte. -/
theorem skim_value {blanks text rest : List UInt8} {tree : Json} (hblanks : Blanks blanks)
    (h : Value text tree) (hrest : Follows rest) :
    skim (blanks ++ (text ++ rest)) = .ok rest := by
  rw [skim, Skim.run_blanks (.beforeValue []) trivial hblanks]
  exact h.skims [] rest hrest

end StructSketch.Json
