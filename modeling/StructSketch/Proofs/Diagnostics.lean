import Mathlib.Data.List.Induction
import Mathlib.Tactic.SplitIfs
import StructSketch.Proofs.Generation

/-!
# Diagnostics

* **`Position.ofOffset`**: the place of an offset of a text, its line and its column counted from
  the bytes before it.
* **`Reader.refusal_of_next`** and **`Reader.truncation_of_finish`**: a byte is never refused as a
  truncation, and the end of a text always is.
* **`Reader.run_append`**: what follows a refused byte changes nothing.
* **`Reader.kind_of_run_append`**: a document that goes on behind a complete one is of its kind.
* **`Schema.diagnostics_of_ofSample`**: every fault lies at an offset of the sample, one that is
  a truncation at its end; every other one stays whatever follows. So all that a beginning of an
  accepted sample can lack is what follows it.
-/

namespace StructSketch

namespace Json

/-! ## Offsets -/

namespace Position

/-- The place of an offset: its line is the number of line feeds before it and one more, its
column the number of bytes since the last of them. -/
def ofOffset (text : List UInt8) (offset : Nat) : Position :=
  ⟨1 + (text.take offset).count 0x0A,
    ((text.take offset).reverse.takeWhile (· ≠ 0x0A)).length⟩

/-- More text behind an offset does not move it. -/
theorem ofOffset_append {text : List UInt8} {offset : Nat} (h : offset ≤ text.length)
    (later : List UInt8) : ofOffset (text ++ later) offset = ofOffset text offset := by
  rw [ofOffset, ofOffset, List.take_append_of_le_length h]

theorem behind_append (text : List UInt8) (byte : UInt8) :
    behind (text ++ [byte]) = (behind text).advance byte := by
  rw [behind, behind, List.foldl_append]
  rfl

/-- The place behind a text is that of its last offset. -/
theorem behind_eq_ofOffset (text : List UInt8) : behind text = ofOffset text text.length := by
  induction text using List.reverseRecOn with
  | nil => rfl
  | append_singleton text byte ih =>
    rw [behind_append, ih, ofOffset, ofOffset, List.take_length, List.take_length, advance,
      List.count_append, List.reverse_append]
    by_cases hbyte : byte = 0x0A
    · simp [hbyte, Nat.add_assoc]
    · simp [hbyte]

/-- Going back from behind a text leads to an offset of it: at most to the beginning of the line. -/
theorem back_behind (text : List UInt8) (count : Nat) :
    ∃ offset ≤ text.length, (behind text).back count = ofOffset text offset := by
  induction text using List.reverseRecOn generalizing count with
  | nil => exact ⟨0, Nat.le_refl _, by rw [back, behind_eq_ofOffset]; simp [ofOffset]⟩
  | append_singleton text byte ih =>
    have hend := behind_eq_ofOffset (text ++ [byte])
    cases count with
    | zero => exact ⟨_, Nat.le_refl _, hend⟩
    | succ count =>
      by_cases hbyte : byte = 0x0A
      · -- the line begins here
        refine ⟨_, Nat.le_refl _, ?_⟩
        rw [← hend, behind_append, advance, if_pos hbyte, back, Nat.zero_sub]
      · obtain ⟨offset, hoffset, hback⟩ := ih count
        refine ⟨offset, ?_, ?_⟩
        · rw [List.length_append]
          omega
        · rw [ofOffset_append hoffset, ← hback, behind_append, advance, if_neg hbyte, back, back,
            Nat.add_sub_add_right]

end Position

/-- A cause is placed at an offset of what was read. -/
theorem Cause.placedAt_behind (cause : Cause) (text : List UInt8) :
    ∃ offset ≤ text.length, cause.placedAt (.behind text) = Position.ofOffset text offset := by
  cases cause with
  | invalidCodePoint undecoded => exact Position.back_behind text undecoded
  | _ => exact ⟨_, Nat.le_refl _, Position.behind_eq_ofOffset text⟩

/-- A truncation is placed behind what was read. -/
theorem Cause.placedAt_of_isTruncation {cause : Cause} (h : cause.isTruncation) (place : Position) :
    cause.placedAt place = place := by
  cases cause with
  | invalidCodePoint undecoded => cases h
  | _ => rfl

/-! ## Refusals and truncations -/

theorem Numeral.refusal_of_next {numeral : Numeral} {byte : UInt8} {cause : Cause}
    (h : numeral.next byte = .error cause) : cause.isTruncation = false := by
  obtain ⟨part, read⟩ := numeral
  cases hpart : part.next byte with
  | ok part? =>
    rw [Numeral.next, hpart] at h
    cases h
  | error found =>
    rw [Numeral.next, hpart] at h
    cases h
    cases part <;> simp only [Part.next] at hpart <;> split_ifs at hpart <;> cases hpart <;> rfl

namespace Quoted

theorem refusal_of_takeCode {content : List UInt8} {code : Nat} {cause : Cause}
    (h : takeCode content code = .error cause) : cause.isTruncation = false := by
  unfold takeCode at h
  split_ifs at h
  cases h
  rfl

theorem refusal_of_takePairCode {content : List UInt8} {high low : Nat} {cause : Cause}
    (h : takePairCode content high low = .error cause) : cause.isTruncation = false := by
  unfold takePairCode at h
  split_ifs at h
  cases h
  rfl

theorem refusal_of_next {quoted : Quoted} {byte : UInt8} {cause : Cause}
    (h : quoted.next byte = .error cause) : cause.isTruncation = false := by
  cases quoted with
  | plain content =>
    simp only [next, close] at h
    split_ifs at h
    · split at h <;> cases h
      rfl
    · cases h
      rfl
  | escape content =>
    simp only [next] at h
    split_ifs at h
    split at h <;> cases h
    rfl
  | code content digits =>
    simp only [next] at h
    split_ifs at h
    split at h
    · exact refusal_of_takeCode h
    · cases h
      rfl
  | pairEscape content high | pairLetter content high =>
    simp only [next] at h
    split_ifs at h
    cases h
    rfl
  | pairCode content high digits =>
    simp only [next] at h
    split_ifs at h
    split at h
    · exact refusal_of_takePairCode h
    · cases h
      rfl

end Quoted

namespace Reader

theorem refusal_of_begin {outer : List Frame} {byte : UInt8} {cause : Cause}
    (h : begin outer byte = .error cause) : cause.isTruncation = false := by
  unfold begin at h
  split_ifs at h
  split at h <;> cases h
  rfl

theorem refusal_of_between {reader : Reader} {byte : UInt8} {cause : Cause}
    (h : between reader byte = .error cause) : cause.isTruncation = false := by
  cases reader with
  | beforeValue outer => exact refusal_of_begin h
  | beforeFirstItem outer =>
    simp only [between] at h
    split_ifs at h
    exact refusal_of_begin h
  | beforeItem items outer =>
    simp only [between] at h
    split_ifs at h
    · cases h
      rfl
    · exact refusal_of_begin h
  | _ =>
    simp only [between] at h
    first
    | split_ifs at h <;> cases h <;> rfl
    | cases h; rfl

theorem refusal_of_outside {reader : Reader} {byte : UInt8} {cause : Cause}
    (h : outside reader byte = .error cause) : cause.isTruncation = false := by
  unfold outside at h
  split_ifs at h
  exact refusal_of_between h

/-- A byte that is refused is no truncation. -/
theorem refusal_of_next {reader : Reader} {byte : UInt8} {cause : Cause}
    (h : reader.next byte = .error cause) : cause.isTruncation = false := by
  unfold Reader.next at h
  split at h
  · rename_i members quoted outer
    cases hquoted : quoted.next byte with
    | ok progress => rw [hquoted] at h; cases h
    | error found =>
      rw [hquoted] at h
      cases h
      exact Quoted.refusal_of_next hquoted
  · rename_i quoted outer
    cases hquoted : quoted.next byte with
    | ok progress => rw [hquoted] at h; cases h
    | error found =>
      rw [hquoted] at h
      cases h
      exact Quoted.refusal_of_next hquoted
  · split at h
    · exact refusal_of_outside h
    · split_ifs at h
      cases h
      rfl
    · split_ifs at h
      cases h
      rfl
  · split at h
    · cases h
    · exact refusal_of_outside h
    · rename_i hnumeral
      cases h
      exact Numeral.refusal_of_next hnumeral
  · exact refusal_of_outside h

/-- A text that ends too early is a truncation. -/
theorem truncation_of_finish {reader : Reader} {cause : Cause} (h : reader.finish = .error cause) :
    cause.isTruncation = true := by
  have hbetween : ∀ {reader : Reader}, finishBetween reader = .error cause →
      cause.isTruncation = true := by
    intro reader h
    cases reader <;> cases h <;> rfl
  unfold finish at h
  split at h
  · split_ifs at h
    · exact hbetween h
    · cases h
      rfl
  · exact hbetween h

/-! ## Runs that fail -/

/-- A fault lies behind a part of the text, and behind the whole text if it is a truncation. -/
theorem position_of_run {reader : Reader} {read text : List UInt8} {what : Malformed}
    (h : reader.run (.behind read) text = .error what) :
    ∃ more later, text = more ++ later ∧
      what.position = what.cause.placedAt (.behind (read ++ more)) ∧
      (what.cause.isTruncation → later = []) := by
  induction text generalizing reader read with
  | nil =>
    rw [run] at h
    cases hfinish : reader.finish with
    | ok document => rw [hfinish] at h; cases h
    | error cause =>
      rw [hfinish] at h
      cases h
      exact ⟨[], [], rfl, by rw [List.append_nil], fun _ => rfl⟩
  | cons byte rest ih =>
    rw [run] at h
    cases hnext : reader.next byte with
    | ok next =>
      rw [hnext] at h
      simp only [← Position.behind_append] at h
      obtain ⟨more, later, rfl, hposition, hlater⟩ := ih h
      refine ⟨byte :: more, later, rfl, ?_, hlater⟩
      rw [hposition, List.append_assoc]
      rfl
    | error cause =>
      rw [hnext] at h
      simp only [← Position.behind_append] at h
      cases h
      refine ⟨[byte], rest, rfl, rfl, fun htruncation => ?_⟩
      rw [refusal_of_next hnext] at htruncation
      cases htruncation

/-- What follows a byte that was refused changes nothing. -/
theorem run_append {reader : Reader} {place : Position} {text : List UInt8} {what : Malformed}
    (h : reader.run place text = .error what) (hcause : what.cause.isTruncation = false)
    (suffix : List UInt8) : reader.run place (text ++ suffix) = .error what := by
  induction text generalizing reader place with
  | nil =>
    rw [run] at h
    cases hfinish : reader.finish with
    | ok document => rw [hfinish] at h; cases h
    | error cause =>
      rw [hfinish] at h
      cases h
      rw [truncation_of_finish hfinish] at hcause
      cases hcause
  | cons byte rest ih =>
    rw [List.cons_append]
    rw [run] at h ⊢
    split at h
    · exact ih h
    · exact h

/-! ## Complete documents that go on -/

/-- The document is complete and of the given kind. -/
def EndsAs (kind : Kind) : Reader → Prop
  | .ended document => document.kind = kind
  | .inNumber _ [] => kind = .number
  | _ => False

theorem endsAs_of_finish {reader : Reader} {document : Json} (h : reader.finish = .ok document) :
    reader.EndsAs document.kind := by
  cases reader with
  | ended found => cases h; rfl
  | inNumber numeral outer =>
    simp only [finish] at h
    split_ifs at h
    cases outer with
    | nil => cases h; rfl
    | cons frame outer => cases frame <;> cases h
  | _ => cases h

theorem EndsAs.kind_eq {reader : Reader} {kind : Kind} {document : Json} (h : reader.EndsAs kind)
    (hfinish : reader.finish = .ok document) : document.kind = kind := by
  have hends := endsAs_of_finish hfinish
  cases reader with
  | ended found => exact hends.symm.trans h
  | inNumber numeral outer =>
    cases outer with
    | nil => exact Eq.trans hends (Eq.symm h)
    | cons frame outer => cases h
  | _ => cases h

/-- Only blanks follow a document that has ended. -/
theorem eq_of_outside_ended {document : Json} {byte : UInt8} {next : Reader}
    (h : outside (.ended document) byte = .ok next) : next = .ended document := by
  unfold outside at h
  split_ifs at h
  · exact (Except.ok.inj h).symm
  · cases h

theorem EndsAs.next {reader next : Reader} {kind : Kind} {byte : UInt8} (h : reader.EndsAs kind)
    (hnext : reader.next byte = .ok next) : next.EndsAs kind := by
  cases reader with
  | ended document =>
    rw [eq_of_outside_ended hnext]
    exact h
  | inNumber numeral outer =>
    cases outer with
    | cons frame outer => cases h
    | nil =>
      simp only [Reader.next] at hnext
      split at hnext
      · cases hnext
        exact h
      · rw [eq_of_outside_ended hnext]
        exact Eq.symm h
      · cases hnext
  | _ => cases h

theorem EndsAs.kind_of_run {reader : Reader} {kind : Kind} {place : Position} {text : List UInt8}
    {document : Json} (h : reader.EndsAs kind) (hrun : reader.run place text = .ok document) :
    document.kind = kind := by
  induction text generalizing reader place with
  | nil =>
    rw [run] at hrun
    cases hfinish : reader.finish with
    | ok found =>
      rw [hfinish] at hrun
      cases hrun
      exact h.kind_eq hfinish
    | error cause => rw [hfinish] at hrun; cases hrun
  | cons byte rest ih =>
    rw [run] at hrun
    split at hrun
    · rename_i hnext
      exact ih (h.next hnext) hrun
    · cases hrun

/-- A document that begins with a complete document is of the same kind. -/
theorem kind_of_run_append {reader : Reader} {place : Position} {text suffix : List UInt8}
    {document longer : Json} (h : reader.run place text = .ok document)
    (hlonger : reader.run place (text ++ suffix) = .ok longer) : longer.kind = document.kind := by
  induction text generalizing reader place with
  | nil =>
    rw [run] at h
    cases hfinish : reader.finish with
    | ok found =>
      rw [hfinish] at h
      cases h
      exact (endsAs_of_finish hfinish).kind_of_run hlonger
    | error cause => rw [hfinish] at h; cases h
  | cons byte rest ih =>
    rw [List.cons_append, run] at hlonger
    rw [run] at h
    split at h
    · rename_i hnext
      rw [hnext] at hlonger
      exact ih h hlonger
    · cases h

end Reader

end Json

/-! ## Samples -/

namespace Schema

variable {rootName : String} {sample : List UInt8}

/-- A malformed sample is one that is no JSON. -/
theorem ofSample_eq_malformed {what : Json.Malformed} :
    ofSample rootName sample = .error (.malformed what) ↔ Json.parse sample = .error what := by
  unfold ofSample
  split
  · rename_i json hparse
    rw [hparse]
    refine iff_of_false (fun h => ?_) nofun
    cases hinfer : infer? rootName json <;> rw [hinfer] at h <;> cases h
  · rename_i found hparse
    rw [hparse]
    simp

/-- What a sample comes to, when one that begins with it is accepted: it is accepted too, or it is
no JSON. -/
theorem ofSample_of_append {suffix : List UInt8} {schema : Schema}
    (h : ofSample rootName (sample ++ suffix) = .ok schema) :
    (∃ earlier, ofSample rootName sample = .ok earlier) ∨
      ∃ what, ofSample rootName sample = .error (.malformed what) := by
  obtain ⟨members, hlonger, rfl⟩ := ofSample_eq_ok.mp h
  cases hparse : Json.parse sample with
  | error what => exact .inr ⟨what, ofSample_eq_malformed.mpr hparse⟩
  | ok document =>
    -- the shorter document is an object as the longer one is
    have hkind := Json.Reader.kind_of_run_append hparse hlonger
    cases document with
    | object shorter => exact .inl ⟨_, ofSample_eq_ok.mpr ⟨shorter, hparse, rfl⟩⟩
    | _ => cases hkind

/-- Every fault of a sample lies at one of its offsets, a truncation at the last one, and what is
no truncation stays as it is whatever follows. A beginning of an accepted sample is accepted, or
its fault is a truncation. -/
theorem diagnostics_of_ofSample (rootName : String) (sample : List UInt8) :
    (∀ what, ofSample rootName sample = .error (.malformed what) →
      (∃ offset ≤ sample.length, what.position = Json.Position.ofOffset sample offset) ∧
      (what.cause.isTruncation →
        what.position = Json.Position.ofOffset sample sample.length) ∧
      (what.cause.isTruncation = false → ∀ suffix,
        ofSample rootName (sample ++ suffix) = .error (.malformed what))) ∧
    (∀ schema, ofSample rootName sample = .ok schema → ∀ beginning, beginning <+: sample →
      (∃ earlier, ofSample rootName beginning = .ok earlier) ∨
        ∃ what, ofSample rootName beginning = .error (.malformed what) ∧
          what.cause.isTruncation = true) := by
  constructor
  · intro what h
    have hrun : Json.Reader.start.run (.behind []) sample = .error what :=
      ofSample_eq_malformed.mp h
    obtain ⟨read, later, rfl, hposition, hlater⟩ := Json.Reader.position_of_run hrun
    refine ⟨?_, fun htruncation => ?_, fun hrefusal suffix => ?_⟩
    · obtain ⟨offset, hoffset, hplace⟩ := what.cause.placedAt_behind read
      refine ⟨offset, hoffset.trans (by simp), ?_⟩
      rw [hposition, Json.Position.ofOffset_append hoffset]
      exact hplace
    · obtain rfl := hlater htruncation
      rw [hposition, Json.Cause.placedAt_of_isTruncation htruncation, List.append_nil]
      exact Json.Position.behind_eq_ofOffset read
    · exact ofSample_eq_malformed.mpr (Json.Reader.run_append hrun hrefusal suffix)
  · rintro schema h beginning ⟨suffix, rfl⟩
    rcases ofSample_of_append h with hearlier | ⟨what, hwhat⟩
    · exact .inl hearlier
    · refine .inr ⟨what, hwhat, ?_⟩
      -- a refusal would stay
      by_contra hrefusal
      have hlonger := Json.Reader.run_append (ofSample_eq_malformed.mp hwhat)
        (Bool.eq_false_of_not_eq_true hrefusal) suffix
      rw [ofSample_eq_malformed.mpr hlonger] at h
      cases h

/-- An object whose key, in the second line, breaks off within a character. -/
def brokenKey : List UInt8 := [0x7B, 0x0A, 0x22, 0x61, 0xC3, 0x22]

/-- The fault of the broken key: one byte of it is left over. -/
def brokenKeyFault : Json.Malformed := ⟨.invalidCodePoint 1, ⟨2, 3⟩⟩

theorem diagnostics_of_ofSample_brokenKey :
    ofSample "X" brokenKey = .error (.malformed brokenKeyFault) ∧
      (∃ offset ≤ 6, brokenKeyFault.position = Json.Position.ofOffset brokenKey offset) ∧
      ∀ suffix, ofSample "X" (brokenKey ++ suffix) = .error (.malformed brokenKeyFault) := by
  have hparse : Json.parse brokenKey = .error brokenKeyFault := by with_unfolding_all rfl
  have hsample : ofSample "X" brokenKey = .error (.malformed brokenKeyFault) :=
    ofSample_eq_malformed.mpr hparse
  obtain ⟨hoffset, _, hfinal⟩ := (diagnostics_of_ofSample "X" brokenKey).1 _ hsample
  exact ⟨hsample, hoffset, hfinal rfl⟩

end Schema

end StructSketch
