import StructSketch.Proofs.Grammar.Numbers
import StructSketch.Proofs.Grammar.QuotedTexts
import StructSketch.Proofs.Grammar.Reading
import StructSketch.Proofs.Grammar.Trees

/-!
# What is read is allowed by the grammar

* **`Grammar.Opened`**: the text in front of a value, as the open containers tell it.
* **`Reader.Traces`**: the text that was read, as the state of the reader tells it: a case for each
  state.
* **`Reader.Traces.next`** and **`Reader.Traces.reads`**: each byte keeps this, and so does a whole
  text. The innermost container takes a value that has ended (`Reader.traces_settle`).
* **`Grammar.exists_document`**: so what is read is a document of the grammar, and is read as its
  tree unless one of its objects stands for a number.
-/

namespace StructSketch.Json

namespace Grammar

theorem blanks_nil : Blanks [] := fun _ h => by cases h

theorem blanks_append {text : List UInt8} {byte : UInt8} (h : Blanks text)
    (hbyte : isBlank byte = true) : Blanks (text ++ [byte]) :=
  List.forall_mem_append.mpr ⟨h, List.forall_mem_singleton.mpr (isBlank_iff.mp hbyte)⟩

/-! ## Blanks at the end -/

theorem Element.append {text : List UInt8} {tree : Json} {byte : UInt8} (h : Element text tree)
    (hbyte : isBlank byte = true) : Element (text ++ [byte]) tree := by
  cases h with
  | padded hbefore hvalue hafter =>
    rw [List.append_assoc, List.append_assoc]
    exact .padded hbefore hvalue (blanks_append hafter hbyte)

theorem Elements.append {text : List UInt8} {items : List Json} {byte : UInt8}
    (h : Elements text items) (hbyte : isBlank byte = true) : Elements (text ++ [byte]) items := by
  cases h with
  | one h => exact .one (h.append hbyte)
  | more h hlast =>
    rw [List.append_assoc, List.cons_append]
    exact .more h (hlast.append hbyte)

theorem Member.append {text : List UInt8} {member : String × Json} {byte : UInt8}
    (h : Member text member) (hbyte : isBlank byte = true) : Member (text ++ [byte]) member := by
  cases h with
  | pair hbefore hkey hafter hvalue =>
    rw [List.append_assoc, List.append_assoc, List.append_assoc, List.cons_append]
    exact .pair hbefore hkey hafter (hvalue.append hbyte)

theorem Members.append {text : List UInt8} {members : List (String × Json)} {byte : UInt8}
    (h : Members text members) (hbyte : isBlank byte = true) :
    Members (text ++ [byte]) members := by
  cases h with
  | one h => exact .one (h.append hbyte)
  | more h hlast =>
    rw [List.append_assoc, List.cons_append]
    exact .more h (hlast.append hbyte)

/-! ## Texts in front of a value -/

/-- The items in front of an item: none, or some with a comma behind them. -/
inductive ItemsBefore : List UInt8 → List Json → Prop
  | none : ItemsBefore [] []
  | comma {text : List UInt8} {items : List Json} : Elements text items →
      ItemsBefore (text ++ [0x2C]) items

theorem ItemsBefore.element {text last : List UInt8} {items : List Json} {item : Json}
    (h : ItemsBefore text items) (hlast : Element last item) :
    Elements (text ++ last) (items ++ [item]) := by
  cases h with
  | none => exact .one hlast
  | comma h =>
    rw [List.append_assoc]
    exact .more h hlast

/-- The members in front of a member: none, or some with a comma behind them. -/
inductive MembersBefore : List UInt8 → List (String × Json) → Prop
  | none : MembersBefore [] []
  | comma {text : List UInt8} {members : List (String × Json)} : Members text members →
      MembersBefore (text ++ [0x2C]) members

/-- The members in front of a member, and its key with the colon. -/
inductive KeyBefore : List UInt8 → List (String × Json) → String → Prop
  | colon {text before key after : List UInt8} {members : List (String × Json)} {name : String} :
      MembersBefore text members → Blanks before → Quoted key name → Blanks after →
      KeyBefore (text ++ (before ++ (key ++ (after ++ [0x3A])))) members name

theorem KeyBefore.element {text last : List UInt8} {members : List (String × Json)}
    {name : String} {tree : Json} (h : KeyBefore text members name) (hlast : Element last tree) :
    Members (text ++ last) (members ++ [(name, tree)]) := by
  cases h with
  | colon hmembers hbefore hkey hafter =>
    have hmember := Member.pair hbefore hkey hafter hlast
    cases hmembers with
    | none => simpa using Members.one hmember
    | comma hmembers => simpa using Members.more hmembers hmember

/-- The text in front of a value, with the blanks there, as the open containers tell it. -/
inductive Opened : List UInt8 → List Frame → Prop
  | document {blanks : List UInt8} : Blanks blanks → Opened blanks []
  | item {before inner blanks : List UInt8} {outer : List Frame} {trees items : List Json} :
      Opened before outer → ItemsBefore inner trees →
      (array trees).ReadsAs (.array items.reverse) → Blanks blanks →
      Opened (before ++ 0x5B :: (inner ++ blanks)) (.item items :: outer)
  | member {before inner blanks : List UInt8} {outer : List Frame}
      {trees members : List (String × Json)} {key : String} :
      Opened before outer → KeyBefore inner trees key → KeptFrom trees members → Blanks blanks →
      Opened (before ++ 0x7B :: (inner ++ blanks)) (.member members key :: outer)
  | tagged {before inner blanks : List UInt8} {outer : List Frame} :
      Opened before outer → KeyBefore inner [] numberTag → Blanks blanks →
      Opened (before ++ 0x7B :: (inner ++ blanks)) (.tagged :: outer)

theorem Opened.append {text : List UInt8} {outer : List Frame} {byte : UInt8}
    (h : Opened text outer) (hbyte : isBlank byte = true) : Opened (text ++ [byte]) outer := by
  cases h with
  | document hblanks => exact .document (blanks_append hblanks hbyte)
  | item houter hitems hreads hblanks =>
    rw [List.append_assoc, List.cons_append, List.append_assoc]
    exact .item houter hitems hreads (blanks_append hblanks hbyte)
  | member houter hkey hkept hblanks =>
    rw [List.append_assoc, List.cons_append, List.append_assoc]
    exact .member houter hkey hkept (blanks_append hblanks hbyte)
  | tagged houter hkey hblanks =>
    rw [List.append_assoc, List.cons_append, List.append_assoc]
    exact .tagged houter hkey (blanks_append hblanks hbyte)

end Grammar

namespace Reader

open Grammar

/-- The text that was read, as the state of the reader tells it. -/
inductive Traces : List UInt8 → Reader → Prop
  | beforeValue {text : List UInt8} {outer : List Frame} : Opened text outer →
      Traces text (.beforeValue outer)
  | beforeFirstItem {before blanks : List UInt8} {outer : List Frame} : Opened before outer →
      Blanks blanks → Traces (before ++ 0x5B :: blanks) (.beforeFirstItem outer)
  | afterItem {before inner : List UInt8} {outer : List Frame} {trees items : List Json} :
      Opened before outer → Elements inner trees → (array trees).ReadsAs (.array items.reverse) →
      Traces (before ++ 0x5B :: inner) (.afterItem items outer)
  | beforeItem {text : List UInt8} {outer : List Frame} {items : List Json} :
      Opened text (.item items :: outer) → Traces text (.beforeItem items outer)
  | beforeFirstKey {before blanks : List UInt8} {outer : List Frame} : Opened before outer →
      Blanks blanks → Traces (before ++ 0x7B :: blanks) (.beforeFirstKey outer)
  | inKey {before inner blanks spelled : List UInt8} {outer : List Frame}
      {trees members : List (String × Json)} {quoted : Json.Quoted} : Opened before outer →
      MembersBefore inner trees → KeptFrom trees members → Blanks blanks →
      quoted.Holds spelled →
      Traces (before ++ 0x7B :: (inner ++ (blanks ++ 0x22 :: spelled)))
        (.inKey members quoted outer)
  | afterKey {before inner blanks spelled after : List UInt8} {outer : List Frame}
      {trees members : List (String × Json)} {key : String} : Opened before outer →
      MembersBefore inner trees → KeptFrom trees members → Blanks blanks →
      Grammar.Quoted spelled key → Blanks after →
      Traces (before ++ 0x7B :: (inner ++ (blanks ++ (spelled ++ after))))
        (.afterKey members key outer)
  | afterMember {before inner : List UInt8} {outer : List Frame}
      {trees members : List (String × Json)} : Opened before outer → Members inner trees →
      KeptFrom trees members → Traces (before ++ 0x7B :: inner) (.afterMember members outer)
  | beforeKey {before inner blanks : List UInt8} {outer : List Frame}
      {trees members : List (String × Json)} : Opened before outer → MembersBefore inner trees →
      KeptFrom trees members → Blanks blanks →
      Traces (before ++ 0x7B :: (inner ++ blanks)) (.beforeKey members outer)
  | inWord {before read left : List UInt8} {outer : List Frame} {meaning : Json} :
      Opened before outer → Value (read ++ left) meaning → meaning.ReadsAs meaning →
      Traces (before ++ read) (.inWord left meaning outer)
  | inNumber {before : List UInt8} {outer : List Frame} {numeral : Numeral} :
      Opened before outer → numeral.IsBegun →
      Traces (before ++ numeral.read.reverse) (.inNumber numeral outer)
  | inText {before spelled : List UInt8} {outer : List Frame} {quoted : Json.Quoted} :
      Opened before outer → quoted.Holds spelled →
      Traces (before ++ 0x22 :: spelled) (.inText quoted outer)
  | afterTagged {before inner : List UInt8} {outer : List Frame} {tree : Json}
      {literal : String} : Opened before outer → Members inner [(numberTag, tree)] →
      Traces (before ++ 0x7B :: inner) (.afterTagged literal outer)
  | mistagged {text : List UInt8} : Traces text .mistagged
  | ended {text : List UInt8} {tree document : Json} : Document text tree →
      tree.ReadsAs document → Traces text (.ended document)

theorem traces_start : Traces [] start := .beforeValue (.document blanks_nil)

/-- The innermost container takes a value that has ended. -/
theorem traces_settle {before text : List UInt8} {outer : List Frame} {tree value : Json}
    (houter : Opened before outer) (hvalue : Value text tree) (htree : tree.ReadsAs value) :
    Traces (before ++ text) (settle value outer) := by
  have helement : ∀ {blanks}, Blanks blanks → Element (blanks ++ text) tree := by
    intro blanks hblanks
    simpa using Element.padded hblanks hvalue blanks_nil
  cases houter with
  | document hblanks => exact .ended (helement hblanks) htree
  | item houter hitems hreads hblanks =>
    have hall := hitems.element (helement hblanks)
    rw [List.append_assoc, List.cons_append, List.append_assoc]
    refine .afterItem houter hall ?_
    rw [List.reverse_cons]
    exact hreads.array_append htree
  | member houter hkey hkept hblanks =>
    have hall := hkey.element (helement hblanks)
    rw [List.append_assoc, List.cons_append, List.append_assoc]
    exact .afterMember houter hall (hkept.append htree)
  | tagged houter hkey hblanks =>
    have hall := hkey.element (helement hblanks)
    simp only [settle]
    split
    · split
      · rw [List.append_assoc, List.cons_append, List.append_assoc]
        exact .afterTagged houter hall
      · exact .mistagged
    · exact .mistagged

theorem traces_begin {text : List UInt8} {outer : List Frame} {byte : UInt8} {reader : Reader}
    (h : Opened text outer) (hbegin : begin outer byte = .ok reader) :
    Traces (text ++ [byte]) reader := by
  unfold begin at hbegin
  split_ifs at hbegin with hquote harray hobject
  · cases hbegin
    rw [hquote]
    exact .inText h Quoted.holds_start
  · cases hbegin
    rw [harray]
    exact .beforeFirstItem h blanks_nil
  · cases hbegin
    rw [hobject]
    exact .beforeFirstKey h blanks_nil
  · split at hbegin
    · rename_i left meaning hword
      cases hbegin
      unfold word? at hword
      split_ifs at hword with ht hf hn <;> cases hword
      · rw [ht]
        exact .inWord h .trueWord fun _ => rfl
      · rw [hf]
        exact .inWord h .falseWord fun _ => rfl
      · rw [hn]
        exact .inWord h .nullWord fun _ => rfl
    · rename_i numeral _ hnumeral
      cases hbegin
      obtain ⟨hbegun, hread⟩ := Numeral.isBegun_of_begin? hnumeral
      have htraces := Traces.inNumber h hbegun
      rwa [hread] at htraces
    · cases hbegin

/-- A number that may end is taken as its literal. -/
theorem traces_number {before : List UInt8} {outer : List Frame} {numeral : Numeral}
    (h : Opened before outer) (hbegun : numeral.IsBegun) (hcomplete : numeral.isComplete = true) :
    Traces (before ++ numeral.read.reverse) (settle (.number numeral.literal) outer) := by
  obtain ⟨hnumber, hbytes⟩ := hbegun.number hcomplete
  rw [← hbytes]
  exact traces_settle h (.number hnumber) fun _ => rfl

/-- A blank between two tokens changes nothing. -/
theorem Traces.blank {text : List UInt8} {reader : Reader} {byte : UInt8} (h : Traces text reader)
    (hbetween : reader.IsBetween) (hbyte : isBlank byte = true) :
    Traces (text ++ [byte]) reader := by
  cases h with
  | beforeValue h => exact .beforeValue (h.append hbyte)
  | beforeFirstItem h hblanks =>
    rw [List.append_assoc]
    exact .beforeFirstItem h (blanks_append hblanks hbyte)
  | afterItem h hitems hreads =>
    rw [List.append_assoc]
    exact .afterItem h (hitems.append hbyte) hreads
  | beforeItem h => exact .beforeItem (h.append hbyte)
  | beforeFirstKey h hblanks =>
    rw [List.append_assoc]
    exact .beforeFirstKey h (blanks_append hblanks hbyte)
  | afterKey h hmembers hkept hblanks hkey hafter =>
    rw [List.append_assoc, List.cons_append, List.append_assoc, List.append_assoc,
      List.append_assoc]
    exact .afterKey h hmembers hkept hblanks hkey (blanks_append hafter hbyte)
  | afterMember h hmembers hkept =>
    rw [List.append_assoc]
    exact .afterMember h (hmembers.append hbyte) hkept
  | beforeKey h hmembers hkept hblanks =>
    rw [List.append_assoc, List.cons_append, List.append_assoc]
    exact .beforeKey h hmembers hkept (blanks_append hblanks hbyte)
  | afterTagged h hmembers =>
    rw [List.append_assoc]
    exact .afterTagged h (hmembers.append hbyte)
  | mistagged => exact .mistagged
  | ended h htree => exact .ended (Element.append h hbyte) htree
  | inKey | inWord | inNumber | inText => cases hbetween

/-- Behind a key and its colon a value must come, or the text of a number. -/
theorem traces_colon {before inner blanks spelled after : List UInt8} {outer : List Frame}
    {trees members : List (String × Json)} {key : String} (h : Opened before outer)
    (hmembers : MembersBefore inner trees) (hkept : KeptFrom trees members)
    (hblanks : Blanks blanks) (hkey : Grammar.Quoted spelled key) (hafter : Blanks after)
    {reader : Reader} (hreader : between (.afterKey members key outer) 0x3A = .ok reader) :
    Traces (before ++ 0x7B :: (inner ++ (blanks ++ (spelled ++ after))) ++ [0x3A]) reader := by
  have hcolon := KeyBefore.colon hmembers hblanks hkey hafter
  simp only [between, if_true] at hreader
  split_ifs at hreader with htag <;> cases hreader
  · obtain ⟨hempty, rfl⟩ := htag
    obtain rfl := hkept.nil (List.isEmpty_iff.mp hempty)
    have hopened := Opened.tagged h hcolon blanks_nil
    simpa using Traces.beforeValue hopened
  · have hopened := Opened.member h hcolon hkept blanks_nil
    simpa using Traces.beforeValue hopened

/-- A byte between two tokens keeps the trace, one case for each state. -/
theorem Traces.between {text : List UInt8} {reader reader' : Reader} {byte : UInt8}
    (h : Traces text reader) (hbetween : reader.IsBetween)
    (hreader : between reader byte = .ok reader') : Traces (text ++ [byte]) reader' := by
  cases h with
  | beforeValue h => exact traces_begin h hreader
  | beforeFirstItem h hblanks =>
    simp only [Reader.between] at hreader
    split_ifs at hreader with hend
    · cases hreader
      rw [hend, List.append_assoc]
      exact traces_settle h (.emptyArray hblanks) fun _ => rfl
    · exact traces_begin (.item h .none (fun _ => rfl) hblanks) hreader
  | @afterItem before inner _ _ _ h hitems hreads =>
    simp only [Reader.between] at hreader
    split_ifs at hreader with hcomma hend <;> cases hreader
    · have hopened := Opened.item h (.comma hitems) hreads blanks_nil
      rw [hcomma, List.append_assoc]
      simpa using Traces.beforeItem hopened
    · rw [hend, List.append_assoc]
      exact traces_settle h (.array hitems) hreads
  | beforeItem h =>
    simp only [Reader.between] at hreader
    split_ifs at hreader
    exact traces_begin h hreader
  | beforeFirstKey h hblanks =>
    simp only [Reader.between] at hreader
    split_ifs at hreader with hend hquote <;> cases hreader
    · rw [hend, List.append_assoc]
      exact traces_settle h (.emptyObject hblanks) fun _ => rfl
    · rw [hquote, List.append_assoc]
      exact .inKey h .none keptFrom_nil hblanks Quoted.holds_start
  | afterKey h hmembers hkept hblanks hkey hafter =>
    have hcolon : byte = 0x3A := by
      by_contra hcolon
      rw [Reader.between, if_neg hcolon] at hreader
      cases hreader
    subst hcolon
    exact traces_colon h hmembers hkept hblanks hkey hafter hreader
  | afterMember h hmembers hkept =>
    simp only [Reader.between] at hreader
    split_ifs at hreader with hcomma hend <;> cases hreader
    · rw [hcomma, List.append_assoc]
      simpa using Traces.beforeKey h (.comma hmembers) hkept blanks_nil
    · rw [hend, List.append_assoc]
      exact traces_settle h (.object hmembers) hkept.readsAs
  | beforeKey h hmembers hkept hblanks =>
    simp only [Reader.between] at hreader
    split_ifs at hreader with hend hquote
    cases hreader
    rw [hquote]
    simpa using Traces.inKey h hmembers hkept hblanks Quoted.holds_start
  | afterTagged h hmembers =>
    simp only [Reader.between] at hreader
    split_ifs at hreader with hend
    cases hreader
    rw [hend, List.append_assoc]
    exact traces_settle h (.object hmembers) (readsAs_tagged _ _)
  | mistagged => cases hreader
  | ended => cases hreader
  | inKey | inWord | inNumber | inText => cases hbetween

theorem Traces.outside {text : List UInt8} {reader reader' : Reader} {byte : UInt8}
    (h : Traces text reader) (hbetween : reader.IsBetween)
    (hreader : outside reader byte = .ok reader') : Traces (text ++ [byte]) reader' := by
  unfold Reader.outside at hreader
  split at hreader
  · rename_i hbyte
    cases hreader
    exact h.blank hbetween hbyte
  · exact h.between hbetween hreader

/-- Each byte keeps the trace. -/
theorem Traces.next {text : List UInt8} {reader reader' : Reader} {byte : UInt8}
    (h : Traces text reader) (hreader : reader.next byte = .ok reader') :
    Traces (text ++ [byte]) reader' := by
  by_cases hbetween : reader.IsBetween
  · rw [hbetween.next] at hreader
    exact h.outside hbetween hreader
  cases h with
  | @inKey _ _ _ _ _ _ _ quoted h hmembers hkept hblanks hheld =>
    rw [Reader.next] at hreader
    cases hquoted : quoted.next byte with
    | error cause =>
      rw [hquoted] at hreader
      cases hreader
    | ok progress =>
      rw [hquoted] at hreader
      cases progress with
      | more quoted =>
        cases hreader
        simpa using Traces.inKey h hmembers hkept hblanks (hheld.next hquoted)
      | done key =>
        cases hreader
        simpa using Traces.afterKey h hmembers hkept hblanks (hheld.quoted hquoted) blanks_nil
  | @inText _ _ _ quoted h hheld =>
    rw [Reader.next] at hreader
    cases hquoted : quoted.next byte with
    | error cause =>
      rw [hquoted] at hreader
      cases hreader
    | ok progress =>
      rw [hquoted] at hreader
      cases progress with
      | more quoted =>
        cases hreader
        simpa using Traces.inText h (hheld.next hquoted)
      | done content =>
        cases hreader
        rw [List.append_assoc]
        exact traces_settle h (.string (hheld.quoted hquoted)) fun _ => rfl
  | @inWord _ read left _ _ h hvalue hmeaning =>
    match left with
    | [] =>
      rw [List.append_nil] at hvalue
      exact (traces_settle h hvalue hmeaning).outside (isBetween_settle _ _) hreader
    | [last] =>
      simp only [Reader.next] at hreader
      split_ifs at hreader with hbyte
      cases hreader
      rw [hbyte, List.append_assoc]
      exact traces_settle h hvalue hmeaning
    | letter :: letter' :: left =>
      simp only [Reader.next] at hreader
      split_ifs at hreader with hbyte
      cases hreader
      rw [hbyte, List.append_assoc]
      exact .inWord h (by rwa [List.append_assoc]) hmeaning
  | @inNumber before _ numeral h hbegun =>
    rw [Reader.next] at hreader
    split at hreader
    · rename_i numeral' hnumeral
      cases hreader
      obtain ⟨hbegun', hread⟩ := hbegun.next hnumeral
      have htraces := Traces.inNumber h hbegun'
      rw [hread, List.reverse_cons] at htraces
      rwa [List.append_assoc]
    · rename_i hnumeral
      have hsettled := traces_number h hbegun (Numeral.isComplete_of_next hnumeral)
      exact hsettled.outside (isBetween_settle _ _) hreader
    · cases hreader
  | _ => exact absurd trivial hbetween

/-- A document ends where its value has ended. -/
theorem Traces.finishBetween {text : List UInt8} {reader : Reader} {document : Json}
    (h : Traces text reader) (hdocument : finishBetween reader = .ok document) :
    ∃ tree, Document text tree ∧ tree.ReadsAs document := by
  cases h with
  | ended h htree =>
    cases hdocument
    exact ⟨_, h, htree⟩
  | _ => cases hdocument

theorem Traces.finish {text : List UInt8} {reader : Reader} {document : Json}
    (h : Traces text reader) (hdocument : reader.finish = .ok document) :
    ∃ tree, Document text tree ∧ tree.ReadsAs document := by
  by_cases hbetween : reader.IsBetween
  · rw [hbetween.finish] at hdocument
    exact h.finishBetween hdocument
  cases h with
  | inNumber h hbegun =>
    rw [Reader.finish] at hdocument
    split_ifs at hdocument with hcomplete
    exact (traces_number h hbegun hcomplete).finishBetween hdocument
  | inKey | inText | inWord => cases hdocument
  | _ => exact absurd trivial hbetween

/-- What a reader takes to the end completes what it has read to a document. -/
theorem Traces.reads {text rest : List UInt8} {reader : Reader} {document : Json}
    (h : Traces text reader) (hdocument : reader.reads rest = .ok document) :
    ∃ tree, Document (text ++ rest) tree ∧ tree.ReadsAs document := by
  induction rest generalizing text reader with
  | nil =>
    rw [List.append_nil]
    exact h.finish hdocument
  | cons byte rest ih =>
    rw [Reader.reads] at hdocument
    split at hdocument
    · rename_i reader' hreader
      have hrest := ih (h.next hreader) hdocument
      rwa [List.append_assoc] at hrest
    · cases hdocument

end Reader

/-- What is read is a document of the grammar. -/
theorem Grammar.exists_document {text : List UInt8} {document : Json}
    (h : parse text = .ok document) : ∃ tree, Document text tree ∧ tree.ReadsAs document :=
  Reader.traces_start.reads (Reader.run_eq_ok.mp h)

end StructSketch.Json
