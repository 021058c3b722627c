import StructSketch.Json.Reader
import StructSketch.Proofs.Grammar.Numbers
import StructSketch.Proofs.WellKeyed

/-!
# What is read is well formed

* **`Json.WellFormed`**: no object at any depth has a key twice, and every number has a literal of
  the grammar.
* **`Reader.WellFormed`**: the values in the hands of a reader are well formed, and a literal that
  it is reading can still become one of the grammar.
* **`Reader.wellFormed_next`** and **`Reader.wellFormed_run`**: each byte that is read keeps this.
* **`Json.wellFormed_of_parse`**: so every document that is read is well formed, however often the
  text repeats a key, and whether a number is spelled as a literal or as a tagged object.
-/

namespace StructSketch.Json

open Grammar (Number)

/-- No object of a value has a key twice, and its numbers have literals of the grammar. -/
inductive WellFormed : Json → Prop
  | null : WellFormed .null
  | boolean {value} : WellFormed (.boolean value)
  | number {literal} : Number (Text.bytes literal) → WellFormed (.number literal)
  | string {text} : WellFormed (.string text)
  | array {items} : (∀ item ∈ items, WellFormed item) → WellFormed (.array items)
  | object {members : List (String × Json)} : (members.map Prod.fst).Nodup →
      (∀ member ∈ members, WellFormed member.2) → WellFormed (.object members)

theorem WellFormed.wellKeyed {value : Json} (h : value.WellFormed) : value.WellKeyed := by
  induction h with
  | null => exact .null
  | boolean => exact .boolean
  | number _ => exact .number
  | string => exact .string
  | array _ ih => exact .array ih
  | object hkeys _ ih => exact .object hkeys ih

theorem WellFormed.put {key : String} {value : Json} {members : List (String × Json)}
    (hvalue : value.WellFormed) (hmembers : (Json.object members).WellFormed) :
    (Json.object (Json.put key value members)).WellFormed := by
  cases hmembers with | object hkeys hvalues
  refine .object (Keyed.nodup_keys_put hkeys) ?_
  intro member hmember
  rcases Keyed.mem_of_mem_put hmember with rfl | hmember
  · exact hvalue
  · exact hvalues member hmember

/-- What stands in an open container is well formed. -/
def Frame.WellFormed : Frame → Prop
  | .item items => ∀ item ∈ items, item.WellFormed
  | .member members _ => (Json.object members).WellFormed
  | .tagged => True

namespace Reader

/-- The values that a reader has in hand, in their open containers. -/
def inHand : Reader → List Frame
  | .beforeValue outer | .beforeFirstItem outer | .beforeFirstKey outer | .inNumber _ outer
  | .inText _ outer => outer
  | .afterItem items outer | .beforeItem items outer => .item items :: outer
  | .inKey members _ outer | .afterKey members _ outer | .afterMember members outer
  | .beforeKey members outer => .member members "" :: outer
  | .inWord _ meaning outer => .item [meaning] :: outer
  | .afterTagged literal outer => .item [.number literal] :: outer
  | .mistagged => []
  | .ended document => [.item [document]]

/-- What a reader has in hand is well formed, and the literal that it is reading is the beginning
of one. -/
def WellFormed : Reader → Prop
  | .inNumber numeral outer => numeral.IsBegun ∧ ∀ frame ∈ outer, frame.WellFormed
  | reader => ∀ frame ∈ reader.inHand, frame.WellFormed

theorem wellFormed_start : start.WellFormed := by
  intro frame hframe
  cases hframe

theorem wellFormed_mistagged : mistagged.WellFormed := by
  intro frame hframe
  cases hframe

/-- Settling a well-formed value keeps what is in hand well formed. -/
theorem wellFormed_settle {value : Json} {outer : List Frame} (hvalue : value.WellFormed)
    (houter : ∀ frame ∈ outer, frame.WellFormed) : (settle value outer).WellFormed := by
  cases outer with
  | nil => exact List.forall_mem_singleton.mpr (List.forall_mem_singleton.mpr hvalue)
  | cons frame outer =>
    -- the value goes into the innermost open container
    obtain ⟨hframe, hrest⟩ := List.forall_mem_cons.mp houter
    cases frame with
    | item items =>
      exact List.forall_mem_cons.mpr ⟨List.forall_mem_cons.mpr ⟨hvalue, hframe⟩, hrest⟩
    | member members key => exact List.forall_mem_cons.mpr ⟨hvalue.put hframe, hrest⟩
    | tagged =>
      cases value with
      | string literal =>
        simp only [settle]
        split
        · rename_i hliteral
          have hnumber := WellFormed.number (Numeral.isLiteral_iff_number.mp hliteral)
          exact List.forall_mem_cons.mpr ⟨List.forall_mem_singleton.mpr hnumber, hrest⟩
        · exact wellFormed_mistagged
      | _ => exact wellFormed_mistagged

theorem wellFormed_begin {outer : List Frame} {byte : UInt8} {reader : Reader}
    (houter : ∀ frame ∈ outer, frame.WellFormed) (h : begin outer byte = .ok reader) :
    reader.WellFormed := by
  -- words stand for values without keys and without literals
  have hmeaning : ∀ left meaning, word? byte = some (left, meaning) → meaning.WellFormed := by
    intro left meaning hword
    unfold word? at hword
    split_ifs at hword <;> cases hword <;> constructor
  unfold begin at h
  split_ifs at h
  · cases h; exact houter
  · cases h; exact houter
  · cases h; exact houter
  · split at h
    · rename_i hword
      cases h
      refine List.forall_mem_cons.mpr ⟨?_, houter⟩
      exact List.forall_mem_singleton.mpr (hmeaning _ _ hword)
    · rename_i hnumeral
      cases h
      exact ⟨(Numeral.isBegun_of_begin? hnumeral).1, houter⟩
    · cases h

theorem wellFormed_between {reader next : Reader} {byte : UInt8} (hreader : reader.WellFormed)
    (h : between reader byte = .ok next) : next.WellFormed := by
  have hreversed : ∀ {items : List Json}, (∀ item ∈ items, item.WellFormed) →
      (Json.array items.reverse).WellFormed := fun hitems =>
    .array fun item hitem => hitems item (List.mem_reverse.mp hitem)
  have hempty : (Json.object []).WellFormed := .object List.nodup_nil fun _ hm => by cases hm
  cases reader with
  | beforeValue outer => exact wellFormed_begin hreader h
  | beforeFirstItem outer =>
    simp only [between] at h
    split at h
    · cases h
      exact wellFormed_settle (.array fun _ hitem => by cases hitem) hreader
    · refine wellFormed_begin (List.forall_mem_cons.mpr ⟨?_, hreader⟩) h
      intro item hitem
      cases hitem
  | afterItem items outer =>
    obtain ⟨hitems, houter⟩ := List.forall_mem_cons.mp hreader
    simp only [between] at h
    split_ifs at h
    · cases h; exact hreader
    · cases h; exact wellFormed_settle (hreversed hitems) houter
  | beforeItem items outer =>
    simp only [between] at h
    split at h
    · cases h
    · exact wellFormed_begin hreader h
  | beforeFirstKey outer =>
    simp only [between] at h
    split_ifs at h
    · cases h; exact wellFormed_settle hempty hreader
    · cases h; exact List.forall_mem_cons.mpr ⟨hempty, hreader⟩
  | afterKey members key outer =>
    obtain ⟨hmembers, houter⟩ := List.forall_mem_cons.mp hreader
    simp only [between] at h
    split_ifs at h
    · cases h; exact List.forall_mem_cons.mpr ⟨trivial, houter⟩
    · cases h; exact List.forall_mem_cons.mpr ⟨hmembers, houter⟩
  | afterMember members outer =>
    obtain ⟨hmembers, houter⟩ := List.forall_mem_cons.mp hreader
    simp only [between] at h
    split_ifs at h
    · cases h; exact hreader
    · cases h; exact wellFormed_settle hmembers houter
  | beforeKey members outer =>
    simp only [between] at h
    split_ifs at h
    · cases h; exact hreader
  | afterTagged literal outer =>
    obtain ⟨hnumber, houter⟩ := List.forall_mem_cons.mp hreader
    simp only [between] at h
    split_ifs at h
    · cases h; exact wellFormed_settle (List.forall_mem_singleton.mp hnumber) houter
  | _ => cases h

theorem wellFormed_outside {reader next : Reader} {byte : UInt8} (hreader : reader.WellFormed)
    (h : outside reader byte = .ok next) : next.WellFormed := by
  unfold outside at h
  split at h
  · cases h; exact hreader
  · exact wellFormed_between hreader h

/-- Reading a byte keeps what is in hand well formed. -/
theorem wellFormed_next {reader next : Reader} {byte : UInt8} (hreader : reader.WellFormed)
    (h : reader.next byte = .ok next) : next.WellFormed := by
  unfold Reader.next at h
  split at h
  · rename_i members quoted outer
    cases hquoted : quoted.next byte with
    | error cause => rw [hquoted] at h; cases h
    | ok progress =>
      rw [hquoted] at h
      cases progress <;> cases h <;> exact hreader
  · rename_i quoted outer
    cases hquoted : quoted.next byte with
    | error cause => rw [hquoted] at h; cases h
    | ok progress =>
      rw [hquoted] at h
      cases progress with
      | more quoted => cases h; exact hreader
      | done text => cases h; exact wellFormed_settle .string hreader
  · rename_i left meaning outer
    obtain ⟨hmeaning, houter⟩ := List.forall_mem_cons.mp hreader
    have hsettled := wellFormed_settle (List.forall_mem_singleton.mp hmeaning) houter
    split at h
    · exact wellFormed_outside hsettled h
    · split_ifs at h
      cases h
      exact hsettled
    · split_ifs at h
      cases h
      exact hreader
  · rename_i numeral outer
    obtain ⟨hbegun, houter⟩ := hreader
    split at h
    · rename_i hnext
      cases h
      exact ⟨(hbegun.next hnext).1, houter⟩
    -- a byte that ends the literal finds it complete
    · rename_i hnext
      have hnumber := (hbegun.number (Numeral.isComplete_of_next hnext)).1
      exact wellFormed_outside (wellFormed_settle (.number hnumber) houter) h
    · cases h
  · exact wellFormed_outside hreader h

theorem wellFormed_finishBetween {reader : Reader} {document : Json} (hreader : reader.WellFormed)
    (h : finishBetween reader = .ok document) : document.WellFormed := by
  cases reader with
  | ended found =>
    cases h
    exact List.forall_mem_singleton.mp (List.forall_mem_singleton.mp hreader)
  | _ => cases h

theorem wellFormed_finish {reader : Reader} {document : Json} (hreader : reader.WellFormed)
    (h : reader.finish = .ok document) : document.WellFormed := by
  unfold finish at h
  split at h
  · obtain ⟨hbegun, houter⟩ := hreader
    split_ifs at h with hcomplete
    have hnumber := (hbegun.number hcomplete).1
    exact wellFormed_finishBetween (wellFormed_settle (.number hnumber) houter) h
  · exact wellFormed_finishBetween hreader h

/-- Reading the rest of a document from a reader with well-formed values gives a well-formed
value. -/
theorem wellFormed_run {reader : Reader} {place : Position} {text : List UInt8} {document : Json}
    (hreader : reader.WellFormed) (h : reader.run place text = .ok document) :
    document.WellFormed := by
  induction text generalizing reader place with
  | nil =>
    rw [run] at h
    cases hfinish : reader.finish with
    | ok found =>
      rw [hfinish] at h
      cases h
      exact wellFormed_finish hreader hfinish
    | error cause => rw [hfinish] at h; cases h
  | cons byte rest ih =>
    rw [run] at h
    split at h
    · rename_i next hnext
      exact ih (wellFormed_next hreader hnext) h
    · cases h

end Reader

/-- Every document that is read is well formed. -/
theorem wellFormed_of_parse {text : List UInt8} {document : Json}
    (h : parse text = .ok document) : document.WellFormed :=
  Reader.wellFormed_run Reader.wellFormed_start h

/-- No document that is read has a key twice in one object. -/
theorem wellKeyed_of_parse {text : List UInt8} {document : Json}
    (h : parse text = .ok document) : document.WellKeyed :=
  (wellFormed_of_parse h).wellKeyed

end StructSketch.Json
