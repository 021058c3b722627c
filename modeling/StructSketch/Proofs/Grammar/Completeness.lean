import StructSketch.Proofs.Grammar.Numbers
import StructSketch.Proofs.Grammar.QuotedTexts
import StructSketch.Proofs.Grammar.Reading
import StructSketch.Proofs.Grammar.Trees

/-!
# What the grammar allows is read

* **`Grammar.Value.reads`**: a value of the grammar is read and settled in its container, if what
  follows is a blank, a comma or the end of a container. The proof goes along the derivation, a
  case for each rule.
* **`Grammar.Document.parse`**: so a document of the grammar is read as its tree.
-/

namespace StructSketch.Json

open Grammar (Blanks Document)

namespace Reader

/-! ## Tokens -/

theorem reads_blanks (reader : Reader) (h : reader.IsBetween) {blanks rest : List UInt8}
    (hblanks : Blanks blanks) : reader.reads (blanks ++ rest) = reader.reads rest := by
  induction blanks with
  | nil => rfl
  | cons byte blanks ih =>
    obtain ⟨hbyte, hblanks⟩ := List.forall_mem_cons.mp hblanks
    rw [List.cons_append, reads_cons, ih hblanks]
    rw [h.next, outside, if_pos (isBlank_iff.mpr hbyte)]

/-- A quoted text is read by what takes it, whether it is a key or a value. -/
theorem reads_quoted {reader : Quoted → Reader} {settled : String → Reader}
    (hreader : ∀ quoted byte, (reader quoted).next byte = (quoted.next byte).map fun
      | .more quoted => reader quoted
      | .done content => settled content)
    {quoted : Quoted} {text rest : List UInt8} {content : String}
    (h : takeQuoted quoted text = .ok (content, rest)) :
    (reader quoted).reads text = (settled content).reads rest := by
  induction text generalizing quoted with
  | nil => cases h
  | cons byte text ih =>
    rw [takeQuoted] at h
    rw [reads, hreader]
    cases hnext : quoted.next byte with
    | error cause =>
      rw [hnext] at h
      cases h
    | ok progress =>
      rw [hnext] at h
      cases progress with
      | more quoted => exact ih h
      | done found =>
        cases h
        rfl

theorem reads_inText {quoted : Quoted} {outer : List Frame} {text rest : List UInt8}
    {content : String} (h : takeQuoted quoted text = .ok (content, rest)) :
    (inText quoted outer).reads text = (settle (.string content) outer).reads rest :=
  @reads_quoted (inText · outer) (fun content => settle (.string content) outer)
    (fun _ _ => rfl) _ _ _ _ h

theorem reads_inKey {members : List (String × Json)} {quoted : Quoted} {outer : List Frame}
    {text rest : List UInt8} {key : String} (h : takeQuoted quoted text = .ok (key, rest)) :
    (inKey members quoted outer).reads text = (afterKey members key outer).reads rest :=
  @reads_quoted (inKey members · outer) (afterKey members · outer) (fun _ _ => rfl) _ _ _ _ h

theorem reads_inNumber {numeral : Numeral} {outer : List Frame} {text rest : List UInt8}
    {literal : String} (h : takeNumber numeral text = .ok (literal, rest)) :
    (inNumber numeral outer).reads text = (settle (.number literal) outer).reads rest := by
  induction text generalizing numeral with
  | nil =>
    rw [takeNumber] at h
    split_ifs at h with hcomplete
    cases h
    rw [reads, reads, (isBetween_settle _ _).finish]
    exact if_pos hcomplete
  | cons byte text ih =>
    rw [takeNumber] at h
    rw [reads, next]
    cases hnext : numeral.next byte with
    | error cause =>
      rw [hnext] at h
      cases h
    | ok numeral? =>
      rw [hnext] at h
      cases numeral? with
      | some numeral => exact ih h
      | none =>
        cases h
        rw [reads, (isBetween_settle _ _).next]

theorem reads_inWord {left rest : List UInt8} {meaning : Json} {outer : List Frame}
    (h : left ≠ []) :
    (inWord left meaning outer).reads (left ++ rest) = (settle meaning outer).reads rest := by
  induction left with
  | nil => exact absurd rfl h
  | cons letter left ih =>
    cases left with
    | nil =>
      refine reads_cons ?_
      rw [next]
      exact if_pos rfl
    | cons letter' left =>
      rw [← ih (List.cons_ne_nil _ _)]
      refine reads_cons ?_
      rw [next]
      · exact if_pos rfl
      · exact nofun

theorem reads_word {first : UInt8} {left rest : List UInt8} {meaning : Json}
    {outer : List Frame} (h : word? first = some (left, meaning)) :
    (beforeValue outer).reads (first :: (left ++ rest)) =
      (settle meaning outer).reads rest := by
  unfold word? at h
  split_ifs at h with ht hf hn <;> cases h
  · rw [ht, reads_cons (by rfl : _ = Except.ok (inWord _ (.boolean true) outer))]
    exact reads_inWord (List.cons_ne_nil _ _)
  · rw [hf, reads_cons (by rfl : _ = Except.ok (inWord _ (.boolean false) outer))]
    exact reads_inWord (List.cons_ne_nil _ _)
  · rw [hn, reads_cons (by rfl : _ = Except.ok (inWord _ .null outer))]
    exact reads_inWord (List.cons_ne_nil _ _)

/-- A number begins with a minus or a digit. -/
theorem minus_or_digit_of_begin? {byte : UInt8} {numeral : Numeral}
    (h : Numeral.begin? byte = some numeral) : byte = 0x2D ∨ isDigit byte = true := by
  obtain ⟨part, hpart, _⟩ := Option.map_eq_some_iff.mp h
  unfold Numeral.Part.begin? at hpart
  split_ifs at hpart with hminus hzero hdigit
  · exact .inl hminus
  · exact .inr (hzero ▸ rfl)
  · exact .inr hdigit

/-- The first byte of a number begins nothing else. -/
theorem begins_number {byte : UInt8} {numeral : Numeral}
    (h : Numeral.begin? byte = some numeral) :
    isBlank byte = false ∧ word? byte = none ∧ byte ≠ 0x22 ∧ byte ≠ 0x5B ∧ byte ≠ 0x5D ∧
      byte ≠ 0x7B := by
  rcases minus_or_digit_of_begin? h with rfl | hdigit
  · decide
  · have hne : ∀ other, isDigit other = false → byte ≠ other := fun _ => ne_of_isDigit hdigit
    refine ⟨?_, ?_, hne _ rfl, hne _ rfl, hne _ rfl, hne _ rfl⟩
    · simp [isBlank, hne 0x20 rfl, hne 0x09 rfl, hne 0x0A rfl, hne 0x0D rfl]
    · simp [word?, hne 0x74 rfl, hne 0x66 rfl, hne 0x6E rfl]

theorem reads_number {byte : UInt8} {rest : List UInt8} {numeral : Numeral} {outer : List Frame}
    (h : Numeral.begin? byte = some numeral) :
    (beforeValue outer).reads (byte :: rest) = (inNumber numeral outer).reads rest := by
  obtain ⟨hblank, hword, hquote, hbracket, _, hbrace⟩ := begins_number h
  refine reads_cons ?_
  show outside _ byte = _
  rw [outside_of_notBlank hblank, between, begin, if_neg hquote, if_neg hbracket, if_neg hbrace,
    hword, h]

theorem next_quote (members : List (String × Json)) (outer : List Frame) :
    (beforeKey members outer).next 0x22 = .ok (.inKey members .start outer) := rfl

theorem next_colon {members : List (String × Json)} {key : String} (outer : List Frame)
    (h : members = [] → key ≠ numberTag) :
    (afterKey members key outer).next 0x3A = .ok (.beforeValue (.member members key :: outer)) := by
  have htag : ¬ (members.isEmpty ∧ key = numberTag) := by
    rintro ⟨hempty, hkey⟩
    exact h (List.isEmpty_iff.mp hempty) hkey
  exact if_neg htag

end Reader

/-! ## Rules of the grammar -/

/-- What may follow a value: a blank, a comma, the end of a container, or nothing. -/
def Follows (rest : List UInt8) : Prop :=
  ∀ byte ∈ rest.head?, isBlank byte = true ∨ byte = 0x2C ∨ byte = 0x5D ∨ byte = 0x7D

theorem follows_cons {byte : UInt8} {rest : List UInt8}
    (h : byte = 0x2C ∨ byte = 0x5D ∨ byte = 0x7D) : Follows (byte :: rest) := by
  rintro _ ⟨⟩
  exact .inr h

theorem Follows.ends {rest : List UInt8} (h : Follows rest) : Numeral.Ends rest := by
  intro byte hbyte
  rcases h byte hbyte with hblank | rfl | rfl | rfl
  · rcases isBlank_iff.mp hblank with rfl | rfl | rfl | rfl <;> decide
  all_goals decide

theorem Follows.blanks {blanks rest : List UInt8} (hblanks : Blanks blanks) (h : Follows rest) :
    Follows (blanks ++ rest) := by
  cases blanks with
  | nil => exact h
  | cons byte blanks =>
    rintro _ ⟨⟩
    exact .inl (isBlank_iff.mpr (hblanks byte List.mem_cons_self))

namespace Grammar

open Reader (reads)

/-- A text whose first byte that is no blank begins a value. -/
def BeginsValue (text : List UInt8) : Prop :=
  ∃ blanks byte rest, text = blanks ++ byte :: rest ∧ Blanks blanks ∧ isBlank byte = false ∧
    byte ≠ 0x5D

theorem Value.begins {text : List UInt8} {tree : Json} (h : Value text tree) :
    ∃ byte rest, text = byte :: rest ∧ isBlank byte = false ∧ byte ≠ 0x5D := by
  cases h with
  | nullWord => exact ⟨_, _, rfl, by decide, by decide⟩
  | trueWord => exact ⟨_, _, rfl, by decide, by decide⟩
  | falseWord => exact ⟨_, _, rfl, by decide, by decide⟩
  | number h =>
    obtain ⟨byte, rest, numeral, htext, hbegin, _⟩ := Numeral.takeNumber_literal h
    obtain ⟨hblank, _, _, _, hend, _⟩ := Reader.begins_number hbegin
    exact ⟨byte, rest, htext, hblank, hend⟩
  | string h =>
    cases h
    exact ⟨_, _, rfl, by decide, by decide⟩
  | emptyArray => exact ⟨_, _, rfl, by decide, by decide⟩
  | array => exact ⟨_, _, rfl, by decide, by decide⟩
  | emptyObject => exact ⟨_, _, rfl, by decide, by decide⟩
  | object => exact ⟨_, _, rfl, by decide, by decide⟩

theorem Element.begins {text : List UInt8} {tree : Json} (h : Element text tree) :
    BeginsValue text := by
  cases h with
  | padded hbefore hvalue _ =>
    obtain ⟨byte, rest, rfl, hblank, hend⟩ := hvalue.begins
    exact ⟨_, byte, _, rfl, hbefore, hblank, hend⟩

/-- Where a value may begin, it is read like the value of a document. -/
theorem BeginsValue.reads_eq {text : List UInt8} (h : BeginsValue text) {reader : Reader}
    {outer : List Frame} (hbetween : reader.IsBetween)
    (hbegin : ∀ byte, byte ≠ 0x5D → Reader.between reader byte = Reader.begin outer byte)
    (rest : List UInt8) :
    reader.reads (text ++ rest) = (Reader.beforeValue outer).reads (text ++ rest) := by
  obtain ⟨blanks, byte, more, rfl, hblanks, hblank, hend⟩ := h
  rw [List.append_assoc, Reader.reads_blanks reader hbetween hblanks,
    Reader.reads_blanks (.beforeValue outer) trivial hblanks, List.cons_append]
  refine Reader.reads_congr ?_
  have hvalue : (Reader.beforeValue outer).IsBetween := trivial
  rw [hbetween.next, hvalue.next, Reader.outside_of_notBlank hblank,
    Reader.outside_of_notBlank hblank]
  exact hbegin byte hend

/-- Inside an object the first key is read like any key. -/
theorem Member.reads_firstKey {text : List UInt8} {member : String × Json} (h : Member text member)
    (outer : List Frame) (rest : List UInt8) :
    (Reader.beforeFirstKey outer).reads (text ++ rest) =
      (Reader.beforeKey [] outer).reads (text ++ rest) := by
  cases h with
  | pair hbefore hkey =>
    cases hkey
    rw [List.append_assoc, Reader.reads_blanks (.beforeFirstKey outer) trivial hbefore,
      Reader.reads_blanks (.beforeKey [] outer) trivial hbefore]
    rfl

theorem Members.ne_nil {text : List UInt8} {members : List (String × Json)}
    (h : Members text members) : members ≠ [] := by
  cases h <;> simp

mutual

/-- A value is read and settled in its container. -/
theorem Value.reads {text : List UInt8} {tree : Json} : Value text tree → tree.Untagged →
    ∀ (outer : List Frame) (rest : List UInt8), Follows rest →
      (Reader.beforeValue outer).reads (text ++ rest) =
        (Reader.settle tree.merged outer).reads rest
  | .nullWord, _, _, _, _ => Reader.reads_word rfl
  | .trueWord, _, _, _, _ => Reader.reads_word rfl
  | .falseWord, _, _, _, _ => Reader.reads_word rfl
  | .number h, _, outer, rest, hrest => by
    obtain ⟨byte, more, numeral, htext, hbegin, htake⟩ := Numeral.takeNumber_literal h
    rw [htext, List.cons_append, Reader.reads_number hbegin,
      Reader.reads_inNumber (htake rest hrest.ends)]
    rfl
  | .string h, _, outer, rest, _ => by
    obtain ⟨spelled, rfl, htake⟩ := takeQuoted_quoted h
    exact Reader.reads_inText (htake rest)
  | .emptyArray h, _, outer, rest, _ => by
    rw [List.cons_append, List.append_assoc]
    exact Reader.reads_blanks (.beforeFirstItem outer) trivial h
  | .array h, htree, outer, rest, _ => by
    have hitems := h.reads htree outer (0x5D :: rest) (follows_cons (by decide))
    rw [List.cons_append, List.append_assoc, merged_array]
    refine hitems.trans ?_
    rw [Reader.reads_cons rfl, List.reverse_reverse]
  | .emptyObject h, _, outer, rest, _ => by
    rw [List.cons_append, List.append_assoc]
    exact Reader.reads_blanks (.beforeFirstKey outer) trivial h
  | .object h, htree, outer, rest, _ => by
    have hmembers := h.reads htree outer (0x7D :: rest) (follows_cons (by decide))
    rw [List.cons_append, List.append_assoc, merged_object]
    exact hmembers

theorem Element.reads {text : List UInt8} {tree : Json} : Element text tree → tree.Untagged →
    ∀ (outer : List Frame) (rest : List UInt8), Follows rest →
      (Reader.beforeValue outer).reads (text ++ rest) =
        (Reader.settle tree.merged outer).reads rest
  | .padded hbefore h hafter, htree, outer, rest, hrest => by
    rw [List.append_assoc, List.append_assoc,
      Reader.reads_blanks (.beforeValue outer) trivial hbefore,
      h.reads htree outer _ (hrest.blanks hafter),
      Reader.reads_blanks _ (Reader.isBetween_settle _ _) hafter]

theorem Elements.reads {text : List UInt8} {items : List Json} : Elements text items →
    (Json.array items).Untagged → ∀ (outer : List Frame) (rest : List UInt8), Follows rest →
      (Reader.beforeFirstItem outer).reads (text ++ rest) =
        (Reader.afterItem (items.map merged).reverse outer).reads rest
  | .one h, hitems, outer, rest, hrest => by
    have hitem := untagged_array.mp hitems _ List.mem_cons_self
    have hbetween : (Reader.beforeFirstItem outer).IsBetween := trivial
    rw [h.begins.reads_eq hbetween fun _ hend => if_neg hend,
      h.reads hitem (.item [] :: outer) rest hrest]
    rfl
  | .more h hlast, hitems, outer, rest, hrest => by
    obtain ⟨hitems, hitem⟩ := untagged_array_append.mp hitems
    have hread := fun more => h.reads hitems outer (0x2C :: more) (follows_cons (.inl rfl))
    have hbetween : ∀ items, (Reader.beforeItem items outer).IsBetween := fun _ => trivial
    rw [List.append_assoc, List.cons_append, hread, Reader.reads_cons rfl,
      hlast.begins.reads_eq (hbetween _) fun _ hend => if_neg hend,
      hlast.reads hitem (.item _ :: outer) rest hrest, List.map_append, List.reverse_append]
    rfl

theorem Member.reads {text : List UInt8} {member : String × Json} : Member text member →
    member.2.Untagged → ∀ (members : List (String × Json)) (outer : List Frame)
      (rest : List UInt8), (members = [] → member.1 ≠ numberTag) → Follows rest →
      (Reader.beforeKey members outer).reads (text ++ rest) =
        (Reader.afterMember (put member.1 member.2.merged members) outer).reads rest
  | .pair hbefore hkey hafter hvalue, htree, members, outer, rest, htag, hrest => by
    obtain ⟨spelled, rfl, htake⟩ := takeQuoted_quoted hkey
    rw [List.append_assoc, List.append_assoc, List.append_assoc, List.cons_append,
      Reader.reads_blanks (.beforeKey members outer) trivial hbefore,
      Reader.reads_cons (Reader.next_quote members outer), Reader.reads_inKey (htake _),
      Reader.reads_blanks (.afterKey members _ outer) trivial hafter, List.cons_append,
      Reader.reads_cons (Reader.next_colon outer htag), hvalue.reads htree _ rest hrest]
    rfl

theorem Members.reads {text : List UInt8} {members : List (String × Json)} :
    Members text members → (Json.object members).Untagged →
    ∀ (outer : List Frame) (rest : List UInt8), Follows rest →
      (Reader.beforeFirstKey outer).reads (text ++ rest) =
        (Reader.afterMember (keptMembers members) outer).reads rest
  | .one h, hmembers, outer, rest, hrest => by
    obtain ⟨hfirst, hvalues⟩ := untagged_object.mp hmembers
    rw [h.reads_firstKey]
    exact h.reads (hvalues _ List.mem_cons_self) [] outer rest (fun _ => hfirst _ rfl) hrest
  | .more h hlast, hmembers, outer, rest, hrest => by
    obtain ⟨hmembers, hvalue, _⟩ := untagged_object_append.mp hmembers
    have hread := fun more => h.reads hmembers outer (0x2C :: more) (follows_cons (.inl rfl))
    -- the tag counts for the first key alone
    have hfirst := keptMembers_ne_nil h.ne_nil
    rw [List.append_assoc, List.cons_append, hread, Reader.reads_cons rfl,
      hlast.reads hvalue _ outer rest (absurd · hfirst) hrest, keptMembers_append]

end

/-- A document of the grammar is read as its tree, the repeated keys of each object merged. -/
theorem Document.parse {text : List UInt8} {tree : Json} (h : Document text tree)
    (htree : tree.Untagged) : Json.parse text = .ok tree.merged := by
  refine Reader.run_eq_ok.mpr ?_
  have hread := Element.reads h htree [] [] nofun
  rwa [List.append_nil] at hread

end Grammar

end StructSketch.Json
