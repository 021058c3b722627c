import StructSketch.Go.Settings.Value
import StructSketch.Proofs.FixedWidth
import StructSketch.Proofs.Grammar.Completeness

/-!
# Values of settings are those of the grammar

* **`Indentation.ofJson?`**, with `Json.text?`, `Json.truth?` and `Json.count?`, tells what a value
  is to a setting of each type, if it is a value of that type at all.
* **`Go.Reads`**: a reader takes a value of the grammar off a text exactly if it is of the type of
  the reader, as what it is to that type, and leaves what follows.
* **`Go.reads_readString`**, **`Go.reads_readBool`** and **`Go.reads_readIndentation`**: so do the
  readers of settings.
-/

namespace StructSketch

open Json.Grammar (Blanks Number Value Element Member Members)

/-! ## What a value is to a type -/

namespace Json

/-- The text that a value is. -/
def text? : Json → Option String
  | .string text => some text
  | _ => none

/-- The truth value that a value is. -/
def truth? : Json → Option Bool
  | .boolean value => some value
  | _ => none

/-- Nothing, if it is what a value is. -/
def null? : Json → Option Unit
  | .null => some ()
  | _ => none

/-- The count that a value is, below two to the 64th. -/
def count? : Json → Option Nat
  | .number literal => literal.toNat?.filter (· < 2 ^ 64)
  | _ => none

end Json

/-- The indentation that the only member of an object is. -/
def Go.Indentation.ofMember? (name : String) (value : Json) : Option Go.Indentation :=
  if name = "Tab" then value.null?.map fun _ => .tab
  else if name = "Space" then value.count?.map .spaces
  else none

/-- The indentation that a value is. -/
def Go.Indentation.ofJson? : Json → Option Go.Indentation
  | .string name => if name = "Tab" then some .tab else none
  | .object [(name, value)] => ofMember? name value
  | _ => none

namespace Go

open Json (Follows peek takeQuoted takeNumber takeWord word? isBlank)

/-- A reader takes the values that are of its type off a text, and leaves what follows them. -/
def Reads {α : Type} (read : List UInt8 → Reading α) (meaning : Json → Option α) : Prop :=
  ∀ {blanks text rest : List UInt8} {tree : Json}, Blanks blanks → Value text tree →
    Follows rest → (read (blanks ++ (text ++ rest))).toOption = (meaning tree).map (·, rest)

/-! ## First bytes -/

theorem skipBlanks_append {blanks : List UInt8} (h : Blanks blanks) (rest : List UInt8) :
    Json.skipBlanks (blanks ++ rest) = Json.skipBlanks rest :=
  List.dropWhile_append_of_pos fun byte hbyte => Json.isBlank_iff.mpr (h byte hbyte)

theorem peek_append (ifNone : Json.Cause) {blanks : List UInt8} (h : Blanks blanks)
    (rest : List UInt8) : peek ifNone (blanks ++ rest) = peek ifNone rest := by
  rw [peek, skipBlanks_append h, peek]

theorem peek_blanks {blanks rest : List UInt8} {byte : UInt8} (ifNone : Json.Cause)
    (hblanks : Blanks blanks) (h : isBlank byte = false) :
    peek ifNone (blanks ++ byte :: rest) = .ok (byte, rest) := by
  rw [peek_append _ hblanks, peek, Json.skipBlanks, List.dropWhile_cons_of_neg]
  rw [h]
  exact Bool.false_ne_true

/-- The bytes that a value begins with. -/
def Begins (byte : UInt8) : Json → Prop
  | .null => byte = 0x6E
  | .boolean value => byte = if value then 0x74 else 0x66
  | .number _ => ∃ numeral, Json.Numeral.begin? byte = some numeral
  | .string _ => byte = 0x22
  | .array _ => byte = 0x5B
  | .object _ => byte = 0x7B

theorem exists_begins {text : List UInt8} {tree : Json} (h : Value text tree) :
    ∃ byte more, text = byte :: more ∧ isBlank byte = false ∧ Begins byte tree := by
  cases h with
  | nullWord => exact ⟨_, _, rfl, by decide, rfl⟩
  | trueWord => exact ⟨_, _, rfl, by decide, rfl⟩
  | falseWord => exact ⟨_, _, rfl, by decide, rfl⟩
  | number h =>
    obtain ⟨byte, more, numeral, htext, hbegin, _⟩ := Json.Numeral.takeNumber_literal h
    exact ⟨byte, more, htext, (Json.Reader.begins_number hbegin).1, numeral, hbegin⟩
  | string h =>
    cases h
    exact ⟨_, _, rfl, by decide, rfl⟩
  | emptyArray => exact ⟨_, _, rfl, by decide, rfl⟩
  | array => exact ⟨_, _, rfl, by decide, rfl⟩
  | emptyObject => exact ⟨_, _, rfl, by decide, rfl⟩
  | object => exact ⟨_, _, rfl, by decide, rfl⟩

/-- Only a text begins with a quote. -/
theorem Begins.ne_quote {byte : UInt8} {tree : Json} (h : Begins byte tree)
    (hkind : tree.kind ≠ .string) : byte ≠ 0x22 := by
  cases tree with
  | string content => exact absurd rfl hkind
  | number literal =>
    obtain ⟨numeral, hbegin⟩ := h
    obtain ⟨_, _, hquote, _⟩ := Json.Reader.begins_number hbegin
    exact hquote
  | boolean value => cases value <;> cases h <;> decide
  | _ =>
    cases h
    decide

/-- Only an object begins with a brace. -/
theorem Begins.ne_brace {byte : UInt8} {tree : Json} (h : Begins byte tree)
    (hkind : tree.kind ≠ .object) : byte ≠ 0x7B := by
  cases tree with
  | object members => exact absurd rfl hkind
  | number literal =>
    obtain ⟨numeral, hbegin⟩ := h
    obtain ⟨_, _, _, _, _, hbrace⟩ := Json.Reader.begins_number hbegin
    exact hbrace
  | boolean value => cases value <;> cases h <;> decide
  | _ =>
    cases h
    decide

theorem quoted_of_value {text : List UInt8} {content : String}
    (h : Value text (.string content)) : Json.Grammar.Quoted text content := by
  cases h with
  | string h => exact h

theorem number_of_value {text : List UInt8} {literal : String} (h : Value text (.number literal)) :
    text = Text.bytes literal ∧ Number (Text.bytes literal) := by
  cases h with
  | number h => exact ⟨rfl, h⟩

/-! ## Texts, truth values and `null` -/

theorem reads_readString : Reads readString Json.text? := by
  intro blanks text rest tree hblanks h hrest
  cases tree with
  | string content =>
    obtain ⟨spelled, rfl, htake⟩ := Json.takeQuoted_quoted (quoted_of_value h)
    rw [readString, List.cons_append, peek_blanks _ hblanks rfl]
    simp only [htake]
    rfl
  | _ =>
    obtain ⟨byte, more, rfl, hblank, hbegins⟩ := exists_begins h
    rw [readString, List.cons_append, peek_blanks _ hblanks hblank]
    simp only [if_neg (hbegins.ne_quote nofun)]
    rfl

theorem takeWord_append (letters rest : List UInt8) :
    takeWord letters (letters ++ rest) = .ok rest := by
  induction letters with
  | nil => rfl
  | cons letter letters ih =>
    rw [List.cons_append, takeWord, if_pos rfl]
    exact ih

/-- A truth value and `null` are words. -/
theorem word_of_value {text : List UInt8} {tree : Json} (h : Value text tree)
    (hkind : tree.kind = .boolean ∨ tree.kind = .null) :
    ∃ first left, text = first :: left ∧ isBlank first = false ∧
      word? first = some (left, tree) := by
  cases h with
  | nullWord | trueWord | falseWord => exact ⟨_, _, rfl, by decide, rfl⟩
  | _ => rcases hkind with hkind | hkind <;> cases hkind

theorem word?_of_begins {byte : UInt8} {tree : Json} (h : Begins byte tree)
    (hboolean : tree.kind ≠ .boolean) (hnull : tree.kind ≠ .null) : word? byte = none := by
  cases tree with
  | null => exact absurd rfl hnull
  | boolean value => exact absurd rfl hboolean
  | number literal =>
    obtain ⟨numeral, hbegin⟩ := h
    exact (Json.Reader.begins_number hbegin).2.1
  | _ =>
    cases h
    rfl

/-- A reader takes all values of its type if it takes the words and refuses everything else. -/
theorem reads_of_word {α : Type} {read : List UInt8 → Reading α} {meaning : Json → Option α}
    (hmeaning : ∀ tree : Json, tree.kind ≠ .boolean → tree.kind ≠ .null → meaning tree = none)
    (hread : ∀ {blanks left rest : List UInt8} {byte : UInt8} {tree : Json}, Blanks blanks →
      isBlank byte = false → word? byte = some (left, tree) →
      (read (blanks ++ byte :: (left ++ rest))).toOption = (meaning tree).map (·, rest))
    (hother : ∀ {blanks rest : List UInt8} {byte : UInt8}, Blanks blanks →
      isBlank byte = false → word? byte = none →
      (read (blanks ++ byte :: rest)).toOption = none) :
    Reads read meaning := by
  intro blanks text rest tree hblanks h hrest
  by_cases hkind : tree.kind = .boolean ∨ tree.kind = .null
  · obtain ⟨first, left, rfl, hblank, hword⟩ := word_of_value h hkind
    exact hread hblanks hblank hword
  · obtain ⟨hboolean, hnull⟩ := not_or.mp hkind
    obtain ⟨byte, more, rfl, hblank, hbegins⟩ := exists_begins h
    rw [hmeaning tree hboolean hnull]
    exact hother hblanks hblank (word?_of_begins hbegins hboolean hnull)

theorem reads_readBool : Reads readBool Json.truth? := by
  refine reads_of_word ?_ ?_ ?_
  · intro tree hboolean _
    cases tree with
    | boolean value => exact absurd rfl hboolean
    | _ => rfl
  · intro blanks left rest byte tree hblanks hblank hword
    rw [readBool, peek_blanks _ hblanks hblank]
    cases tree with
    | boolean value =>
      simp only [hword, takeWord_append]
      rfl
    | _ =>
      simp only [hword]
      rfl
  · intro blanks rest byte hblanks hblank hword
    rw [readBool, peek_blanks _ hblanks hblank]
    simp only [hword]
    rfl

theorem reads_readNull : Reads readNull Json.null? := by
  refine reads_of_word ?_ ?_ ?_
  · intro tree _ hnull
    cases tree with
    | null => exact absurd rfl hnull
    | _ => rfl
  · intro blanks left rest byte tree hblanks hblank hword
    rw [readNull, peek_blanks _ hblanks hblank]
    cases tree with
    | null =>
      simp only [hword, takeWord_append]
      rfl
    | _ =>
      simp only [hword]
      rfl
  · intro blanks rest byte hblanks hblank hword
    rw [readNull, peek_blanks _ hblanks hblank]
    simp only [hword]
    rfl

/-! ## Numbers of spaces -/

/-- A text with another character than digits denotes no natural number. -/
theorem toNat?_eq_none {text : String} {c : Char} (hc : c ∈ text.toList)
    (hdigit : c.isDigit = false) (hother : c ≠ '_') : text.toNat? = none := by
  refine String.toNat?_eq_none (Bool.eq_false_iff.mpr fun hnat => ?_)
  rcases (String.isNat_iff.mp hnat).2.1 c hc with h | h
  · exact Bool.false_ne_true (hdigit.symm.trans h)
  · exact hother h

theorem integer?_digits {literal : String} {digits : List Char}
    (htext : literal.toList = digits) (hdigits : ∀ c ∈ digits, c.isDigit) :
    Json.Numeral.integer? literal = some (Nat.ofDigitChars 10 digits 0 : Int) := by
  have hmark : Json.Numeral.isFractional literal = false := by
    refine Bool.eq_false_iff.mpr fun hmark => ?_
    obtain ⟨c, hc, rfl | rfl | rfl⟩ := Json.Numeral.isFractional_iff.mp hmark <;>
      exact absurd (hdigits _ (htext ▸ hc)) (by decide)
  rw [Json.Numeral.integer?, hmark, if_neg Bool.false_ne_true, htext]
  split
  · exact absurd (hdigits '-' List.mem_cons_self) (by decide)
  · rfl

theorem spacesOfLiteral_of_none {literal : String}
    (h : literal.toList.head? = some '-' ∨ Json.Numeral.integer? literal = none) :
    (spacesOfLiteral literal).toOption = none := by
  unfold spacesOfLiteral
  split
  · split <;> rfl
  · split <;> rfl
  · rename_i value hinteger hminus
    rcases h with h | h
    · exact absurd h hminus
    · cases h.symm.trans hinteger

theorem spacesOfLiteral_of_some {literal : String} {count : Nat}
    (hminus : literal.toList.head? ≠ some '-')
    (h : Json.Numeral.integer? literal = some (count : Int)) :
    (spacesOfLiteral literal).toOption = (some count).filter (· < 2 ^ 64) := by
  unfold spacesOfLiteral
  split
  · rename_i hhead
    exact absurd hhead hminus
  · rename_i hnone _
    cases h.symm.trans hnone
  · rename_i value hvalue _
    cases h.symm.trans hvalue
    rw [Option.filter_some]
    by_cases hcount : count < 2 ^ 64
    · rw [if_pos (by omega), if_pos (decide_eq_true hcount)]
      rfl
    · have hfar : ¬ (count : Int) < 0x10000000000000000 := by omega
      rw [if_neg hfar, decide_eq_false hcount, if_neg Bool.false_ne_true]
      split <;> rfl

/-- A literal is read as a number of spaces exactly if it is one. -/
theorem spacesOfLiteral_eq {literal : String} (h : Number (Text.bytes literal)) :
    (spacesOfLiteral literal).toOption = (Json.number literal).count? := by
  rw [Json.count?]
  rcases Json.Numeral.number_cases h with hmark | ⟨digits, hne, hdigits, htext | htext⟩
  · have hnone : literal.toNat? = none := by
      obtain ⟨c, hc, rfl | rfl | rfl⟩ := Json.Numeral.isFractional_iff.mp hmark <;>
        exact toNat?_eq_none hc (by decide) (by decide)
    rw [hnone]
    exact spacesOfLiteral_of_none (.inr (if_pos hmark))
  · have hminus : literal.toList.head? ≠ some '-' := by
      rw [htext]
      intro hhead
      exact absurd (hdigits '-' (List.mem_of_mem_head? hhead)) (by decide)
    rw [Json.Numeral.toNat?_digits htext hne hdigits]
    exact spacesOfLiteral_of_some hminus (integer?_digits htext hdigits)
  · have hmem : '-' ∈ literal.toList := htext ▸ List.mem_cons_self
    rw [toNat?_eq_none hmem (by decide) (by decide)]
    exact spacesOfLiteral_of_none (.inl (by rw [htext]; rfl))

theorem reads_readSpaces : Reads readSpaces Json.count? := by
  intro blanks text rest tree hblanks h hrest
  cases tree with
  | number literal =>
    obtain ⟨rfl, hnumber⟩ := number_of_value h
    obtain ⟨byte, more, numeral, htext, hbegin, htake⟩ := Json.Numeral.takeNumber_literal hnumber
    have hblank := (Json.Reader.begins_number hbegin).1
    rw [readSpaces, htext, List.cons_append, peek_blanks _ hblanks hblank]
    simp only [hbegin, htake rest hrest.ends]
    rw [← spacesOfLiteral_eq hnumber]
    cases spacesOfLiteral literal <;> rfl
  | boolean value =>
    obtain ⟨_, more, rfl, hblank, rfl⟩ := exists_begins h
    rw [readSpaces, List.cons_append, peek_blanks _ hblanks hblank]
    cases value <;> rfl
  | _ =>
    obtain ⟨_, more, rfl, hblank, rfl⟩ := exists_begins h
    rw [readSpaces, List.cons_append, peek_blanks _ hblanks hblank]
    rfl

/-! ## Indentations -/

theorem object_of_value {text : List UInt8} {members : List (String × Json)}
    (h : Value text (.object members)) :
    ∃ inner, text = 0x7B :: (inner ++ [0x7D]) ∧
      (members = [] ∧ Blanks inner ∨ Members inner members) := by
  cases h with
  | emptyObject h => exact ⟨_, rfl, .inl ⟨rfl, h⟩⟩
  | object h => exact ⟨_, rfl, .inr h⟩

/-- The first one of some members, and what stands behind it: nothing, or a comma. -/
theorem exists_first {text : List UInt8} {members : List (String × Json)} :
    Members text members →
      ∃ first more member others, text = first ++ more ∧ members = member :: others ∧
        Member first member ∧
        (more = [] ∧ others = [] ∨ others ≠ [] ∧ ∃ later, more = 0x2C :: later)
  | .one h => ⟨_, [], _, [], (List.append_nil _).symm, rfl, h, .inl ⟨rfl, rfl⟩⟩
  | .more h hlast => by
    obtain ⟨first, more, member, others, rfl, rfl, hfirst, hmore⟩ := exists_first h
    refine ⟨first, _, member, _, List.append_assoc _ _ _, rfl, hfirst, .inr ⟨by simp, ?_⟩⟩
    rcases hmore with ⟨rfl, _⟩ | ⟨_, later, rfl⟩
    · exact ⟨_, rfl⟩
    · exact ⟨_, rfl⟩

theorem readColon_blanks {blanks rest : List UInt8} (h : Blanks blanks) :
    readColon (blanks ++ 0x3A :: rest) = .ok rest := by
  rw [readColon, peek_blanks _ h (by decide)]
  rfl

theorem readName_quoted {blanks key rest : List UInt8} {name : String} (hblanks : Blanks blanks)
    (hkey : Json.Grammar.Quoted key name) :
    readName (blanks ++ (key ++ rest)) = .ok (name, rest) := by
  obtain ⟨spelled, rfl, htake⟩ := Json.takeQuoted_quoted hkey
  rw [readName, List.cons_append, peek_blanks _ hblanks (by decide)]
  simp only [htake]
  rfl

theorem toOption_map {ε α β : Type} (f : α → β) (result : Except ε α) :
    (result.map f).toOption = result.toOption.map f := by
  cases result <;> rfl

/-- A value between blanks is taken off a text up to the blanks behind it, and something is made of
it. -/
theorem Reads.map_element {α β : Type} {read : List UInt8 → Reading α} {meaning : Json → Option α}
    (hread : Reads read meaning) (f : α → β) {text rest : List UInt8} {tree : Json}
    (h : Element text tree) (hrest : Follows rest) :
    ∃ blanks, Blanks blanks ∧
      ((read (text ++ rest)).map fun result => (f result.1, result.2)).toOption =
        ((meaning tree).map f).map (·, blanks ++ rest) := by
  cases h with
  | padded hbefore h hafter =>
    refine ⟨_, hafter, ?_⟩
    rw [toOption_map, List.append_assoc, List.append_assoc, hread hbefore h (hrest.blanks hafter),
      Option.map_map, Option.map_map]
    rfl

theorem readIndentationOf_eq (name : String) {blanks text rest : List UInt8} {value : Json}
    (hblanks : Blanks blanks) (h : Element text value) (hrest : Follows rest) :
    ∃ after, Blanks after ∧
      (readIndentationOf name (blanks ++ 0x3A :: (text ++ rest))).toOption =
        (Indentation.ofMember? name value).map (·, after ++ rest) := by
  unfold readIndentationOf Indentation.ofMember?
  rw [readColon_blanks hblanks]
  split_ifs with htab hspace
  · exact reads_readNull.map_element (fun _ => Indentation.tab) h hrest
  · exact reads_readSpaces.map_element Indentation.spaces h hrest
  · exact ⟨[], nofun, rfl⟩

theorem peek_closing {blanks rest : List UInt8} (ifNone : Json.Cause) (h : Blanks blanks) :
    peek ifNone (blanks ++ 0x7D :: rest) = .ok (0x7D, rest) := peek_blanks _ h (by decide)

/-- An object is an indentation if its only member is one. -/
theorem readIndentation_object {blanks text rest : List UInt8} {members : List (String × Json)}
    (hblanks : Blanks blanks) (h : Value text (.object members)) :
    (readIndentation (blanks ++ (text ++ rest))).toOption =
      (Indentation.ofJson? (.object members)).map (·, rest) := by
  obtain ⟨inner, rfl, ⟨rfl, hinner⟩ | hmembers⟩ := object_of_value h
  · rw [readIndentation, List.cons_append, peek_blanks _ hblanks (by decide), List.append_assoc]
    simp only [readName, List.singleton_append, peek_closing _ hinner]
    rfl
  · obtain ⟨first, more, ⟨name, value⟩, others, rfl, rfl, hfirst, hmore⟩ := exists_first hmembers
    cases hfirst with
    | @pair before key between element _ _ hbefore hkey hbetween hvalue =>
      have hfollows : Follows (more ++ 0x7D :: rest) := by
        rcases hmore with ⟨rfl, _⟩ | ⟨_, later, rfl⟩
        · exact Json.follows_cons (by decide)
        · exact Json.follows_cons (by decide)
      obtain ⟨after, hafter, hof⟩ := readIndentationOf_eq name hbetween hvalue hfollows
      have htext : blanks ++
          (0x7B :: ((before ++ (key ++ (between ++ 0x3A :: element)) ++ more) ++ [0x7D]) ++ rest) =
          blanks ++ 0x7B :: (before ++ (key ++ (between ++ 0x3A ::
            (element ++ (more ++ 0x7D :: rest))))) := by simp
      rw [htext, readIndentation, peek_blanks _ hblanks (by decide)]
      simp only [readName_quoted hbefore hkey]
      cases hread : readIndentationOf name
        (between ++ 0x3A :: (element ++ (more ++ 0x7D :: rest))) with
      | error refusal =>
        rw [hread] at hof
        have hmember := Option.map_eq_none_iff.mp hof.symm
        have hobject : Indentation.ofJson? (.object ((name, value) :: others)) = none := by
          cases others with
          | nil => exact hmember
          | cons other others => rfl
        rw [hobject]
        rfl
      | ok result =>
        rw [hread] at hof
        obtain ⟨indentation, hmember, rfl⟩ := Option.map_eq_some_iff.mp hof.symm
        rcases hmore with ⟨rfl, rfl⟩ | ⟨hothers, later, rfl⟩
        · simp only [List.nil_append, peek_closing _ hafter, Indentation.ofJson?, hmember]
          rfl
        · obtain ⟨other, others, rfl⟩ := List.exists_cons_of_ne_nil hothers
          have hcomma : isBlank 0x2C = false := by decide
          simp only [List.cons_append, peek_blanks _ hafter hcomma]
          rfl

theorem reads_readIndentation : Reads readIndentation Indentation.ofJson? := by
  intro blanks text rest tree hblanks h hrest
  cases tree with
  | string name =>
    obtain ⟨spelled, rfl, htake⟩ := Json.takeQuoted_quoted (quoted_of_value h)
    rw [readIndentation, List.cons_append, peek_blanks _ hblanks rfl]
    simp only [htake, Indentation.ofJson?, if_true]
    split <;> rfl
  | object members => exact readIndentation_object hblanks h
  | _ =>
    obtain ⟨byte, more, rfl, hblank, hbegins⟩ := exists_begins h
    rw [readIndentation, List.cons_append, peek_blanks _ hblanks hblank]
    simp only [if_neg (hbegins.ne_quote nofun), if_neg (hbegins.ne_brace nofun)]
    rfl

end Go

end StructSketch
