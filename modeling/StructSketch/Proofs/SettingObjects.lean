import StructSketch.Go.Settings
import StructSketch.Proofs.SettingValues
import StructSketch.Proofs.Skimming

/-!
# Objects of settings are those of the grammar

* **`Setting.content?`** tells what a value is to a setting, and **`Found.take?`** what a member
  does to the settings that were found.
* **`Found.exists_readMember`**: reading a member of the grammar comes to taking it. The value of an
  unknown key is passed over, whatever it is.
* **`Found.readNext?_members`** and **`readSettings_object`**: reading an object comes to taking its
  members one after the other, whatever blanks and escapes the text has.
-/

namespace StructSketch.Go

open Json (Follows peek isBlank takeQuoted)
open Json.Grammar (Blanks Document Element Member Members)

/-! ## Settings and their contents -/

/-- The type of a setting. -/
def Setting.Content : Setting → Type
  | .package => String
  | .importJson => Bool
  | .indentation => Indentation

/-- What a value is to a setting. -/
def Setting.content? : (setting : Setting) → Json → Option setting.Content
  | .package => Json.text?
  | .importJson => Json.truth?
  | .indentation => Indentation.ofJson?

theorem Setting.key_injective : Function.Injective Setting.key := by
  intro setting other h
  cases setting <;> cases other <;> first | rfl | exact absurd h (by decide)

namespace Found

/-- What was found for a setting. -/
def get (found : Found) : (setting : Setting) → Option setting.Content
  | .package => found.package
  | .importJson => found.importJson
  | .indentation => found.indentation

/-- The settings that were found, given for each setting. -/
def ofGet (get : (setting : Setting) → Option setting.Content) : Found :=
  ⟨get .package, get .importJson, get .indentation⟩

/-- Finds a setting. -/
def set (found : Found) : (setting : Setting) → setting.Content → Found
  | .package, content => { found with package := some content }
  | .importJson, content => { found with importJson := some content }
  | .indentation, content => { found with indentation := some content }

@[simp]
theorem get_ofGet (get : (setting : Setting) → Option setting.Content) (setting : Setting) :
    (ofGet get).get setting = get setting := by
  cases setting <;> rfl

@[simp]
theorem get_set_self (found : Found) (setting : Setting) (content : setting.Content) :
    (found.set setting content).get setting = some content := by
  cases setting <;> rfl

theorem get_set_of_ne (found : Found) {setting other : Setting} (content : setting.Content)
    (h : other ≠ setting) : (found.set setting content).get other = found.get other := by
  cases setting <;> cases other <;> first | rfl | exact absurd rfl h

theorem ext_get {found found' : Found} (h : ∀ setting, found.get setting = found'.get setting) :
    found = found' := by
  obtain ⟨package, importJson, indentation⟩ := found
  obtain ⟨package', importJson', indentation'⟩ := found'
  obtain rfl : package = package' := h .package
  obtain rfl : importJson = importJson' := h .importJson
  obtain rfl : indentation = indentation' := h .indentation
  rfl

theorem has_eq (found : Found) (setting : Setting) :
    found.has setting = (found.get setting).isSome := by
  cases setting <;> rfl

/-- The settings that were found with those of one more member. A known setting is found once, and
its value must be of its type; members of other names change nothing. -/
def take? (known : List Setting) (found : Found) (member : String × Json) : Option Found :=
  match known.find? (·.key = member.1) with
  | some setting =>
    if found.has setting then none else (setting.content? member.2).map (found.set setting)
  | none => some found

end Found

/-! ## Members of a text -/

namespace Found

variable {known : List Setting} {found : Found}

theorem readValue_element (found : Found) (setting : Setting) {text rest : List UInt8}
    {value : Json} (h : Element text value) (hrest : Follows rest) :
    ∃ blanks, Blanks blanks ∧ (found.readValue setting (text ++ rest)).toOption =
      ((setting.content? value).map (found.set setting)).map (·, blanks ++ rest) := by
  cases setting with
  | package => exact reads_readString.map_element (found.set .package) h hrest
  | importJson => exact reads_readBool.map_element (found.set .importJson) h hrest
  | indentation => exact reads_readIndentation.map_element (found.set .indentation) h hrest

/-- A member is read from behind the opening quote of its key. -/
theorem exists_readMember {text : List UInt8} {member : String × Json} (h : Member text member) :
    ∃ before spelled, text = before ++ 0x22 :: spelled ∧ Blanks before ∧
      ∀ (known : List Setting) (found : Found) (rest : List UInt8), Follows rest →
        ∃ blanks, Blanks blanks ∧ (found.readMember known (spelled ++ rest)).toOption =
          (found.take? known member).map (·, blanks ++ rest) := by
  cases h with
  | @pair before key between element name value hbefore hkey hbetween hvalue =>
    obtain ⟨spelled, rfl, htake⟩ := Json.takeQuoted_quoted hkey
    refine ⟨before, spelled ++ (between ++ 0x3A :: element), rfl, hbefore, ?_⟩
    intro known found rest hrest
    have htext : spelled ++ (between ++ 0x3A :: element) ++ rest =
        spelled ++ (between ++ 0x3A :: (element ++ rest)) := by simp
    rw [htext, readMember, htake, take?]
    cases hfind : known.find? (·.key = name) with
    | some setting =>
      by_cases hhas : found.has setting = true
      · refine ⟨[], nofun, ?_⟩
        simp only [hfind, hhas, if_true]
        rfl
      · obtain ⟨blanks, hblanks, hread⟩ := readValue_element found setting hvalue hrest
        refine ⟨blanks, hblanks, ?_⟩
        simp only [hfind, readColon_blanks hbetween, if_neg hhas]
        exact hread
    | none =>
      cases hvalue with
      | padded hfirst hvalue hlast =>
        refine ⟨_, hlast, ?_⟩
        have hskim := Json.skim_value hfirst hvalue (hrest.blanks hlast)
        simp only [hfind, readColon_blanks hbetween, List.append_assoc, hskim]
        rfl

/-! ## Objects of settings -/

/-- Reads on where a key must come. -/
def readNext? (known : List Setting) (found : Found) (text : List UInt8) :
    Option (Found × List UInt8) :=
  match peek .endInValue text with
  | .ok (byte, rest) => if byte = 0x22 then (found.readMembers known rest).toOption else none
  | .error _ => none

/-- Reads on behind a member. -/
def readOn? (known : List Setting) (found : Found) (text : List UInt8) :
    Option (Found × List UInt8) :=
  match peek .endInObject text with
  | .ok (byte, rest) =>
    if byte = 0x7D then some (found, rest)
    else if byte = 0x2C then found.readNext? known rest
    else none
  | .error _ => none

theorem readMembers_eq (known : List Setting) (found : Found) (text : List UInt8) :
    (found.readMembers known text).toOption =
      (found.readMember known text).toOption.bind fun result =>
        result.1.readOn? known result.2 := by
  rw [readMembers]
  split
  · rename_i hmember
    rw [hmember]
    rfl
  · rename_i found' rest hmember
    rw [hmember]
    show _ = found'.readOn? known rest
    unfold readOn? readNext?
    split
    · rename_i hend
      rw [hend]
      rfl
    · rename_i byte rest' hend
      rw [hend]
      simp only
      split_ifs with hclose hcomma
      · rfl
      · split
        · rename_i hkey
          rw [hkey]
          rfl
        · rename_i byte' rest'' hkey
          rw [hkey]
          simp only
          split_ifs <;> rfl
      · rfl

theorem readOn?_blanks (known : List Setting) (found : Found) {blanks : List UInt8}
    (h : Blanks blanks) (rest : List UInt8) :
    found.readOn? known (blanks ++ rest) = found.readOn? known rest := by
  unfold readOn?
  rw [peek_append _ h]

/-- Where a key must come, a member is taken. -/
theorem readNext?_member {text rest : List UInt8} {member : String × Json}
    (h : Member text member) (hrest : Follows rest) :
    found.readNext? known (text ++ rest) =
      (found.take? known member).bind fun found => found.readOn? known rest := by
  obtain ⟨before, spelled, rfl, hbefore, hmember⟩ := exists_readMember h
  obtain ⟨blanks, hblanks, hread⟩ := hmember known found rest hrest
  rw [readNext?, List.append_assoc, List.cons_append, peek_blanks _ hbefore (by decide)]
  show (found.readMembers known (spelled ++ rest)).toOption = _
  rw [readMembers_eq, hread]
  cases found.take? known member with
  | none => rfl
  | some found => exact readOn?_blanks known found hblanks rest

/-- Where a key must come, members are taken one after the other. -/
theorem readNext?_members {text : List UInt8} {members : List (String × Json)} :
    Members text members → ∀ rest : List UInt8, Follows rest →
      found.readNext? known (text ++ rest) =
        (members.foldlM (take? known) found).bind fun found => found.readOn? known rest
  | .one h, rest, hrest => by
    rw [readNext?_member h hrest, List.foldlM_cons]
    cases found.take? known _ <;> rfl
  | .more h hlast, rest, hrest => by
    rw [List.append_assoc, List.cons_append, readNext?_members h _ (Json.follows_cons (.inl rfl)),
      List.foldlM_append]
    cases List.foldlM (take? known) found _ with
    | none => rfl
    | some found =>
      -- behind the comma another key must come
      refine (readNext?_member hlast hrest).trans ?_
      show _ = (List.foldlM (take? known) found [_]).bind _
      rw [List.foldlM_cons]
      cases found.take? known _ <;> rfl

end Found

theorem readObject_members {known : List Setting} {text rest : List UInt8}
    {members : List (String × Json)} (h : Members text members) :
    (readObject known (text ++ 0x7D :: rest)).toOption =
      (members.foldlM (Found.take? known) {}).map (·, rest) := by
  have hnext : (readObject known (text ++ 0x7D :: rest)).toOption =
      ({} : Found).readNext? known (text ++ 0x7D :: rest) := by
    obtain ⟨first, more, member, others, rfl, _, hfirst, _⟩ := exists_first h
    obtain ⟨before, spelled, rfl, hbefore, _⟩ := Found.exists_readMember hfirst
    have hquote : isBlank 0x22 = false := by decide
    rw [readObject, Found.readNext?, List.append_assoc, List.append_assoc, List.cons_append,
      peek_blanks _ hbefore hquote, peek_blanks _ hbefore hquote]
    rfl
  rw [hnext, Found.readNext?_members h _ (Json.follows_cons (by decide))]
  cases members.foldlM (Found.take? known) {} <;> rfl

/-- Reading an object of settings comes to taking its members one after the other. -/
theorem readSettings_object {known : List Setting} {text : List UInt8}
    {members : List (String × Json)} (h : Document text (.object members)) :
    (readSettings known text).toOption = members.foldlM (Found.take? known) {} := by
  cases h with
  | @padded before inner after _ hbefore h hafter =>
    obtain ⟨inner, rfl, hinner⟩ := object_of_value h
    have hread : (readObject known (inner ++ 0x7D :: after)).toOption =
        (members.foldlM (Found.take? known) {}).map (·, after) := by
      rcases hinner with ⟨rfl, hinner⟩ | hinner
      · rw [readObject, peek_closing _ hinner]
        rfl
      · exact readObject_members hinner
    have hcontainer : readContainer known (before ++ ((0x7B :: (inner ++ [0x7D])) ++ after)) =
        readObject known (inner ++ 0x7D :: after) := by
      rw [readContainer, List.cons_append, peek_blanks _ hbefore (by decide), List.append_assoc]
      rfl
    rw [readSettings, hcontainer]
    cases hobject : readObject known (inner ++ 0x7D :: after) with
    | error refusal =>
      rw [hobject] at hread
      exact (Option.map_eq_none_iff.mp hread.symm).symm
    | ok result =>
      rw [hobject] at hread
      obtain ⟨found, hfound, rfl⟩ := Option.map_eq_some_iff.mp hread.symm
      have hend : Json.skipBlanks after = [] := by
        have hskip := skipBlanks_append hafter []
        rwa [List.append_nil] at hskip
      simp only [hfound, hend]
      rfl

end StructSketch.Go
