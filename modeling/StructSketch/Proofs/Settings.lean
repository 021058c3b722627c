import Mathlib.Data.List.Count
import StructSketch.Proofs.SettingObjects

/-!
# Settings as the members of an object

* **`Setting.Given`** says what the members of an object say of one setting, whatever their order.
* **`Found.foldlM_take?_eq_some_iff`**: taking members one after the other is the same for each
  setting alone, and comes to what is given for it (`Setting.foldlM_step_eq_some_iff`).
* **`Setting.exists_given_iff`**: something is given, be it nothing, exactly if the members fit the
  setting (`Setting.Fits`).
* **`read_of_document`**: when an object is read as options and when as a style, what is read, and
  that the two agree.
-/

namespace StructSketch.Go

open Json.Grammar (Blanks Document Element Member Members)

/-! ## What the members say of a setting -/

/-- What one more member says of a setting of which something may have been found. -/
def Setting.step (setting : Setting) (got : Option setting.Content) (member : String × Json) :
    Option (Option setting.Content) :=
  if member.1 = setting.key then
    if got.isSome then none else (setting.content? member.2).map some
  else some got

/-- What the members of an object say of a setting: nothing if no member has its key, and otherwise
its only value, which must be of its type. -/
inductive Setting.Given (setting : Setting) (members : List (String × Json)) :
    Option setting.Content → Prop
  | missing : setting.key ∉ members.map Prod.fst → Given setting members none
  | found {value : Json} {content : setting.Content} :
      (members.map Prod.fst).count setting.key = 1 → (setting.key, value) ∈ members →
      setting.content? value = some content → Given setting members (some content)

theorem Setting.find?_key_eq_some_iff {known : List Setting} {key : String} {setting : Setting} :
    known.find? (·.key = key) = some setting ↔ setting ∈ known ∧ setting.key = key := by
  constructor
  · intro h
    exact ⟨List.mem_of_find?_eq_some h, by simpa using List.find?_some h⟩
  · rintro ⟨hknown, rfl⟩
    cases hfind : known.find? (·.key = setting.key) with
    | none => exact absurd (decide_eq_true rfl) (List.find?_eq_none.mp hfind setting hknown)
    | some other =>
      have hkey : other.key = setting.key := by simpa using List.find?_some hfind
      rw [Setting.key_injective hkey]

/-- What one more member says of a setting among known ones: of any other, nothing. -/
def Setting.stepAmong (known : List Setting) (setting : Setting) (got : Option setting.Content)
    (member : String × Json) : Option (Option setting.Content) :=
  if setting ∈ known then setting.step got member else some got

theorem Setting.stepAmong_of_key {known : List Setting} {setting : Setting}
    {member : String × Json} (h : setting ∈ known ∧ setting.key = member.1)
    (got : Option setting.Content) :
    setting.stepAmong known got member =
      if got.isSome then none else (setting.content? member.2).map some := by
  rw [stepAmong, if_pos h.1, step, if_pos h.2.symm]

theorem Setting.stepAmong_of_not {known : List Setting} {setting : Setting}
    {member : String × Json} (h : ¬ (setting ∈ known ∧ setting.key = member.1))
    (got : Option setting.Content) : setting.stepAmong known got member = some got := by
  unfold stepAmong
  split_ifs with hknown
  · exact if_neg fun hkey => h ⟨hknown, hkey.symm⟩
  · rfl

theorem Found.some_eq_some_iff {found found' : Found} :
    some found = some found' ↔
      ∀ setting, some (found.get setting) = some (found'.get setting) := by
  constructor
  · rintro ⟨⟩ setting
    rfl
  · intro h
    exact congrArg some (ext_get fun setting => Option.some.inj (h setting))

/-- Taking a member is a step for each setting. -/
theorem Found.take?_eq_some_iff {known : List Setting} {found found' : Found}
    {member : String × Json} :
    found.take? known member = some found' ↔ ∀ setting : Setting,
      setting.stepAmong known (found.get setting) member = some (found'.get setting) := by
  unfold take?
  cases hfind : known.find? (·.key = member.1) with
  | none =>
    -- no known setting has this key
    have hstep : ∀ setting : Setting,
        setting.stepAmong known (found.get setting) member = some (found.get setting) := by
      intro setting
      refine Setting.stepAmong_of_not (fun h => ?_) _
      rw [Setting.find?_key_eq_some_iff.mpr h] at hfind
      cases hfind
    simp only [hstep]
    exact some_eq_some_iff
  | some setting =>
    have hkey := Setting.find?_key_eq_some_iff.mp hfind
    have hother : ∀ other, other ≠ setting →
        other.stepAmong known (found.get other) member = some (found.get other) := by
      intro other hne
      refine Setting.stepAmong_of_not (fun h => hne ?_) _
      exact Setting.key_injective (h.2.trans hkey.2.symm)
    simp only [has_eq]
    constructor
    · intro h other
      split_ifs at h with hhas
      obtain ⟨content, hcontent, rfl⟩ := Option.map_eq_some_iff.mp h
      by_cases hsame : other = setting
      · subst hsame
        rw [Setting.stepAmong_of_key hkey, if_neg hhas, hcontent, get_set_self]
        rfl
      · rw [hother other hsame, get_set_of_ne _ _ hsame]
    · intro h
      have hsetting := h setting
      rw [Setting.stepAmong_of_key hkey] at hsetting
      split_ifs at hsetting with hhas
      obtain ⟨content, hcontent, hget⟩ := Option.map_eq_some_iff.mp hsetting
      rw [if_neg hhas, hcontent]
      refine congrArg some (ext_get fun other => ?_)
      by_cases hsame : other = setting
      · subst hsame
        rw [get_set_self, hget]
      · have hrest := h other
        rw [hother other hsame] at hrest
        rw [get_set_of_ne _ _ hsame, Option.some.inj hrest]

/-- Taking members one after the other is the same for each setting alone. -/
theorem Found.foldlM_take?_eq_some_iff {known : List Setting} {found found' : Found}
    {members : List (String × Json)} :
    members.foldlM (take? known) found = some found' ↔ ∀ setting : Setting,
      members.foldlM (setting.stepAmong known) (found.get setting) =
        some (found'.get setting) := by
  induction members generalizing found with
  | nil => exact some_eq_some_iff
  | cons member members ih =>
    simp only [List.foldlM_cons]
    constructor
    · intro h setting
      obtain ⟨next, hnext, hrest⟩ := Option.bind_eq_some_iff.mp h
      exact Option.bind_eq_some_iff.mpr
        ⟨_, take?_eq_some_iff.mp hnext setting, ih.mp hrest setting⟩
    · intro h
      -- what is found behind the first member, setting by setting
      choose get hget hrest using fun setting => Option.bind_eq_some_iff.mp (h setting)
      refine Option.bind_eq_some_iff.mpr ⟨ofGet get, take?_eq_some_iff.mpr fun setting => ?_,
        ih.mpr fun setting => ?_⟩
      · rw [get_ofGet]
        exact hget setting
      · rw [get_ofGet]
        exact hrest setting

namespace Setting

variable {setting : Setting} {members : List (String × Json)} {member : String × Json}
  {got : Option setting.Content}

theorem count_keys_append :
    ((members ++ [member]).map Prod.fst).count setting.key =
      (members.map Prod.fst).count setting.key + if member.1 = setting.key then 1 else 0 := by
  simp only [List.map_append, List.count_append, List.map_singleton, List.count_singleton,
    beq_iff_eq]

/-- A member of another key says nothing of a setting. -/
theorem given_append_of_ne (h : member.1 ≠ setting.key) :
    setting.Given (members ++ [member]) got ↔ setting.Given members got := by
  have hcount := @count_keys_append setting members member
  rw [if_neg h, Nat.add_zero] at hcount
  have hmem : ∀ value, (setting.key, value) ∈ members ++ [member] ↔
      (setting.key, value) ∈ members := by
    intro value
    rw [List.mem_append, List.mem_singleton]
    exact or_iff_left fun heq => h (congrArg Prod.fst heq).symm
  constructor
  · rintro (hmissing | ⟨honce, hvalue, hcontent⟩)
    · exact .missing fun hkey => hmissing (by simp [hkey])
    · exact .found (hcount ▸ honce) ((hmem _).mp hvalue) hcontent
  · rintro (hmissing | ⟨honce, hvalue, hcontent⟩)
    · refine .missing fun hkey => ?_
      rw [← List.count_pos_iff, hcount, List.count_pos_iff] at hkey
      exact hmissing hkey
    · exact .found (hcount ▸ honce) ((hmem _).mpr hvalue) hcontent

/-- A member of the key of a setting must be the first one, and then its value is given. -/
theorem given_append_of_eq (h : member.1 = setting.key) :
    setting.Given (members ++ [member]) got ↔
      setting.Given members none ∧ (setting.content? member.2).map some = some got := by
  have hcount := @count_keys_append setting members member
  rw [if_pos h] at hcount
  have hmember : (setting.key, member.2) = member := by rw [← h]
  constructor
  · rintro (hmissing | ⟨honce, hvalue, hcontent⟩)
    · exact absurd (by simp [h]) hmissing
    · have hnone : setting.key ∉ members.map Prod.fst :=
        List.count_eq_zero.mp (Nat.succ.inj (hcount.symm.trans honce))
      refine ⟨.missing hnone, ?_⟩
      rcases List.mem_append.mp hvalue with hvalue | hvalue
      · exact absurd (List.mem_map_of_mem hvalue) hnone
      · rw [← List.mem_singleton.mp hvalue, hcontent]
        rfl
  · rintro ⟨hmissing, hgot⟩
    obtain ⟨content, hcontent, rfl⟩ := Option.map_eq_some_iff.mp hgot
    cases hmissing with
    | missing hnone =>
      refine .found ?_ ?_ hcontent
      · rw [hcount, List.count_eq_zero.mpr hnone]
      · rw [hmember]
        exact List.mem_append_right _ List.mem_cons_self

/-- What the members say of a setting, one after the other, is what is given for it. -/
theorem foldlM_step_eq_some_iff :
    members.foldlM setting.step none = some got ↔ setting.Given members got := by
  induction members using List.reverseRecOn generalizing got with
  | nil =>
    constructor
    · rintro ⟨⟩
      exact .missing List.not_mem_nil
    · rintro (_ | ⟨_, hvalue, _⟩)
      · rfl
      · cases hvalue
  | append_singleton members member ih =>
    have hfold : (members ++ [member]).foldlM setting.step none = some got ↔
        ∃ earlier, setting.Given members earlier ∧ setting.step earlier member = some got := by
      simp only [List.foldlM_append, List.foldlM_cons, List.foldlM_nil, Option.bind_eq_bind,
        Option.bind_eq_some_iff, ih]
      simp
    rw [hfold]
    by_cases hkey : member.1 = setting.key
    · rw [given_append_of_eq hkey]
      simp only [step, if_pos hkey]
      constructor
      · rintro ⟨_ | _, hearlier, hstep⟩
        · exact ⟨hearlier, hstep⟩
        · cases hstep
      · rintro ⟨hearlier, hstep⟩
        exact ⟨none, hearlier, hstep⟩
    · rw [given_append_of_ne hkey]
      simp only [step, if_neg hkey, Option.some.injEq, exists_eq_right]

/-- Of a setting that is not known nothing is found. -/
theorem foldlM_stepAmong_eq_some_iff {known : List Setting} :
    members.foldlM (setting.stepAmong known) none = some got ↔
      if setting ∈ known then setting.Given members got else got = none := by
  by_cases hknown : setting ∈ known
  · have hstep : setting.stepAmong known = setting.step :=
      funext fun _ => funext fun _ => if_pos hknown
    rw [hstep, if_pos hknown, foldlM_step_eq_some_iff]
  · have hfold : members.foldlM (setting.stepAmong known) none = some none := by
      induction members with
      | nil => rfl
      | cons member members ih =>
        rw [List.foldlM_cons, stepAmong_of_not fun h => hknown h.1]
        exact ih
    rw [hfold, if_neg hknown, Option.some.injEq, eq_comm]

/-- The members of an object fit a setting: its key stands there at most once, and only with a value
of its type. -/
def Fits (setting : Setting) (members : List (String × Json)) : Prop :=
  (members.map Prod.fst).count setting.key ≤ 1 ∧
    ∀ value, (setting.key, value) ∈ members → ∃ content, setting.content? value = some content

/-- A key that stands in an object once has one value there. -/
theorem eq_of_count_eq_one {key : String} {value value' : Json}
    (hcount : (members.map Prod.fst).count key = 1) (h : (key, value) ∈ members)
    (h' : (key, value') ∈ members) : value = value' := by
  induction members with
  | nil => cases h
  | cons first rest ih =>
    simp only [List.map_cons, List.count_cons, beq_iff_eq] at hcount
    by_cases hfirst : first.1 = key
    · rw [if_pos hfirst] at hcount
      have hrest : ∀ value, (key, value) ∉ rest := fun value hvalue =>
        List.count_eq_zero.mp (Nat.succ.inj hcount) (List.mem_map_of_mem hvalue)
      have heq := (List.mem_cons.mp h).resolve_right (hrest value)
      exact congrArg Prod.snd (heq.trans ((List.mem_cons.mp h').resolve_right (hrest value')).symm)
    · have hne : ∀ value, (key, value) ≠ first := by
        rintro value rfl
        exact hfirst rfl
      rw [if_neg hfirst] at hcount
      exact ih hcount ((List.mem_cons.mp h).resolve_left (hne value))
        ((List.mem_cons.mp h').resolve_left (hne value'))

theorem exists_given_iff : (∃ got, setting.Given members got) ↔ setting.Fits members := by
  constructor
  · rintro ⟨_, hmissing | @⟨value, content, honce, hvalue, hcontent⟩⟩
    · refine ⟨by rw [List.count_eq_zero.mpr hmissing]; exact Nat.zero_le _, fun value hvalue => ?_⟩
      exact absurd (List.mem_map_of_mem hvalue) hmissing
    · refine ⟨Nat.le_of_eq honce, fun value' hvalue' => ⟨content, ?_⟩⟩
      rwa [eq_of_count_eq_one honce hvalue' hvalue]
  · rintro ⟨hcount, hfits⟩
    by_cases hkey : setting.key ∈ members.map Prod.fst
    · obtain ⟨member, hmember, hname⟩ := List.mem_map.mp hkey
      have hvalue : (setting.key, member.2) ∈ members := by
        rw [← hname]
        exact hmember
      obtain ⟨content, hcontent⟩ := hfits _ hvalue
      have hpos := List.count_pos_iff.mpr hkey
      exact ⟨some content, .found (by omega) hvalue hcontent⟩
    · exact ⟨none, .missing hkey⟩

end Setting

/-! ## Objects of settings -/

theorem eq_ok_iff {α : Type} {result : Except Refusal α} {value : α} :
    result = .ok value ↔ result.toOption = some value := by
  cases result with
  | ok found =>
    exact ⟨fun h => congrArg _ (Except.ok.inj h), fun h => congrArg _ (Option.some.inj h)⟩
  | error refusal => exact iff_of_false nofun nofun

/-- What is found in an object is what is given there for the known settings. -/
theorem readSettings_eq_ok_iff {known : List Setting} {text : List UInt8}
    {members : List (String × Json)} {found : Found} (h : Document text (.object members)) :
    readSettings known text = .ok found ↔ ∀ setting,
      if setting ∈ known then setting.Given members (found.get setting)
      else found.get setting = none := by
  rw [eq_ok_iff, readSettings_object h, Found.foldlM_take?_eq_some_iff]
  refine forall_congr' fun setting => ?_
  have hnone : ({} : Found).get setting = none := by cases setting <;> rfl
  rw [hnone, Setting.foldlM_stepAmong_eq_some_iff]

variable {text : List UInt8} {members : List (String × Json)}

theorem exists_readSettings_iff {known : List Setting} (h : Document text (.object members)) :
    (∃ found, readSettings known text = .ok found) ↔
      ∀ setting ∈ known, setting.Fits members := by
  simp only [readSettings_eq_ok_iff h]
  constructor
  · rintro ⟨found, hfound⟩ setting hknown
    have hsetting := hfound setting
    rw [if_pos hknown] at hsetting
    exact Setting.exists_given_iff.mp ⟨_, hsetting⟩
  · intro hfits
    have hgiven : ∀ setting : Setting, ∃ got,
        if setting ∈ known then setting.Given members got else got = none := by
      intro setting
      split_ifs with hknown
      · exact Setting.exists_given_iff.mpr (hfits setting hknown)
      · exact ⟨none, rfl⟩
    choose get hget using hgiven
    refine ⟨.ofGet get, fun setting => ?_⟩
    rw [Found.get_ofGet]
    exact hget setting

theorem exists_map_eq_ok_iff {ε α β : Type} {f : α → β} {result : Except ε α} :
    (∃ y, result.map f = .ok y) ↔ ∃ x, result = .ok x := by
  cases result with
  | ok x => exact iff_of_true ⟨f x, rfl⟩ ⟨x, rfl⟩
  | error e => exact iff_of_false nofun nofun

/-- The options that an object gives are the defaults, replaced where a setting is given. -/
theorem FileOptions.read_eq_ok_iff {options : FileOptions} (h : Document text (.object members)) :
    FileOptions.read text = .ok options ↔
      ∃ package importJson, Setting.package.Given members package ∧
        Setting.importJson.Given members importJson ∧
        options = ⟨package.getD ({} : FileOptions).package,
          importJson.getD ({} : FileOptions).importJson⟩ := by
  unfold FileOptions.read
  constructor
  · intro hread
    obtain ⟨found, hfound, rfl⟩ := exists_of_map_eq_ok hread
    have hgiven := (readSettings_eq_ok_iff h).mp hfound
    exact ⟨found.package, found.importJson, hgiven .package, hgiven .importJson, rfl⟩
  · rintro ⟨package, importJson, hpackage, himport, rfl⟩
    have hread : readSettings [.package, .importJson] text = .ok ⟨package, importJson, none⟩ := by
      refine (readSettings_eq_ok_iff h).mpr fun setting => ?_
      cases setting with
      | package => exact hpackage
      | importJson => exact himport
      | indentation => rfl
    rw [hread]
    rfl

/-- The style that an object gives is the default one, replaced where a setting is given. -/
theorem Style.read_eq_ok_iff {style : Style} (h : Document text (.object members)) :
    Style.read text = .ok style ↔
      ∃ package importJson indentation, Setting.package.Given members package ∧
        Setting.importJson.Given members importJson ∧
        Setting.indentation.Given members indentation ∧
        style = ⟨⟨package.getD ({} : Style).package, importJson.getD ({} : Style).importJson⟩,
          indentation.getD ({} : Style).indentation⟩ := by
  unfold Style.read
  constructor
  · intro hread
    obtain ⟨found, hfound, rfl⟩ := exists_of_map_eq_ok hread
    have hgiven := (readSettings_eq_ok_iff h).mp hfound
    exact ⟨found.package, found.importJson, found.indentation, hgiven .package,
      hgiven .importJson, hgiven .indentation, rfl⟩
  · rintro ⟨package, importJson, indentation, hpackage, himport, hindentation, rfl⟩
    have hread : readSettings [.package, .importJson, .indentation] text =
        .ok ⟨package, importJson, indentation⟩ := by
      refine (readSettings_eq_ok_iff h).mpr fun setting => ?_
      cases setting with
      | package => exact hpackage
      | importJson => exact himport
      | indentation => exact hindentation
    rw [hread]
    rfl

/-- An object is read as options, or as a style, exactly if it has no key of a setting twice and
every setting that it has with a value of its type. What is read is the default, replaced where a
setting is given. Without an indentation the two agree. -/
theorem read_of_document (h : Document text (.object members)) :
    ((∃ options, FileOptions.read text = .ok options) ↔
      ∀ setting ∈ [Setting.package, .importJson], setting.Fits members) ∧
    ((∃ style, Style.read text = .ok style) ↔ ∀ setting : Setting, setting.Fits members) ∧
    (∀ options, FileOptions.read text = .ok options ↔
      ∃ package importJson, Setting.package.Given members package ∧
        Setting.importJson.Given members importJson ∧
        options = ⟨package.getD ({} : FileOptions).package,
          importJson.getD ({} : FileOptions).importJson⟩) ∧
    (∀ style, Style.read text = .ok style ↔
      ∃ package importJson indentation, Setting.package.Given members package ∧
        Setting.importJson.Given members importJson ∧
        Setting.indentation.Given members indentation ∧
        style = ⟨⟨package.getD ({} : Style).package, importJson.getD ({} : Style).importJson⟩,
          indentation.getD ({} : Style).indentation⟩) ∧
    (Setting.indentation.key ∉ members.map Prod.fst → ∀ style, Style.read text = .ok style ↔
      ∃ options, FileOptions.read text = .ok options ∧ options.style = style) := by
  refine ⟨?_, ?_, fun options => FileOptions.read_eq_ok_iff h, fun style => Style.read_eq_ok_iff h,
    fun hmissing style => ?_⟩
  · rw [← exists_readSettings_iff h]
    exact exists_map_eq_ok_iff
  · have hall : (∀ setting : Setting, setting.Fits members) ↔
        ∀ setting ∈ [Setting.package, .importJson, .indentation], setting.Fits members :=
      ⟨fun hfits setting _ => hfits setting,
        fun hfits setting => hfits setting (by cases setting <;> decide)⟩
    rw [hall, ← exists_readSettings_iff h]
    exact exists_map_eq_ok_iff
  · rw [Style.read_eq_ok_iff h]
    simp only [FileOptions.read_eq_ok_iff h]
    constructor
    · rintro ⟨package, importJson, indentation, hpackage, himport, hindentation, rfl⟩
      obtain rfl : indentation = none := by
        cases hindentation with
        | missing => rfl
        | found _ hvalue _ => exact absurd (List.mem_map_of_mem hvalue) hmissing
      exact ⟨_, ⟨package, importJson, hpackage, himport, rfl⟩, rfl⟩
    · rintro ⟨_, ⟨package, importJson, hpackage, himport, rfl⟩, rfl⟩
      exact ⟨package, importJson, none, hpackage, himport, .missing hmissing, rfl⟩

/-- A text without quotes, backslashes and control characters is its own spelling. -/
theorem quoted_bytes {content : String}
    (h : content.toList.all (fun c => 0x20 ≤ c.toNat && c != '"' && c != '\\') = true) :
    Json.Grammar.Quoted (0x22 :: (Text.bytes content ++ [0x22])) content := by
  refine .quotes ?_
  unfold Text.bytes
  generalize content.toList = cs at h
  induction cs with
  | nil => exact .nil
  | cons c cs ih =>
    simp only [List.all_cons, Bool.and_eq_true, decide_eq_true_eq, bne_iff_ne] at h
    obtain ⟨⟨⟨hcontrol, hquote⟩, hbackslash⟩, hcs⟩ := h
    rw [List.flatMap_cons]
    exact .cons (.unescaped hcontrol hquote hbackslash) (ih hcs)

/-- An object of options in another order, with a blank and an unknown member. -/
def optionsDocument : List UInt8 :=
  Text.bytes "\x7b\"import_json\":true, \"x\":[\x7b\x7d],\"package\":\"m\"\x7d"

/-- The members of that object. -/
def optionsMembers : List (String × Json) :=
  [("import_json", .boolean true), ("x", .array [.object []]), ("package", .string "m")]

theorem document_optionsDocument : Document optionsDocument (.object optionsMembers) := by
  have hnone : Blanks [] := nofun
  have hblank : Blanks [0x20] := fun byte hbyte => .inl (List.mem_singleton.mp hbyte)
  have himport : Member _ ("import_json", .boolean true) :=
    .pair hnone (quoted_bytes (by decide)) hnone (.padded hnone .trueWord hnone)
  have hunknown : Member _ ("x", .array [.object []]) :=
    .pair hblank (quoted_bytes (by decide)) hnone
      (.padded hnone (.array (.one (.padded hnone (.emptyObject hnone) hnone))) hnone)
  have hpackage : Member _ ("package", .string "m") :=
    .pair hnone (quoted_bytes (by decide)) hnone
      (.padded hnone (.string (quoted_bytes (by decide))) hnone)
  have hmembers := Members.more (.more (.one himport) hunknown) hpackage
  have hdocument := Element.padded hnone (.object hmembers) hnone
  exact hdocument

/-- That object is read as options and as a style, and the two agree. -/
theorem read_of_document_options :
    Document optionsDocument (.object optionsMembers) ∧
      FileOptions.read optionsDocument = .ok ⟨"m", true⟩ ∧
      Style.read optionsDocument = .ok ⟨⟨"m", true⟩, .tab⟩ := by
  obtain ⟨_, _, hoptions, _, hagree⟩ := read_of_document document_optionsDocument
  have hpackage : Setting.package.Given optionsMembers (some "m") :=
    .found (by decide) (List.mem_of_getElem? (by rfl : optionsMembers[2]? = _)) rfl
  have himport : Setting.importJson.Given optionsMembers (some true) :=
    .found (by decide) (List.mem_of_getElem? (by rfl : optionsMembers[0]? = _)) rfl
  have hread : FileOptions.read optionsDocument = .ok ⟨"m", true⟩ :=
    (hoptions _).mpr ⟨_, _, hpackage, himport, rfl⟩
  exact ⟨document_optionsDocument, hread, (hagree (by decide) _).mpr ⟨_, hread, rfl⟩⟩

end StructSketch.Go
