import Mathlib.Data.List.Nodup
import StructSketch.CommandLine.Arguments

/-!
# What command lines ask for

* **`Choice`** is one thing that a command line asks for, and **`Choice.Spelling`** lists the
  arguments that it can be written by.
* **`Spells`**: the arguments of a command line, told as choices in their order.
* **`Sketch.ofChoices`**: the sketch that some choices ask for, with defaults for the others.
* **`Request.ofArguments_eq_sketch`**: the command lines that ask for a sketch are those that spell
  choices, each of them once, and they ask for the sketch of these choices.
-/

namespace StructSketch.CommandLine

/-! ## Choices -/

/-- One thing that a command line asks for. -/
inductive Choice where
  | set (parameter : Parameter) (value : String)
  | importJson
deriving DecidableEq

namespace Choice

/-- The arguments that a choice is written by: the value stands behind an equals sign, right behind
the letter, or in an argument of its own that does not look like an option. -/
inductive Spelling : Choice → List String → Prop
  | long {parameter value} :
      Spelling (.set parameter value) ["--" ++ parameter.longName ++ "=" ++ value]
  | longApart {parameter value} : Form.of value = .plain →
      Spelling (.set parameter value) ["--" ++ parameter.longName, value]
  | short {parameter value} : value ≠ "" → value.toList.head? ≠ some '=' →
      Spelling (.set parameter value) ["-" ++ String.singleton parameter.letter ++ value]
  | shortEquals {parameter value} :
      Spelling (.set parameter value) ["-" ++ String.singleton parameter.letter ++ "=" ++ value]
  | shortApart {parameter value} : Form.of value = .plain →
      Spelling (.set parameter value) ["-" ++ String.singleton parameter.letter, value]
  | importJson : Spelling .importJson ["--import-json"]

/-- The value that a choice gives an option. -/
def value? (parameter : Parameter) : Choice → Option String
  | .set other value => if other = parameter then some value else none
  | .importJson => none

/-- A file name is not empty. -/
def Allowed : Choice → Prop
  | .set .input value | .set .output value => value ≠ ""
  | _ => True

/-- The option that a choice gives a value; none for the import. -/
def parameter? : Choice → Option Parameter
  | .set parameter _ => some parameter
  | .importJson => none

end Choice

/-- The arguments of a command line spell some choices, in their order. Two dashes may end them. -/
inductive Spells : List Choice → List String → Prop
  | nil : Spells [] []
  | rest : Spells [] ["--"]
  | cons {choice choices spelling arguments} : Choice.Spelling choice spelling →
      Spells choices arguments → Spells (choice :: choices) (spelling ++ arguments)

/-- The value that some choices give an option. -/
def valueOf (choices : List Choice) (parameter : Parameter) : Option String :=
  choices.findSome? (Choice.value? parameter)

/-- The sketch that some choices ask for: without a name the root is `Root`, and without a package
the package is `main`. -/
def Sketch.ofChoices (choices : List Choice) : Sketch :=
  { input := valueOf choices .input
    output := valueOf choices .output
    session :=
      { rootName := (valueOf choices .name).getD "Root"
        options :=
          { package := (valueOf choices .package).getD "main"
            importJson := choices.contains .importJson } } }

/-! ## Single arguments -/

theorem Form.of_eq_rest {argument : String} (h : Form.of argument = .rest) : argument = "--" := by
  unfold Form.of at h
  split at h
  · rename_i htext
    exact String.toList_inj.mp htext
  · split at h <;> cases h
  · cases h
  · cases h

/-- What stands behind two dashes: a name, and a value behind an equals sign. -/
theorem Form.of_eq_long {argument : String} {name : List Char} {value : Option (List Char)}
    (h : Form.of argument = .long name value) :
    argument.toList = '-' :: '-' :: name ++ (value.map ('=' :: ·)).getD [] := by
  unfold Form.of at h
  split at h
  · cases h
  · rename_i text _ htext
    rw [htext]
    split at h
    · rename_i hnone
      cases h
      simp
    · rename_i c rest hsome
      cases h
      have hhead := List.head?_dropWhile_not (fun c : Char => decide (c ≠ '=')) text
      rw [hsome] at hhead
      obtain rfl : c = '=' := by simpa using hhead
      have hsplit : text.takeWhile (· ≠ '=') ++ '=' :: rest = text := by
        rw [← hsome]
        exact List.takeWhile_append_dropWhile
      exact congrArg (fun text => '-' :: '-' :: text) hsplit.symm
  · cases h
  · cases h

/-- What stands behind one dash: a letter and more. -/
theorem Form.of_eq_short {argument : String} {letter : Char} {value : List Char}
    (h : Form.of argument = .short letter value) : argument.toList = '-' :: letter :: value := by
  unfold Form.of at h
  split at h
  · cases h
  · split at h <;> cases h
  · rename_i htext
    cases h
    exact htext
  · cases h

/-- An option stands behind two dashes by its name, or behind one by its letter. -/
theorem Meaning.of_eq_option {argument : String} {parameter : Parameter} {value : Option String}
    (h : Meaning.of argument = .ok (.option parameter value)) :
    argument.toList = '-' :: '-' :: parameter.longName.toList ++
        (value.map ('=' :: ·.toList)).getD [] ∨
      ∃ given, argument.toList = '-' :: parameter.letter :: given ∧ value = attached? given := by
  unfold Meaning.of at h
  split at h
  · cases h
  · cases h
  · rename_i name given hform
    split at h
    · rename_i hfound
      cases h
      have hname : parameter.longName.toList = name := by simpa using List.find?_some hfound
      refine .inl ?_
      rw [Form.of_eq_long hform, hname, Option.map_map]
      simp [Function.comp_def]
    all_goals cases h
  · rename_i letter given hform
    split at h
    · rename_i found hfound
      cases h
      have hletter : parameter.letter = letter := by simpa using List.find?_some hfound
      exact .inr ⟨given, by rw [Form.of_eq_short hform, hletter], rfl⟩
    · split_ifs at h <;> cases h

theorem Meaning.of_eq_importJson {argument : String}
    (h : Meaning.of argument = .ok .importJson) : argument = "--import-json" := by
  unfold Meaning.of at h
  split at h
  · cases h
  · cases h
  · rename_i name given hform
    split at h
    · cases h
    · rename_i hname
      have htext := Form.of_eq_long hform
      rw [← String.toList_ofList (l := name), hname] at htext
      exact String.toList_inj.mp htext
    all_goals cases h
  · split at h
    · cases h
    · split_ifs at h <;> cases h

theorem Meaning.of_eq_rest {argument : String} (h : Meaning.of argument = .ok .rest) :
    argument = "--" := by
  unfold Meaning.of at h
  split at h
  · rename_i hform
    exact Form.of_eq_rest hform
  · cases h
  · split at h <;> cases h
  · split at h
    · cases h
    · split_ifs at h <;> cases h

/-- A value in the argument of its option. -/
theorem Meaning.spelling_of_some {argument value : String} {parameter : Parameter}
    (h : Meaning.of argument = .ok (.option parameter (some value))) :
    (Choice.set parameter value).Spelling [argument] := by
  rcases Meaning.of_eq_option h with htext | ⟨given, htext, hvalue⟩
  · have hargument : argument = "--" ++ parameter.longName ++ "=" ++ value :=
      String.toList_inj.mp (by simp [htext])
    rw [hargument]
    exact .long
  · unfold attached? at hvalue
    split at hvalue
    · cases hvalue
    · rename_i rest
      obtain rfl := Option.some.inj hvalue
      have hargument : argument =
          "-" ++ String.singleton parameter.letter ++ "=" ++ String.ofList rest :=
        String.toList_inj.mp (by simp [htext])
      rw [hargument]
      exact .shortEquals
    · rename_i hne hequals
      obtain rfl := Option.some.inj hvalue
      have hargument : argument =
          "-" ++ String.singleton parameter.letter ++ String.ofList given :=
        String.toList_inj.mp (by simp [htext])
      rw [hargument]
      cases given with
      | nil => exact absurd rfl hne
      | cons c rest =>
        refine .short (by simp) fun hhead => ?_
        exact hequals rest (by simpa using hhead)

/-- A value in an argument of its own. -/
theorem Meaning.spelling_of_none {argument value : String} {parameter : Parameter}
    (h : Meaning.of argument = .ok (.option parameter none)) (hplain : Form.of value = .plain) :
    (Choice.set parameter value).Spelling [argument, value] := by
  rcases Meaning.of_eq_option h with htext | ⟨given, htext, hvalue⟩
  · have hargument : argument = "--" ++ parameter.longName :=
      String.toList_inj.mp (by simp [htext])
    rw [hargument]
    exact .longApart hplain
  · unfold attached? at hvalue
    split at hvalue
    · have hargument : argument = "-" ++ String.singleton parameter.letter :=
        String.toList_inj.mp (by simp [htext])
      rw [hargument]
      exact .shortApart hplain
    · cases hvalue
    · cases hvalue

/-! ## Spelled arguments -/

section

variable (parameter : Parameter)

theorem Meaning.of_long (value : String) :
    Meaning.of ("--" ++ parameter.longName ++ "=" ++ value) =
      .ok (.option parameter (some value)) := by
  have hform : Form.of ("--" ++ parameter.longName ++ "=" ++ value) =
      .long parameter.longName.toList (some value.toList) := by
    cases parameter <;> simp [Form.of, Parameter.longName]
  rw [Meaning.of, hform]
  cases parameter <;> simp [Parameter.all, Parameter.longName]

theorem Meaning.of_longApart :
    Meaning.of ("--" ++ parameter.longName) = .ok (.option parameter none) := by
  cases parameter <;> rfl

theorem Form.of_letter (given : List Char) :
    Form.of (String.ofList ('-' :: parameter.letter :: given)) = .short parameter.letter given := by
  cases parameter <;> simp [Form.of, Parameter.letter]

theorem Meaning.of_letter (given : List Char) :
    Meaning.of (String.ofList ('-' :: parameter.letter :: given)) =
      .ok (.option parameter (attached? given)) := by
  rw [Meaning.of, Form.of_letter]
  cases parameter <;> simp [Parameter.all, Parameter.letter]

end

/-- A spelled value is read as such: in the argument of its option, or in the next one. -/
theorem Choice.Spelling.meaning {parameter : Parameter} {value : String} {spelling : List String}
    (h : (Choice.set parameter value).Spelling spelling) :
    (∃ argument, spelling = [argument] ∧
      Meaning.of argument = .ok (.option parameter (some value))) ∨
    ∃ argument, spelling = [argument, value] ∧
      Meaning.of argument = .ok (.option parameter none) ∧ Form.of value = .plain := by
  have hletter : ∀ {text : String} (given : List Char),
      text.toList = '-' :: parameter.letter :: given →
        Meaning.of text = .ok (.option parameter (attached? given)) := fun given htext => by
    rw [← Meaning.of_letter, ← htext, String.ofList_toList]
  cases h with
  | long => exact .inl ⟨_, rfl, Meaning.of_long _ _⟩
  | longApart hplain => exact .inr ⟨_, rfl, Meaning.of_longApart _, hplain⟩
  | short hne hhead =>
    refine .inl ⟨_, rfl, (hletter value.toList (by simp)).trans ?_⟩
    have hattached : attached? value.toList = some value := by
      unfold attached?
      split
      · rename_i hnil
        exact absurd (String.toList_eq_nil_iff.mp hnil) hne
      · rename_i hequals
        rw [hequals] at hhead
        exact absurd rfl hhead
      · rw [String.ofList_toList]
    rw [hattached]
  | shortEquals =>
    refine .inl ⟨_, rfl, (hletter ('=' :: value.toList) (by simp)).trans ?_⟩
    rw [attached?, String.ofList_toList]
  | shortApart hplain => exact .inr ⟨_, rfl, hletter [] (by simp), hplain⟩

/-! ## Whole command lines -/

namespace Given

/-- Whether an option was given a value; without an option, whether the import was asked for. -/
def has (given : Given) : Option Parameter → Bool
  | some parameter => (given.get? parameter).isSome
  | none => given.importJson

/-- The value of an option, from what was given or else from some choices. -/
def valueWith (given : Given) (choices : List Choice) (parameter : Parameter) : Option String :=
  (given.get? parameter).or (valueOf choices parameter)

/-- The sketch that what was given and some further choices ask for. -/
def sketchWith (given : Given) (choices : List Choice) : Sketch :=
  { input := given.valueWith choices .input
    output := given.valueWith choices .output
    session :=
      { rootName := (given.valueWith choices .name).getD "Root"
        options :=
          { package := (given.valueWith choices .package).getD "main"
            importJson := given.importJson || choices.contains .importJson } } }

theorem sketchWith_nil (given : Given) : given.sketchWith [] = given.sketch := by
  simp [sketchWith, valueWith, valueOf, sketch, get?]

theorem sketchWith_empty (choices : List Choice) :
    ({} : Given).sketchWith choices = .ofChoices choices := by
  simp [sketchWith, valueWith, get?, Sketch.ofChoices]

theorem sketchWith_importJson (given : Given) (choices : List Choice) :
    { given with importJson := true }.sketchWith choices =
      given.sketchWith (.importJson :: choices) := by
  have hvalue : { given with importJson := true }.valueWith choices =
      given.valueWith (.importJson :: choices) := by
    funext parameter
    cases parameter <;> simp [valueWith, valueOf, get?, List.findSome?_cons, Choice.value?]
  simp [sketchWith, hvalue]

variable {given after : Given} {parameter : Parameter} {value : String}

/-- An option that is given a value had none; everything else stays. -/
theorem set_eq_ok (h : given.set parameter value = .ok after) :
    given.get? parameter = none ∧ (Choice.set parameter value).Allowed ∧
      after.importJson = given.importJson ∧
      ∀ other, after.get? other = if other = parameter then some value else given.get? other := by
  unfold set at h
  split at h
  · cases h
  · rename_i hsome
    refine ⟨by simpa using hsome, ?_⟩
    cases parameter <;> dsimp only at h <;> (try split at h) <;> cases h
    all_goals exact ⟨by trivial, rfl, fun other => by cases other <;> rfl⟩

/-- An option that has no value takes one. -/
theorem exists_set (hfree : given.get? parameter = none)
    (hallowed : (Choice.set parameter value).Allowed) :
    ∃ after, given.set parameter value = .ok after := by
  unfold set
  rw [hfree]
  cases parameter <;> simp_all [Choice.Allowed]

theorem sketchWith_set (h : given.set parameter value = .ok after) (choices : List Choice) :
    after.sketchWith choices = given.sketchWith (.set parameter value :: choices) := by
  obtain ⟨hnone, -, himport, hget⟩ := set_eq_ok h
  have hvalue : after.valueWith choices =
      given.valueWith (.set parameter value :: choices) := by
    funext other
    unfold valueWith valueOf
    rw [hget, List.findSome?_cons, Choice.value?]
    split_ifs with heq hne hne
    · rw [heq, hnone]
      rfl
    · exact absurd heq.symm hne
    · exact absurd hne.symm heq
    · rfl
  simp [sketchWith, hvalue, himport]

theorem has_set (h : given.set parameter value = .ok after) (asked : Option Parameter) :
    after.has asked = (given.has asked || asked = some parameter) := by
  obtain ⟨-, -, himport, hget⟩ := set_eq_ok h
  cases asked with
  | none => simp [has, himport]
  | some other =>
    simp only [has, hget]
    split_ifs with heq <;> simp [heq]

/-- Some further choices fit what was given: they are allowed, and nothing is asked for twice. -/
structure Fits (given : Given) (choices : List Choice) : Prop where
  once : (choices.map Choice.parameter?).Nodup
  free : ∀ choice ∈ choices, given.has choice.parameter? = false
  allowed : ∀ choice ∈ choices, choice.Allowed

theorem Fits.nil : given.Fits [] :=
  ⟨List.nodup_nil, fun _ h => (nomatch h), fun _ h => nomatch h⟩

/-- The first choice becomes one of those that were given. -/
theorem fits_cons {choice : Choice} {choices : List Choice}
    (hhas : ∀ asked, after.has asked = (given.has asked || asked = choice.parameter?)) :
    given.Fits (choice :: choices) ↔
      given.has choice.parameter? = false ∧ choice.Allowed ∧ after.Fits choices := by
  have hfree : (∀ other ∈ choices, after.has other.parameter? = false) ↔
      choice.parameter? ∉ choices.map Choice.parameter? ∧
        ∀ other ∈ choices, given.has other.parameter? = false := by
    simp only [hhas, Bool.or_eq_false_iff, decide_eq_false_iff_not, List.mem_map, not_exists,
      not_and, forall_and]
    exact and_comm
  constructor
  · rintro ⟨honce, hgiven, hallowed⟩
    obtain ⟨hnew, honce⟩ := List.nodup_cons.mp honce
    obtain ⟨hfirst, hgiven⟩ := List.forall_mem_cons.mp hgiven
    obtain ⟨hchoice, hallowed⟩ := List.forall_mem_cons.mp hallowed
    exact ⟨hfirst, hchoice, honce, hfree.mpr ⟨hnew, hgiven⟩, hallowed⟩
  · rintro ⟨hfirst, hchoice, honce, hafter, hallowed⟩
    obtain ⟨hnew, hgiven⟩ := hfree.mp hafter
    exact ⟨List.nodup_cons.mpr ⟨hnew, honce⟩, List.forall_mem_cons.mpr ⟨hfirst, hgiven⟩,
      List.forall_mem_cons.mpr ⟨hchoice, hallowed⟩⟩

theorem fits_set {choices : List Choice} (h : given.set parameter value = .ok after) :
    given.Fits (.set parameter value :: choices) ↔ after.Fits choices := by
  obtain ⟨hnone, hallowed, -, -⟩ := set_eq_ok h
  have hfree : given.has (Choice.set parameter value).parameter? = false := by
    simp [has, Choice.parameter?, hnone]
  rw [fits_cons (has_set h)]
  exact ⟨fun hfits => hfits.2.2, fun hfits => ⟨hfree, hallowed, hfits⟩⟩

theorem fits_importJson {choices : List Choice} :
    given.Fits (.importJson :: choices) ↔
      given.importJson = false ∧ { given with importJson := true }.Fits choices := by
  have hhas : ∀ asked, { given with importJson := true }.has asked =
      (given.has asked || asked = Choice.importJson.parameter?) := by
    intro asked
    cases asked with
    | none => simp [has, Choice.parameter?]
    | some other => simp [has, get?, Choice.parameter?]
  rw [fits_cons hhas]
  exact ⟨fun hfits => ⟨hfits.1, hfits.2.2⟩, fun hfits => ⟨hfits.1, trivial, hfits.2⟩⟩

/-- The arguments after those given spell choices that fit what was given. -/
theorem exists_spells_of_readArguments {arguments : List String} {what : Sketch}
    (h : given.readArguments arguments = .ok (.sketch what)) :
    ∃ choices, Spells choices arguments ∧ given.Fits choices ∧
      what = given.sketchWith choices := by
  -- every case that is not named ends with a mistake, the version or the usage
  fun_induction readArguments given arguments with
  | case1 given =>
    cases h
    exact ⟨[], .nil, .nil, given.sketchWith_nil.symm⟩
  | case5 given argument hmeaning =>
    cases h
    rw [Meaning.of_eq_rest hmeaning]
    exact ⟨[], .rest, .nil, given.sketchWith_nil.symm⟩
  | case8 given argument arguments hmeaning hfree ih =>
    obtain ⟨choices, hspells, hfits, rfl⟩ := ih h
    rw [Meaning.of_eq_importJson hmeaning]
    exact ⟨_, .cons .importJson hspells, fits_importJson.mpr ⟨by simpa using hfree, hfits⟩,
      given.sketchWith_importJson choices⟩
  | case9 given argument arguments parameter value hmeaning after hset ih =>
    obtain ⟨choices, hspells, hfits, rfl⟩ := ih h
    exact ⟨_, .cons (Meaning.spelling_of_some hmeaning) hspells, (fits_set hset).mpr hfits,
      sketchWith_set hset choices⟩
  | case12 given argument parameter hmeaning value arguments hplain after hset ih =>
    obtain ⟨choices, hspells, hfits, rfl⟩ := ih h
    exact ⟨_, .cons (Meaning.spelling_of_none hmeaning hplain) hspells, (fits_set hset).mpr hfits,
      sketchWith_set hset choices⟩
  | _ => cases h

/-- Arguments that spell choices which fit what was given are read as these. -/
theorem readArguments_of_spells {choices : List Choice} {arguments : List String}
    (hspells : Spells choices arguments) (hfits : given.Fits choices) :
    given.readArguments arguments = .ok (.sketch (given.sketchWith choices)) := by
  induction hspells generalizing given with
  | nil => rw [readArguments, sketchWith_nil]
  | rest =>
    have hmeaning : Meaning.of "--" = .ok .rest := rfl
    rw [readArguments, hmeaning, sketchWith_nil]
  | @cons choice choices spelling arguments hspelling _ ih =>
    cases choice with
    | importJson =>
      cases hspelling
      have hmeaning : Meaning.of "--import-json" = .ok .importJson := rfl
      obtain ⟨hfree, hfits⟩ := fits_importJson.mp hfits
      rw [List.singleton_append, readArguments.eq_def, ← sketchWith_importJson, ← ih hfits]
      simp [hmeaning, hfree]
    | set parameter value =>
      have hfree : given.get? parameter = none := by
        simpa [has, Choice.parameter?] using hfits.free _ List.mem_cons_self
      obtain ⟨after, hset⟩ := exists_set hfree (hfits.allowed _ List.mem_cons_self)
      rw [← sketchWith_set hset, ← ih ((fits_set hset).mp hfits)]
      rcases hspelling.meaning with ⟨argument, rfl, hmeaning⟩ | ⟨argument, rfl, hmeaning, hplain⟩
      · rw [List.singleton_append, readArguments.eq_def]
        simp only [hmeaning, hset]
      · rw [List.cons_append, List.singleton_append, readArguments.eq_def]
        simp only [hmeaning, hset, hplain, if_true]

end Given

/-- The command lines that ask for a sketch are those that spell allowed choices, each of them at
most once. They ask for the sketch of these choices. -/
theorem Request.ofArguments_eq_sketch {arguments : List String} {what : Sketch} :
    Request.ofArguments arguments = .ok (.sketch what) ↔
      ∃ choices, Spells choices arguments ∧ (choices.map Choice.parameter?).Nodup ∧
        (∀ choice ∈ choices, choice.Allowed) ∧ what = .ofChoices choices := by
  constructor
  · intro h
    obtain ⟨choices, hspells, hfits, rfl⟩ := Given.exists_spells_of_readArguments h
    exact ⟨choices, hspells, hfits.once, hfits.allowed, Given.sketchWith_empty choices⟩
  · rintro ⟨choices, hspells, honce, hallowed, rfl⟩
    have hfree : ∀ choice ∈ choices, ({} : Given).has choice.parameter? = false := by
      rintro (⟨parameter, value⟩ | _) _
      · cases parameter <;> rfl
      · rfl
    rw [Request.ofArguments, Given.readArguments_of_spells hspells ⟨honce, hfree, hallowed⟩,
      Given.sketchWith_empty]

end StructSketch.CommandLine
