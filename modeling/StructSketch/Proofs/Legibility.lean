import StructSketch.Proofs.Generation
import StructSketch.Proofs.Lines
import StructSketch.Proofs.Shape

/-!
# Reading declarations back

The declarations of a sample determine its shape, as far as no key has a backquote or an opening
bracket. A line ends its declaring part at the first backquote and its key before the second one; a
block ends where a line would start with a brace; and the blocks follow the lines in their order, so
they fold back into the tree.

* **`Outline.sameType_of_declared_eq`**: what a line declares determines the type of the member.
* **`Outline.line_inj`** and **`Outline.block_inj`**: texts that start with lines or blocks have the
  same first line or block.
* **`Outline.shape_eq_of_text`**: outlines with one text have one shape.
* **`shape_eq_of_generate_eq`**: so have samples with one text.
-/

namespace StructSketch

/-- Texts are equal up to the first place of a character, and behind it. -/
theorem append_cons_inj {c : Char} {before before' after after' : List Char}
    (hbefore : c ∉ before) (hbefore' : c ∉ before')
    (h : before ++ c :: after = before' ++ c :: after') : before = before' ∧ after = after' := by
  induction before generalizing before' with
  | nil =>
    cases before' with
    | nil => exact ⟨rfl, (List.cons.inj h).2⟩
    | cons d rest =>
      obtain rfl := (List.cons.inj h).1
      exact absurd List.mem_cons_self hbefore'
  | cons d rest ih =>
    cases before' with
    | nil =>
      obtain rfl := (List.cons.inj h).1
      exact absurd List.mem_cons_self hbefore
    | cons d' rest' =>
      obtain ⟨rfl, htail⟩ := List.cons.inj h
      obtain ⟨rfl, hafter⟩ := ih (fun hmem => hbefore (List.mem_cons_of_mem _ hmem))
        (fun hmem => hbefore' (List.mem_cons_of_mem _ hmem)) htail
      exact ⟨rfl, hafter⟩

namespace Outline

/-- An outline whose text can be read back: its records have names of the names they ask for, and
its keys have no backquote and no opening bracket. -/
structure Legible (taken : Finset String) (base : String) (o : Outline) : Prop where
  named : o.NamedAfter taken base
  keys : ∀ r ∈ o.records, ∀ m ∈ r.2, '\x60' ∉ m.1.toList ∧ '[' ∉ m.1.toList

variable {taken taken' : Finset String} {base name key : String} {o o' : Outline}
  {members : List (String × Outline)}

theorem Legible.element {element : Outline} (h : Legible taken base (.array element)) :
    Legible taken base element := by
  cases h.named with | array hnamed
  exact ⟨hnamed, h.keys⟩

theorem Legible.member (h : Legible taken base (.record name members)) {m : String × Outline}
    (hm : m ∈ members) : Legible taken (Go.nameOfKey m.1) m.2 := by
  cases h.named with | record _ hnamed
  exact ⟨hnamed m hm, fun r hr => h.keys r (mem_records_of_member hm hr)⟩

theorem Legible.key_of_mem (h : Legible taken base (.record name members)) {m : String × Outline}
    (hm : m ∈ members) : '\x60' ∉ m.1.toList ∧ '[' ∉ m.1.toList := by
  refine h.keys (name, members) ?_ m hm
  rw [records_record]
  exact List.mem_cons_self

/-- The outline of a sample is legible if its observed keys are. -/
theorem legible_ofSample {rootName : String} {sample : Json}
    (h : ∀ o ∈ sample.objects rootName, ∀ m ∈ o.2, '\x60' ∉ m.1.toList ∧ '[' ∉ m.1.toList) :
    Legible (ofSample rootName sample).names.toFinset rootName (ofSample rootName sample) := by
  refine ⟨namedAfter_ofSample rootName sample, ?_⟩
  exact forall_keys_records (P := fun key => '\x60' ∉ key.toList ∧ '[' ∉ key.toList) h

/-! ## Types -/

/-- The name of a record under a key does not start with a small letter. -/
theorem head_name (h : ClaimedNames.IsNameOf taken (Go.nameOfKey key) name) {c : Char}
    {rest : List Char} (hname : name.toList = c :: rest) : c.toNat < 0x61 ∨ 0x7A < c.toNat := by
  obtain ⟨digits, hdigits, hdigit⟩ := h.digits
  rw [hname] at hdigits
  cases hbase : (Go.nameOfKey key).toList with
  | nil =>
    -- the name is a number alone
    rw [hbase, List.nil_append] at hdigits
    have hc := hdigit c (hdigits ▸ List.mem_cons_self)
    simp only [Char.isDigit, Bool.and_eq_true, decide_eq_true_eq, UInt32.le_iff_toNat_le] at hc
    exact .inl (Nat.lt_of_le_of_lt hc.2 (by decide))
  | cons d tail =>
    rw [hbase, List.cons_append, List.cons.injEq] at hdigits
    rw [hdigits.1]
    exact Go.head_nameOfKey hbase

/-- The type of a scalar starts with a small letter. -/
theorem head_scalarType (s : Scalar) : ∃ c rest, (Go.scalarType s).toList = c :: rest ∧
    0x61 ≤ c.toNat ∧ c.toNat ≤ 0x7A := by
  cases s <;> exact ⟨_, _, rfl, by decide, by decide⟩

theorem scalarType_injective : Function.Injective Go.scalarType := by
  intro s t h
  cases s <;> cases t <;> first | rfl | exact absurd h (by decide)

theorem toList_type_array (element : Outline) :
    (type (.array element)).toList = '[' :: ']' :: element.type.toList := by
  rw [type, String.toList_append]
  rfl

theorem scalarType_ne_array (s : Scalar) (element : Outline) :
    Go.scalarType s ≠ type (.array element) := by
  intro h
  obtain ⟨c, rest, hc, hlow, _⟩ := head_scalarType s
  rw [h, toList_type_array, List.cons.injEq] at hc
  rw [← hc.1] at hlow
  exact absurd hlow (by decide)

theorem name_ne_scalarType (h : ClaimedNames.IsNameOf taken (Go.nameOfKey key) name) (s : Scalar) :
    name ≠ Go.scalarType s := by
  rintro rfl
  obtain ⟨c, rest, hc, hlow, hhigh⟩ := head_scalarType s
  rcases head_name h hc with hc | hc <;> omega

theorem name_ne_array (h : ClaimedNames.IsNameOf taken (Go.nameOfKey key) name)
    (hkey : '[' ∉ key.toList) (element : Outline) : name ≠ type (.array element) := by
  rintro rfl
  refine notMem_name h rfl ?_ (c := '[') ?_
  · exact fun hmem => hkey (Go.mem_of_mem_nameOfKey hmem (by decide) (by decide))
  · rw [toList_type_array]
    exact List.mem_cons_self

/-- The text of a type determines the type, under one key without an opening bracket. -/
theorem sameType_of_type_eq (hkey : '[' ∉ key.toList) (h : o.NamedAfter taken (Go.nameOfKey key))
    (h' : o'.NamedAfter taken' (Go.nameOfKey key)) (htype : o.type = o'.type) :
    o.SameType o' := by
  induction o using Outline.induct generalizing o' with
  | scalar s =>
    cases h' with
    | scalar =>
      obtain rfl := scalarType_injective htype
      exact .scalar
    | array _ => exact absurd htype (scalarType_ne_array s _)
    | record hname _ => exact absurd htype.symm (name_ne_scalarType hname s)
  | array element ih =>
    cases h with | array h
    cases h' with
    | scalar => exact absurd htype.symm (scalarType_ne_array _ element)
    | array h' =>
      refine .array (ih h h' ?_)
      rw [← String.toList_inj, toList_type_array, toList_type_array] at htype
      exact String.toList_inj.mp (List.cons.inj (List.cons.inj htype).2).2
    | record hname _ => exact absurd htype.symm (name_ne_array hname hkey element)
  | record name members _ =>
    cases h with | record hname _
    cases h' with
    | scalar => exact absurd htype (name_ne_scalarType hname _)
    | array _ => exact absurd htype (name_ne_array hname hkey _)
    | record _ _ =>
      obtain rfl : name = _ := htype
      exact .record

/-- A member declares the name of the record that it is, or the name of its key with a type. -/
theorem declared_cases (o : Outline) (key : String) :
    (∃ name members, o = .record name members) ∨
      o.declared key = Go.nameOfKey key ++ " " ++ o.type := by
  cases o with
  | record name members => exact .inl ⟨name, members, rfl⟩
  | scalar s => exact .inr rfl
  | array element => exact .inr rfl

/-- A name of a base is not the base with a type. -/
theorem name_ne_declared (h : ClaimedNames.IsNameOf taken base name) (type : String) :
    name ≠ base ++ " " ++ type := by
  rintro rfl
  obtain ⟨digits, hdigits, hdigit⟩ := h.digits
  rw [String.toList_append, String.toList_append, List.append_assoc,
    List.append_cancel_left_eq] at hdigits
  exact absurd (hdigit ' ' (hdigits ▸ List.mem_cons_self)) (by decide)

/-- What a line declares determines the type of its member. -/
theorem sameType_of_declared_eq (hkey : '[' ∉ key.toList)
    (h : o.NamedAfter taken (Go.nameOfKey key)) (h' : o'.NamedAfter taken' (Go.nameOfKey key))
    (hdeclared : o.declared key = o'.declared key) : o.SameType o' := by
  rcases o.declared_cases key with ⟨name, members, rfl⟩ | htype
  · cases h with | record hname _
    rcases o'.declared_cases key with ⟨name', members', rfl⟩ | htype'
    · obtain rfl : name = name' := hdeclared
      exact .record
    · exact absurd (hdeclared.trans htype') (name_ne_declared hname _)
  · rcases o'.declared_cases key with ⟨name', members', rfl⟩ | htype'
    · cases h' with | record hname' _
      exact absurd (hdeclared.symm.trans htype) (name_ne_declared hname' _)
    · rw [htype, htype', String.append_right_inj] at hdeclared
      exact sameType_of_type_eq hkey h h' hdeclared

/-! ## Lines and blocks -/

/-- Texts that start with lines have the same first line. -/
theorem line_inj {m m' : String × Outline} {rest rest' : List Char}
    (hkey : '\x60' ∉ m.1.toList) (hkey' : '\x60' ∉ m'.1.toList)
    (hdeclared : '\x60' ∉ (m.2.declared m.1).toList)
    (hdeclared' : '\x60' ∉ (m'.2.declared m'.1).toList)
    (h : (line "\t" m).toList ++ rest = (line "\t" m').toList ++ rest') :
    m.1 = m'.1 ∧ m.2.declared m.1 = m'.2.declared m'.1 ∧ rest = rest' := by
  have hcut : ∀ (m : String × Outline) (rest : List Char), (line "\t" m).toList ++ rest =
      ('\t' :: (m.2.declared m.1).toList ++ [' ']) ++
        '\x60' :: (Go.tagText m.1 ++ '\x60' :: '\n' :: rest) := by
    intro m rest
    rw [toList_line]
    simp
  have hnone : ∀ {text : List Char}, '\x60' ∉ text → '\x60' ∉ '\t' :: text ++ [' '] := by
    intro text htext
    simp [htext]
  rw [hcut, hcut] at h
  obtain ⟨hhead, htail⟩ := append_cons_inj (hnone hdeclared) (hnone hdeclared') h
  obtain ⟨htag, hrest⟩ := append_cons_inj (Go.backquote_notMem_tagText hkey)
    (Go.backquote_notMem_tagText hkey') htail
  refine ⟨?_, ?_, ?_⟩
  · rw [Go.tagText, Go.tagText, List.append_cancel_right_eq, List.append_cancel_left_eq] at htag
    exact String.toList_inj.mp htag
  · rw [List.append_cancel_right_eq, List.cons.injEq] at hhead
    exact String.toList_inj.mp hhead.2
  · exact (List.cons.inj hrest).2

/-- Members with the same keys and the same declaring parts of their lines. -/
def SameLines (members members' : List (String × Outline)) : Prop :=
  List.Forall₂ (fun m m' => m.1 = m'.1 ∧ m.2.declared m.1 = m'.2.declared m'.1) members members'

/-- The lines of a block, which end before a closing brace, are the same line by line. -/
theorem lines_inj {members members' : List (String × Outline)} {rest rest' : List Char}
    (hclear : ∀ m ∈ members, '\x60' ∉ m.1.toList ∧ '\x60' ∉ (m.2.declared m.1).toList)
    (hclear' : ∀ m ∈ members', '\x60' ∉ m.1.toList ∧ '\x60' ∉ (m.2.declared m.1).toList)
    (h : (members.flatMap fun m => (line "\t" m).toList) ++ '\x7d' :: rest =
      (members'.flatMap fun m => (line "\t" m).toList) ++ '\x7d' :: rest') :
    SameLines members members' ∧ rest = rest' := by
  have htab : ∀ m : String × Outline, ∃ tail, (line "\t" m).toList = '\t' :: tail := by
    intro m
    rw [toList_line]
    exact ⟨_, rfl⟩
  induction members generalizing members' with
  | nil =>
    cases members' with
    | nil => exact ⟨.nil, (List.cons.inj h).2⟩
    | cons m' tail' =>
      obtain ⟨tail, htail⟩ := htab m'
      rw [List.flatMap_cons, htail] at h
      exact absurd (List.cons.inj h).1 (by decide)
  | cons m tail ih =>
    cases members' with
    | nil =>
      obtain ⟨tail, htail⟩ := htab m
      rw [List.flatMap_cons, htail] at h
      exact absurd (List.cons.inj h).1 (by decide)
    | cons m' tail' =>
      obtain ⟨⟨hkey, hdeclared⟩, hclear⟩ := List.forall_mem_cons.mp hclear
      obtain ⟨⟨hkey', hdeclared'⟩, hclear'⟩ := List.forall_mem_cons.mp hclear'
      rw [List.flatMap_cons, List.flatMap_cons, List.append_assoc, List.append_assoc] at h
      obtain ⟨hkeys, hsame, htail⟩ := line_inj hkey hkey' hdeclared hdeclared' h
      obtain ⟨hlines, hrest⟩ := ih hclear hclear' htail
      exact ⟨.cons ⟨hkeys, hsame⟩ hlines, hrest⟩

/-- Texts that start with blocks of one name have the same lines in them. -/
theorem block_inj {members members' : List (String × Outline)} {rest rest' : List Char}
    (hlegible : Legible taken base (.record name members))
    (hlegible' : Legible taken' base (.record name members'))
    (h : (block "\t" name members).toList ++ rest = (block "\t" name members').toList ++ rest') :
    SameLines (byName members) (byName members') ∧ rest = rest' := by
  have hblock : ∀ (members : List (String × Outline)) (rest : List Char),
      (block "\t" name members).toList ++ rest =
        ("type " ++ name ++ " struct \x7b\n").toList ++
          (((byName members).flatMap fun m => (line "\t" m).toList) ++ '\x7d' :: '\n' :: rest) := by
    intro members rest
    rw [block, String.toList_append, String.toList_append, String.toList_join, List.flatMap_map,
      List.append_assoc, List.append_assoc]
    rfl
  have hclear : ∀ {taken : Finset String} {members : List (String × Outline)},
      Legible taken base (.record name members) →
      ∀ m ∈ byName members, '\x60' ∉ m.1.toList ∧ '\x60' ∉ (m.2.declared m.1).toList := by
    intro taken members hlegible m hm
    have hm := (byName_perm members).mem_iff.mp hm
    have hkey := (hlegible.key_of_mem hm).1
    exact ⟨hkey, backquote_notMem_declared (hlegible.member hm).named hkey⟩
  rw [hblock, hblock, List.append_cancel_left_eq] at h
  obtain ⟨hlines, hrest⟩ := lines_inj (hclear hlegible) (hclear hlegible') h
  exact ⟨hlines, (List.cons.inj hrest).2⟩

/-! ## Texts -/

/-- The text of a record is its block, and then the texts of its members. -/
theorem toList_text_record (indent name : String) (members : List (String × Outline)) :
    (text indent (.record name members)).toList = (block indent name members).toList ++
      (byName members).flatMap fun m => (m.2.text indent).toList := by
  simp only [text, blocks_record, String.toList_join, List.flatMap_cons, List.flatMap_assoc]

/-- Texts that start with the texts of members with the same lines agree on the members one by one,
as far as the text of each member can be read back. -/
theorem texts_inj {members members' : List (String × Outline)} {rest rest' : List Char}
    (hlines : SameLines members members')
    (hread : ∀ m ∈ members, ∀ m' ∈ members', m.1 = m'.1 →
      m.2.declared m.1 = m'.2.declared m'.1 → ∀ rest rest' : List Char,
      (m.2.text "\t").toList ++ rest = (m'.2.text "\t").toList ++ rest' →
        m.2.shape = m'.2.shape ∧ rest = rest')
    (h : (members.flatMap fun m => (m.2.text "\t").toList) ++ rest =
      (members'.flatMap fun m => (m.2.text "\t").toList) ++ rest') :
    List.Forall₂ (fun m m' => m.1 = m'.1 ∧ m.2.shape = m'.2.shape) members members' ∧
      rest = rest' := by
  induction hlines with
  | nil => exact ⟨.nil, h⟩
  | cons hline _ ih =>
    rw [List.flatMap_cons, List.flatMap_cons, List.append_assoc, List.append_assoc] at h
    obtain ⟨hshape, htail⟩ :=
      hread _ List.mem_cons_self _ List.mem_cons_self hline.1 hline.2 _ _ h
    obtain ⟨hshapes, hrest⟩ := ih
      (fun m hm m' hm' => hread m (List.mem_cons_of_mem _ hm) m' (List.mem_cons_of_mem _ hm')) htail
    exact ⟨.cons ⟨hline.1, hshape⟩ hshapes, hrest⟩

/-- Texts that start with the texts of outlines of one type start with outlines of one shape. -/
theorem shape_eq_of_text (hlegible : Legible taken base o) (hlegible' : Legible taken' base o')
    (hsame : o.SameType o') {rest rest' : List Char}
    (h : (o.text "\t").toList ++ rest = (o'.text "\t").toList ++ rest') :
    o.shape = o'.shape ∧ rest = rest' := by
  induction o using Outline.induct generalizing base o' rest rest' with
  | scalar s =>
    cases hsame
    exact ⟨rfl, h⟩
  | array element ih =>
    cases hsame with | array hsame
    obtain ⟨hshape, hrest⟩ := ih hlegible.element hlegible'.element hsame h
    exact ⟨congrArg Shape.array hshape, hrest⟩
  | record name members ih =>
    cases hsame with | @record _ _ members'
    rw [toList_text_record, toList_text_record, List.append_assoc, List.append_assoc] at h
    obtain ⟨hlines, htexts⟩ := block_inj hlegible hlegible' h
    -- members with the same line have one type, so their texts can be told apart from the rest
    have hread : ∀ m ∈ byName members, ∀ m' ∈ byName members', m.1 = m'.1 →
        m.2.declared m.1 = m'.2.declared m'.1 → ∀ rest rest' : List Char,
        (m.2.text "\t").toList ++ rest = (m'.2.text "\t").toList ++ rest' →
          m.2.shape = m'.2.shape ∧ rest = rest' := by
      rintro ⟨key, o⟩ hm ⟨key', o'⟩ hm' rfl hdeclared rest rest' htext
      have hm := (byName_perm members).mem_iff.mp hm
      have hmember := hlegible.member hm
      have hmember' := hlegible'.member ((byName_perm members').mem_iff.mp hm')
      have hsame := sameType_of_declared_eq (hlegible.key_of_mem hm).2 hmember.named
        hmember'.named hdeclared
      exact ih _ hm hmember hmember' hsame htext
    obtain ⟨hshapes, hrest⟩ := texts_inj hlines hread htexts
    exact ⟨shape_record_inj.mpr hshapes, hrest⟩

end Outline

/-- Two samples with the same declarations have one shape: the same keys, the same nesting and the
same classes of scalars in what is observed of them, as far as no key there has a backquote or an
opening bracket. -/
theorem shape_eq_of_generate_eq {rootName : String} {sample sample' : List UInt8}
    {members members' : List (String × Json)}
    (hparse : Json.parse sample = .ok (.object members))
    (hparse' : Json.parse sample' = .ok (.object members'))
    (hkeys : ∀ o ∈ (Json.object members).objects rootName, ∀ m ∈ o.2,
      '\x60' ∉ m.1.toList ∧ '[' ∉ m.1.toList)
    (hkeys' : ∀ o ∈ (Json.object members').objects rootName, ∀ m ∈ o.2,
      '\x60' ∉ m.1.toList ∧ '[' ∉ m.1.toList)
    (h : generate rootName sample = generate rootName sample') :
    (Json.object members).shape = (Json.object members').shape := by
  rw [generate_of_ofSample hparse, generate_of_ofSample hparse', Except.ok.injEq] at h
  -- the literals that were read are of the grammar, so the outlines have the shapes of the samples
  have hshape := Outline.shape_ofJson (Json.wellFormed_of_parse hparse) ∅ rootName
  have hshape' := Outline.shape_ofJson (Json.wellFormed_of_parse hparse') ∅ rootName
  rw [← hshape, ← hshape']
  -- both roots have the free name, whatever stands below them
  have hsame : (Outline.ofSample rootName (.object members)).SameType
      (Outline.ofSample rootName (.object members')) := .record
  have htext : ((Outline.ofSample rootName (.object members)).text "\t").toList ++ [] =
      ((Outline.ofSample rootName (.object members')).text "\t").toList ++ [] := by
    rw [h]
  exact (Outline.shape_eq_of_text (Outline.legible_ofSample hkeys)
    (Outline.legible_ofSample hkeys') hsame htext).1

/-- A document whose arrays have one item too many, or none. -/
def listsDocument : List UInt8 := Text.bytes "\x7b\"a\":[\x7b\"b\":1\x7d,true],\"c\":[]\x7d"

/-- A document with the same declarations. -/
def listsDocument' : List UInt8 := Text.bytes "\x7b\"a\":[\x7b\"b\":2\x7d],\"c\":[null]\x7d"

/-- The members of the first document. -/
def listsMembers : List (String × Json) :=
  [("a", .array [.object [("b", .number "1")], .boolean true]), ("c", .array [])]

/-- The members of the second document. -/
def listsMembers' : List (String × Json) :=
  [("a", .array [.object [("b", .number "2")]]), ("c", .array [.null])]

theorem parse_listsDocument : Json.parse listsDocument = .ok (.object listsMembers) := by
  with_unfolding_all rfl

theorem parse_listsDocument' : Json.parse listsDocument' = .ok (.object listsMembers') := by
  with_unfolding_all rfl

theorem generate_listsDocument :
    generate "Root" listsDocument = generate "Root" listsDocument' := by
  rw [generate_of_ofSample parse_listsDocument, generate_of_ofSample parse_listsDocument']
  have hone : Scalar.ofNumber "1" = .int := by with_unfolding_all rfl
  have htwo : Scalar.ofNumber "2" = .int := by with_unfolding_all rfl
  simp only [Outline.ofSample, Outline.ofJson, Outline.ofMembers, listsMembers, listsMembers', hone,
    htwo]

theorem shape_eq_of_generate_eq_listsDocument :
    generate "Root" listsDocument = generate "Root" listsDocument' ∧
      (Json.object listsMembers).shape = (Json.object listsMembers').shape := by
  exact ⟨generate_listsDocument, shape_eq_of_generate_eq parse_listsDocument parse_listsDocument'
    (by decide) (by decide) generate_listsDocument⟩

end StructSketch
