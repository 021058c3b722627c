import StructSketch.Proofs.ObservedObjects

/-!
# The names that records are given

* **`ClaimedNames.IsNameOf taken base name`**: a base gets its own name, or, if that is among the
  names taken, a numbered one; a numbered name is the base with some digits (`IsNameOf.digits`).
* **`Outline.NamedAfter taken base`**: every record of an outline has a name of the name it asks
  for. The names taken are those that the outline is left with (`Outline.namedAfter_ofJson`), for
  a whole sample the names of its records (`Outline.namedAfter_ofSample`).
* **`Outline.namedAfter_ofJson_of_nodup`**: where no name is asked for twice, none is numbered.
-/

namespace StructSketch

namespace ClaimedNames

/-! ## Names of a base -/

/-- A name that a base can get: its own, or a numbered one if its own is taken. -/
def IsNameOf (taken : Finset String) (base name : String) : Prop :=
  name = base ∨ base ∈ taken ∧ ∃ number, 2 ≤ number ∧ name = numbered base number

variable {used used' taken taken' : Finset String} {base name : String} {names : List String}

theorem IsNameOf.mono (h : IsNameOf taken base name) (hsub : taken ⊆ taken') :
    IsNameOf taken' base name := by
  rcases h with h | ⟨hbase, hnumber⟩
  · exact .inl h
  · exact .inr ⟨hsub hbase, hnumber⟩

/-- Where no name is taken, a base gets its own. -/
theorem IsNameOf.eq_base (h : IsNameOf ∅ base name) : name = base := by
  rcases h with h | ⟨hmem, _⟩
  · exact h
  · cases hmem

theorem isNameOf_freeName (used : Finset String) (base : String) :
    IsNameOf used base (freeName used base) := by
  unfold freeName
  split
  · rename_i hbase
    exact .inr ⟨hbase, _, (Nat.find_spec (exists_free used base)).1, rfl⟩
  · exact .inl rfl

/-- A name of a base is the base followed by digits. -/
theorem IsNameOf.digits (h : IsNameOf taken base name) :
    ∃ digits : List Char, name.toList = base.toList ++ digits ∧ ∀ c ∈ digits, c.isDigit := by
  rcases h with rfl | ⟨_, number, _, rfl⟩
  · exact ⟨[], (List.append_nil _).symm, fun c hc => by cases hc⟩
  · refine ⟨(toString number).toList, String.toList_append, ?_⟩
    intro c hc
    rw [Nat.toString_eq_repr, Nat.toList_repr] at hc
    exact Nat.isDigit_of_mem_toDigits (by omega) (Nat.le_refl _) hc

/-- What a name of a base has, the base has too, or it is a digit. -/
theorem IsNameOf.mem_or_isDigit (h : IsNameOf taken base name) {c : Char}
    (hc : c ∈ name.toList) : c ∈ base.toList ∨ c.isDigit := by
  obtain ⟨digits, hname, hdigits⟩ := h.digits
  rw [hname] at hc
  exact (List.mem_append.mp hc).imp_right (hdigits c)

/-- Behind taken names those are in use that were in use before and those that were taken. -/
theorem Takes.mem_iff (h : Takes used names used') :
    name ∈ used' ↔ name ∈ used ∨ name ∈ names := by
  induction h with
  | done => simp
  | take _ _ ih =>
    rw [ih, Finset.mem_insert, List.mem_cons]
    tauto

end ClaimedNames

namespace Outline

/-! ## Names of an outline -/

/-- Every record has a name of the name it asks for: the one of its key, and `base` for those that
stand under no key. -/
inductive NamedAfter (taken : Finset String) : String → Outline → Prop
  | scalar {base s} : NamedAfter taken base (.scalar s)
  | array {base element} : NamedAfter taken base element → NamedAfter taken base (.array element)
  | record {base name members} : ClaimedNames.IsNameOf taken base name →
      (∀ m ∈ members, NamedAfter taken (Go.nameOfKey m.1) m.2) →
      NamedAfter taken base (.record name members)

variable {taken taken' : Finset String} {base : String} {o : Outline}

theorem NamedAfter.mono (h : o.NamedAfter taken base) (hsub : taken ⊆ taken') :
    o.NamedAfter taken' base := by
  induction h with
  | scalar => exact .scalar
  | array _ ih => exact .array ih
  | record hname _ ih => exact .record (hname.mono hsub) ih

/-- The members of every record are named after their keys. -/
theorem NamedAfter.of_mem_records (h : o.NamedAfter taken base) {name : String}
    {members : List (String × Outline)} (hmem : (name, members) ∈ o.records) :
    ∀ m ∈ members, m.2.NamedAfter taken (Go.nameOfKey m.1) := by
  induction h with
  | scalar => cases hmem
  | array _ ih => exact ih hmem
  | record _ hmembers ih =>
    rw [records_record] at hmem
    rcases List.mem_cons.mp hmem with hmem | hmem
    · cases hmem
      exact hmembers
    · obtain ⟨m, hm, hmem⟩ := List.mem_flatMap.mp hmem
      exact ih m hm hmem

/-- Naming values only adds names to those in use. -/
theorem subset_ofMembers (used : Finset String) (members : List (String × Json)) :
    used ⊆ (ofMembers used members).2 := by
  intro name hname
  exact (takes_ofMembers used members).mem_iff.mpr (.inl hname)

mutual

/-- Naming a value gives its records names of the names they ask for. -/
theorem namedAfter_ofJson (used : Finset String) (base : String) : (value : Json) →
    (ofJson used base value).1.NamedAfter (ofJson used base value).2 base
  | .null => .scalar
  | .boolean _ => .scalar
  | .number _ => .scalar
  | .string _ => .scalar
  | .array [] => .array .scalar
  | .array (item :: _) => .array (namedAfter_ofJson used base item)
  | .object members => by
    have hused : used ⊆ (ofMembers (insert (ClaimedNames.freeName used base) used) members).2 :=
      (Finset.subset_insert _ _).trans (subset_ofMembers _ members)
    exact .record ((ClaimedNames.isNameOf_freeName used base).mono hused)
      (namedAfter_ofMembers _ members)

theorem namedAfter_ofMembers (used : Finset String) : (members : List (String × Json)) →
    ∀ m ∈ (ofMembers used members).1,
      m.2.NamedAfter (ofMembers used members).2 (Go.nameOfKey m.1)
  | [] => by
    intro m hm
    cases hm
  | (key, value) :: rest => by
    intro m hm
    rcases List.mem_cons.mp hm with rfl | hm
    · exact (namedAfter_ofJson used (Go.nameOfKey key) value).mono (subset_ofMembers _ rest)
    · exact namedAfter_ofMembers _ rest m hm

end

/-- In a whole sample the names taken are those of its records. -/
theorem namedAfter_ofSample (rootName : String) (sample : Json) :
    (ofSample rootName sample).NamedAfter (ofSample rootName sample).names.toFinset rootName := by
  refine (namedAfter_ofJson ∅ rootName sample).mono fun name hname => ?_
  rcases (takes_ofJson ∅ rootName sample).mem_iff.mp hname with hname | hname
  · cases hname
  · exact List.mem_toFinset.mpr hname

end Outline

/-! ## Names that nobody else asks for -/

namespace Outline

mutual

/-- Where no name is asked for twice and none is in use, every record gets the name it asks for. -/
theorem namedAfter_ofJson_of_nodup (used : Finset String) (base : String) : (value : Json) →
    ((value.objects base).map Prod.fst).Nodup →
    (∀ o ∈ value.objects base, o.1 ∉ used) →
    (ofJson used base value).1.NamedAfter ∅ base ∧
      (ofJson used base value).1.names = (value.objects base).map Prod.fst
  | .null, _, _ => ⟨.scalar, rfl⟩
  | .boolean _, _, _ => ⟨.scalar, rfl⟩
  | .number _, _, _ => ⟨.scalar, rfl⟩
  | .string _, _, _ => ⟨.scalar, rfl⟩
  | .array [], _, _ => ⟨.array .scalar, rfl⟩
  | .array (item :: _), hnodup, hfree => by
    obtain ⟨hnamed, hnames⟩ := namedAfter_ofJson_of_nodup used base item hnodup hfree
    exact ⟨.array hnamed, hnames⟩
  | .object members, hnodup, hfree => by
    obtain ⟨hbase, hrest⟩ := List.nodup_cons.mp hnodup
    obtain ⟨hbasefree, hrestfree⟩ := List.forall_mem_cons.mp hfree
    -- the base is free, so the object gets it, and no later object asks for it
    have hname : ClaimedNames.freeName used base = base := if_neg hbasefree
    have hlater : ∀ o ∈ Json.memberObjects members, o.1 ∉ insert base used := by
      intro o ho hmem
      rcases Finset.mem_insert.mp hmem with heq | hmem
      · exact hbase (List.mem_map.mpr ⟨o, ho, heq⟩)
      · exact hrestfree o ho hmem
    obtain ⟨hnamed, hnames⟩ := namedAfter_ofMembers_of_nodup _ members hrest hlater
    simp only [ofJson, hname]
    exact ⟨.record (.inl rfl) hnamed, congrArg (List.cons base) hnames⟩

theorem namedAfter_ofMembers_of_nodup (used : Finset String) : (members : List (String × Json)) →
    ((Json.memberObjects members).map Prod.fst).Nodup →
    (∀ o ∈ Json.memberObjects members, o.1 ∉ used) →
    (∀ m ∈ (ofMembers used members).1, m.2.NamedAfter ∅ (Go.nameOfKey m.1)) ∧
      memberNames (ofMembers used members).1 = (Json.memberObjects members).map Prod.fst
  | [], _, _ => ⟨List.forall_mem_nil _, rfl⟩
  | (key, value) :: rest, hnodup, hfree => by
    rw [Json.memberObjects, List.map_append, List.nodup_append] at hnodup
    obtain ⟨hvalue, hrest, hdisjoint⟩ := hnodup
    obtain ⟨hvaluefree, hrestfree⟩ := List.forall_mem_append.mp hfree
    obtain ⟨hnamed, hnames⟩ :=
      namedAfter_ofJson_of_nodup used (Go.nameOfKey key) value hvalue hvaluefree
    -- the rest is named with the names of the value in use
    have hlater : ∀ o ∈ Json.memberObjects rest,
        o.1 ∉ (ofJson used (Go.nameOfKey key) value).2 := by
      intro o ho hmem
      rw [(takes_ofJson used (Go.nameOfKey key) value).mem_iff, hnames] at hmem
      rcases hmem with hmem | hmem
      · exact hrestfree o ho hmem
      · exact hdisjoint _ hmem _ (List.mem_map_of_mem ho) rfl
    obtain ⟨hnamedrest, hnamesrest⟩ := namedAfter_ofMembers_of_nodup _ rest hrest hlater
    refine ⟨List.forall_mem_cons.mpr ⟨hnamed, hnamedrest⟩, ?_⟩
    rw [Json.memberObjects, List.map_append, ← hnames, ← hnamesrest]
    rfl

end

end Outline

end StructSketch
