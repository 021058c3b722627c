import StructSketch.Go.Name
import StructSketch.Proofs.Utf8

/-!
# The characters of a name

* **`Text.mem_uppercaseCodes`**: a code of an uppercase form comes from one of the two tables, or
  it is a code that stands in neither of them.
* **`Text.eq_of_mem_uppercase`**: an uppercase form has no letter from `a` to `z`, and a
  bracket, a backslash or a backquote is in the uppercase form of itself alone.
* **`Go.mem_of_mem_nameOfKey`**: so a name has no bracket, backslash or backquote that its key does
  not have, and it never begins with a letter from `a` to `z` (`Go.head_nameOfKey`).
-/

namespace StructSketch

namespace Text

/-! ## Uppercase forms -/

/-- Where a code of an uppercase form comes from. -/
theorem mem_uppercaseCodes {code upper : Nat} (h : upper ∈ uppercaseCodes code) :
    (∃ codes, (code, codes) ∈ expansions ∧ upper ∈ codes) ∨
      (∃ run ∈ letterRuns, run.upper? code = some upper) ∨
      (upper = code ∧ ∀ run ∈ letterRuns, run.upper? code = none) := by
  unfold uppercaseCodes at h
  split at h
  · rename_i codes hlookup
    obtain ⟨before, after, heq, _⟩ := List.lookup_eq_some_iff.mp hlookup
    refine .inl ⟨codes, ?_, h⟩
    rw [heq]
    exact List.mem_append_right _ List.mem_cons_self
  · obtain rfl := List.mem_singleton.mp h
    cases hrun : letterRuns.findSome? (·.upper? code) with
    | none => exact .inr (.inr ⟨rfl, List.findSome?_eq_none_iff.mp hrun⟩)
    | some found =>
      obtain ⟨run, hmem, hfound⟩ := List.exists_of_findSome?_eq_some hrun
      exact .inr (.inl ⟨run, hmem, hfound⟩)

/-- The uppercase forms of the runs stand outside the span from the bracket to `z`. -/
theorem uppers_of_mem_letterRuns : ∀ run ∈ letterRuns,
    run.upper + (run.last - run.first) < 0x5B ∨ 0x7A < run.upper := by
  decide +kernel

theorem uppers_of_mem_expansions : ∀ p ∈ expansions, ∀ upper ∈ p.2,
    upper < 0x5B ∨ 0x7A < upper := by
  decide +kernel

/-- The letters from `a` to `z` are a run. -/
theorem lowercase_mem_letterRuns : ⟨0x61, 0x7A, 1, 0x41⟩ ∈ letterRuns := List.mem_cons_self

/-- From the bracket to `z` a code of an uppercase form is its own uppercase form and no letter. -/
theorem eq_of_mem_uppercaseCodes {code upper : Nat} (h : upper ∈ uppercaseCodes code)
    (hge : 0x5B ≤ upper) (hle : upper ≤ 0x7A) : upper = code ∧ upper < 0x61 := by
  rcases mem_uppercaseCodes h with ⟨codes, hmem, hupper⟩ | ⟨run, hmem, hupper⟩ | ⟨rfl, hnone⟩
  · have := uppers_of_mem_expansions _ hmem _ hupper
    omega
  · have hspan := uppers_of_mem_letterRuns run hmem
    unfold LetterRun.upper? at hupper
    split at hupper
    · cases hupper
      omega
    · cases hupper
  · refine ⟨rfl, ?_⟩
    by_contra hletter
    have hrun := hnone _ lowercase_mem_letterRuns
    simp only [LetterRun.upper?, Nat.mod_one] at hrun
    rw [if_pos ⟨by omega, hle, trivial⟩] at hrun
    cases hrun

/-- From the bracket to `z` a character of an uppercase form is its own uppercase form and no
letter. -/
theorem eq_of_mem_uppercase {c d : Char} (h : d ∈ uppercase c) (hge : 0x5B ≤ d.toNat)
    (hle : d.toNat ≤ 0x7A) : d = c ∧ d.toNat < 0x61 := by
  obtain ⟨upper, hupper, rfl⟩ := List.mem_map.mp h
  have hvalue := Char.toNat_ofNat upper
  split at hvalue
  · rw [hvalue] at hge hle ⊢
    obtain ⟨rfl, hlt⟩ := eq_of_mem_uppercaseCodes hupper hge hle
    exact ⟨Char.ofNat_toNat c, hlt⟩
  · omega

theorem uppercase_ne_nil (c : Char) : uppercase c ≠ [] := by
  have hexpansions : ∀ p ∈ expansions, p.2 ≠ [] := by decide +kernel
  unfold uppercase uppercaseCodes
  rw [Ne, List.map_eq_nil_iff]
  split
  · rename_i codes hlookup
    obtain ⟨before, after, heq, _⟩ := List.lookup_eq_some_iff.mp hlookup
    refine hexpansions (c.toNat, codes) ?_
    rw [heq]
    exact List.mem_append_right _ List.mem_cons_self
  · exact List.cons_ne_nil _ _

end Text

namespace Go

/-! ## Names -/

/-- A character of a name is one of the key, or it is in the uppercase form of one. -/
theorem mem_nameChars {atStart : Bool} {key : List Char} {d : Char}
    (h : d ∈ nameChars atStart key) : d ∈ key ∨ ∃ c ∈ key, d ∈ Text.uppercase c := by
  have hlater : ∀ {c : Char} {rest : List Char},
      (d ∈ rest ∨ ∃ c' ∈ rest, d ∈ Text.uppercase c') →
        d ∈ c :: rest ∨ ∃ c' ∈ c :: rest, d ∈ Text.uppercase c' := by
    rintro c rest (hmem | ⟨c', hmem, hupper⟩)
    · exact .inl (List.mem_cons_of_mem _ hmem)
    · exact .inr ⟨c', List.mem_cons_of_mem _ hmem, hupper⟩
  induction key generalizing atStart with
  | nil => cases h
  | cons c rest ih =>
    rw [nameChars] at h
    split_ifs at h
    · exact hlater (ih h)
    · rcases List.mem_append.mp h with h | h
      · exact .inr ⟨c, List.mem_cons_self, h⟩
      · exact hlater (ih h)
    · rcases List.mem_cons.mp h with rfl | h
      · exact .inl List.mem_cons_self
      · exact hlater (ih h)

/-- A name has no bracket, backslash or backquote that its key does not have. -/
theorem mem_of_mem_nameOfKey {key : String} {d : Char} (h : d ∈ (nameOfKey key).toList)
    (hge : 0x5B ≤ d.toNat) (hlt : d.toNat < 0x61) : d ∈ key.toList := by
  rw [nameOfKey, String.toList_ofList] at h
  rcases mem_nameChars h with hmem | ⟨c, hmem, hupper⟩
  · exact hmem
  · obtain ⟨rfl, _⟩ := Text.eq_of_mem_uppercase hupper hge (by omega)
    exact hmem

/-- A part of a name begins like the uppercase form of a character. -/
theorem exists_head_uppercase {key rest : List Char} {d : Char}
    (h : nameChars true key = d :: rest) : ∃ c ∈ key, (Text.uppercase c).head? = some d := by
  induction key with
  | nil => cases h
  | cons c key ih =>
    simp only [nameChars, if_true] at h
    split_ifs at h
    · obtain ⟨c', hc', hhead⟩ := ih h
      exact ⟨c', List.mem_cons_of_mem _ hc', hhead⟩
    · refine ⟨c, List.mem_cons_self, ?_⟩
      cases hupper : Text.uppercase c with
      | nil => exact absurd hupper (Text.uppercase_ne_nil c)
      | cons first others =>
        rw [hupper] at h
        cases h
        rfl

/-- A part of a name begins with no letter from `a` to `z`. -/
theorem head_nameChars {key rest : List Char} {d : Char} (h : nameChars true key = d :: rest) :
    d.toNat < 0x61 ∨ 0x7A < d.toNat := by
  obtain ⟨c, _, hhead⟩ := exists_head_uppercase h
  by_contra hletter
  have := (Text.eq_of_mem_uppercase (List.mem_of_mem_head? hhead) (by omega) (by omega)).2
  omega

theorem head_nameOfKey {key : String} {d : Char} {rest : List Char}
    (h : (nameOfKey key).toList = d :: rest) : d.toNat < 0x61 ∨ 0x7A < d.toNat := by
  rw [nameOfKey, String.toList_ofList] at h
  exact head_nameChars h

end Go

end StructSketch
