import Mathlib.Data.Finset.Card
import Mathlib.Data.Finset.Image
import Mathlib.Data.Nat.Find
import Mathlib.Order.Bounds.Defs
import Mathlib.Order.Interval.Finset.Nat
import Std.Data.TreeSet.Lemmas
import StructSketch.Schema.ClaimedNames

/-!
# The names that are given out

A base name that is taken gets the least number that makes it free:

* **numbering is injective** (`numbered_injective`) and never gives the base itself back
  (`numbered_ne`), so among the numbers from two on there is a free one (`exists_free`), and the
  names in use bound the numbers that are passed before it (`le_card_of_taken`);
* **the bounded search finds the least of them** (`isLeast_freeNumber`, `choose_eq_freeName`): the
  claimed names are too few to take every candidate and the base besides;
* **claiming** adds exactly the name that was given out (`names_claim`).
-/

namespace StructSketch

namespace ClaimedNames

/-! ## Numbered names -/

theorem numbered_injective (base : String) : Function.Injective (numbered base) := by
  intro m n h
  have hdigits : Nat.toDigits 10 m = Nat.toDigits 10 n := by
    have hrepr : toString m = toString n := (String.append_right_inj base).mp h
    simpa only [Nat.toString_eq_repr, Nat.toList_repr] using congrArg String.toList hrepr
  have hvalue := congrArg (fun digits => Nat.ofDigitChars 10 digits 0) hdigits
  simpa using hvalue

theorem numbered_ne (base : String) (number : Nat) : numbered base number ≠ base := by
  intro h
  have hlength := congrArg String.length h
  have hpos : 0 < (toString number).length := by
    rw [Nat.toString_eq_repr, ← String.length_toList, Nat.toList_repr]
    exact Nat.length_toDigits_pos
  simp only [numbered, String.length_append] at hlength
  omega

/-- A base and its numbered names below some number are as many names as that: where all of them
are in use, the number is bounded by how many names are. -/
theorem le_card_of_taken {used : Finset String} {base : String} {number : Nat}
    (hbase : base ∈ used)
    (htaken : ∀ passed, 2 ≤ passed → passed < number → numbered base passed ∈ used) :
    number ≤ used.card + 1 := by
  have hsub : insert base ((Finset.Ico 2 number).image (numbered base)) ⊆ used := by
    intro name hname
    rcases Finset.mem_insert.mp hname with rfl | hname
    · exact hbase
    · obtain ⟨passed, hpassed, rfl⟩ := Finset.mem_image.mp hname
      obtain ⟨hge, hlt⟩ := Finset.mem_Ico.mp hpassed
      exact htaken passed hge hlt
  -- the base is none of its numbered names
  have hnew : base ∉ (Finset.Ico 2 number).image (numbered base) := by
    intro hmem
    obtain ⟨passed, _, heq⟩ := Finset.mem_image.mp hmem
    exact numbered_ne base passed heq
  have hcard := Finset.card_le_card hsub
  rw [Finset.card_insert_of_notMem hnew,
    Finset.card_image_of_injective _ (numbered_injective base), Nat.card_Ico] at hcard
  omega

/-- Whatever names are in use, some number from two on makes a free one. -/
theorem exists_free (used : Finset String) (base : String) :
    ∃ number, 2 ≤ number ∧ numbered base number ∉ used := by
  by_contra hnone
  push Not at hnone
  -- the names in use would then hold more numbered names than there are names in use
  have hsub : (Finset.Ico 2 (used.card + 3)).image (numbered base) ⊆ used := by
    intro name hname
    obtain ⟨number, hnumber, rfl⟩ := Finset.mem_image.mp hname
    exact hnone number (Finset.mem_Ico.mp hnumber).1
  have hcard := Finset.card_le_card hsub
  rw [Finset.card_image_of_injective _ (numbered_injective base), Nat.card_Ico] at hcard
  omega

/-- The name that a base gets while some names are in use: the base itself if it is free, or
else the base with the least number from two on that makes it so. -/
def freeName (used : Finset String) (base : String) : String :=
  if base ∈ used then numbered base (Nat.find (exists_free used base)) else base

/-- With no names in use every base is free. -/
@[simp]
theorem freeName_empty (base : String) : freeName ∅ base = base := if_neg (Finset.notMem_empty _)

theorem freeName_notMem (used : Finset String) (base : String) : freeName used base ∉ used := by
  unfold freeName
  split
  · exact (Nat.find_spec (exists_free used base)).2
  · assumption

/-! ## The claimed names as a set -/

/-- The set of the claimed names. -/
def names (claimed : ClaimedNames) : Finset String := claimed.toList.toFinset

@[simp]
theorem mem_names {claimed : ClaimedNames} {name : String} :
    name ∈ claimed.names ↔ name ∈ claimed := by
  simp [names]

@[simp]
theorem names_empty : names ∅ = ∅ := by
  ext name
  simp

theorem names_insert (claimed : ClaimedNames) (name : String) :
    names (claimed.insert name) = insert name claimed.names := by
  ext other
  rw [mem_names, Finset.mem_insert, mem_names, Std.TreeSet.mem_insert, Std.compare_eq_iff_eq,
    eq_comm]

theorem card_names_le (claimed : ClaimedNames) : claimed.names.card ≤ claimed.size := by
  calc claimed.names.card ≤ claimed.toList.length := List.toFinset_card_le _
    _ = claimed.size := Std.TreeSet.length_toList

/-! ## The bounded search -/

/-- The search stops at a free name or at its bound, and everything it passed is taken. -/
theorem freeNumber_spec (claimed : ClaimedNames) (base : String) (bound number : Nat) :
    number ≤ claimed.freeNumber base bound number ∧
      (∀ passed, number ≤ passed → passed < claimed.freeNumber base bound number →
        numbered base passed ∈ claimed) ∧
      (numbered base (claimed.freeNumber base bound number) ∈ claimed →
        claimed.freeNumber base bound number = number + bound) := by
  induction bound generalizing number with
  | zero =>
    refine ⟨Nat.le_refl _, ?_, fun _ => rfl⟩
    intro passed hle hlt
    exact absurd hlt (Nat.not_lt.mpr hle)
  | succ bound ih =>
    obtain ⟨hle, hpassed, hend⟩ := ih (number + 1)
    unfold freeNumber
    by_cases htaken : numbered base number ∈ claimed
    · simp only [if_pos htaken]
      refine ⟨by omega, ?_, fun h => by rw [hend h]; omega⟩
      intro passed hge hlt
      rcases Nat.eq_or_lt_of_le hge with rfl | hgt
      · exact htaken
      · exact hpassed passed hgt hlt
    · simp only [if_neg htaken]
      refine ⟨Nat.le_refl _, ?_, fun h => absurd h htaken⟩
      intro passed hge hlt
      exact absurd hlt (Nat.not_lt.mpr hge)

/-- With the base taken, the search from two on passes fewer numbers than there are claimed names:
the base and what it passes are claimed. -/
theorem freeNumber_le {claimed : ClaimedNames} {base : String} (hbase : base ∈ claimed) :
    claimed.freeNumber base claimed.size 2 ≤ claimed.size + 1 := by
  obtain ⟨_, hpassed, _⟩ := freeNumber_spec claimed base claimed.size 2
  have hbound := le_card_of_taken (mem_names.mpr hbase) fun passed hge hlt =>
    mem_names.mpr (hpassed passed hge hlt)
  exact hbound.trans (Nat.succ_le_succ (card_names_le claimed))

/-- So it does not come to its bound, and ends at a free name. -/
theorem numbered_freeNumber_notMem {claimed : ClaimedNames} {base : String}
    (hbase : base ∈ claimed) :
    numbered base (claimed.freeNumber base claimed.size 2) ∉ claimed := by
  intro htaken
  obtain ⟨_, _, hend⟩ := freeNumber_spec claimed base claimed.size 2
  have hbound := freeNumber_le hbase
  rw [hend htaken] at hbound
  omega

/-- With the base taken, the search from two on ends at the least number of a free name. -/
theorem isLeast_freeNumber {claimed : ClaimedNames} {base : String} (hbase : base ∈ claimed) :
    IsLeast {number | 2 ≤ number ∧ numbered base number ∉ claimed}
      (claimed.freeNumber base claimed.size 2) := by
  obtain ⟨hle, hpassed, _⟩ := freeNumber_spec claimed base claimed.size 2
  refine ⟨⟨hle, numbered_freeNumber_notMem hbase⟩, ?_⟩
  rintro number ⟨hge, hfree⟩
  by_contra hlt
  exact hfree (hpassed number hge (Nat.lt_of_not_le hlt))

theorem freeNumber_eq_find {claimed : ClaimedNames} {base : String} (hbase : base ∈ claimed) :
    claimed.freeNumber base claimed.size 2 = Nat.find (exists_free claimed.names base) := by
  obtain ⟨hfree, hleast⟩ := isLeast_freeNumber hbase
  symm
  rw [Nat.find_eq_iff]
  simp only [mem_names]
  exact ⟨hfree, fun number hlt hnumber => Nat.not_lt.mpr (hleast hnumber) hlt⟩

/-- The name that is given out is the one that the base gets among the claimed names. -/
theorem choose_eq_freeName (claimed : ClaimedNames) (base : String) :
    claimed.choose base = freeName claimed.names base := by
  unfold choose freeName
  by_cases hbase : base ∈ claimed
  · rw [if_pos hbase, if_pos (mem_names.mpr hbase), freeNumber_eq_find hbase]
  · rw [if_neg hbase, if_neg (fun h => hbase (mem_names.mp h))]

theorem names_claim (claimed : ClaimedNames) (base : String) :
    (claimed.claim base).2.names = insert (freeName claimed.names base) claimed.names := by
  show names (claimed.insert (claimed.choose base)) = _
  rw [names_insert, choose_eq_freeName]

end ClaimedNames

end StructSketch
