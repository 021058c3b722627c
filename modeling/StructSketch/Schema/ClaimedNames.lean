import Std.Data.TreeSet.Basic

/-!
# Claimed names

Record names are given out once.

* **`ClaimedNames.claim`** gives out a base name, or, when that is taken, the base followed by
  the least number from two on that makes it a free name.

Among as many candidates as there are claimed names besides the base, and one more, there is a
free one; so the search is bounded by the number of claimed names.
-/

namespace StructSketch

/-- The names given out so far. -/
abbrev ClaimedNames := Std.TreeSet String

namespace ClaimedNames

/-- A base name followed by a number. -/
def numbered (base : String) (number : Nat) : String := base ++ toString number

/-- The least number from `number` on, and at most `bound` further, that makes a free name. -/
def freeNumber (claimed : ClaimedNames) (base : String) : (bound number : Nat) → Nat
  | 0, number => number
  | bound + 1, number =>
    if numbered base number ∈ claimed then claimed.freeNumber base bound (number + 1)
    else number

/-- The name that a base gets. -/
def choose (claimed : ClaimedNames) (base : String) : String :=
  if base ∈ claimed then numbered base (claimed.freeNumber base claimed.size 2) else base

/-- Gives out a name for a base. -/
def claim (claimed : ClaimedNames) (base : String) : String × ClaimedNames :=
  (claimed.choose base, claimed.insert (claimed.choose base))

end ClaimedNames

end StructSketch
