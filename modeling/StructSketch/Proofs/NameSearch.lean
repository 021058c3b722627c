import StructSketch.Proofs.ClaimedNames

/-!
# The search for a free name

* **`Search`** tries the base and then the base with one number after the other, with a counter
  of any kind and with no bound set beforehand.
* **`Search.Counts.after_cases`** is its course: as far as the counter reads like the numbers, the
  search counts up to the least number of a free name and gives out what claiming gives out.
* **`Search.wraps_iff`**: a counter of 32 bits wraps exactly if the base and every numbered name
  that it can spell from two on are claimed, and these are `2 ^ 31 - 1` names.
* **`claim_least`**: what claiming gives out is the base, or the base with the least number that
  makes it free, and a search comes to that end whatever names are claimed.
-/

namespace StructSketch

namespace ClaimedNames

/-- Where a search for a name stands: it is to try a number, or it has given out a name. -/
inductive Search (Counter : Type) where
  | trying (counter : Counter)
  | given (outcome : String × ClaimedNames)

namespace Search

variable {Counter : Type} {claimed : ClaimedNames} {base : String}

/-- Gives out a name if it is free. -/
def offer (claimed : ClaimedNames) (name : String) (taken : Search Counter) : Search Counter :=
  if name ∈ claimed then taken else .given (name, claimed.insert name)

theorem offer_of_mem {name : String} {taken : Search Counter} (h : name ∈ claimed) :
    offer claimed name taken = taken := if_pos h

theorem offer_of_notMem {name : String} {taken : Search Counter} (h : name ∉ claimed) :
    offer claimed name taken = .given (name, claimed.insert name) := if_neg h

variable [ToString Counter] [Add Counter] [OfNat Counter 1] [OfNat Counter 2]

/-- The base is tried first, and two is the first number. -/
def start (claimed : ClaimedNames) (base : String) : Search Counter :=
  offer claimed base (.trying 2)

/-- A round tries the base with the counter, and counts on if that is taken. -/
def next (claimed : ClaimedNames) (base : String) : Search Counter → Search Counter
  | .trying counter => offer claimed (base ++ toString counter) (.trying (counter + 1))
  | .given outcome => .given outcome

variable (Counter) in
/-- Where a search stands after some rounds. -/
def after (claimed : ClaimedNames) (base : String) : (rounds : Nat) → Search Counter
  | 0 => start claimed base
  | rounds + 1 => next claimed base (after claimed base rounds)

/-- A free base is given out before the first round, and nothing follows. -/
theorem after_of_notMem (hbase : base ∉ claimed) (rounds : Nat) :
    after Counter claimed base rounds = .given (base, claimed.insert base) := by
  induction rounds with
  | zero => exact offer_of_notMem hbase
  | succ rounds ih => rw [after, ih, next]

/-! ## Counting -/

/-- A counter takes a value for each number from two on, and up to a limit that value reads like
the number. -/
structure Counts (value : Nat → Counter) (limit : Nat) : Prop where
  two : value 2 = 2
  add_one : ∀ number, value (number + 1) = value number + 1
  reads : ∀ number, number ≤ limit → toString (value number) = toString number

theorem counts_nat (limit : Nat) : Counts (fun number : Nat => number) limit :=
  ⟨rfl, fun _ => rfl, fun _ _ => rfl⟩

theorem counts_int32 : Counts Int32.ofNat (2 ^ 31 - 1) where
  two := rfl
  add_one number := Int32.ofNat_add number 1
  reads number hlimit := by
    show toString (Int32.ofNat number).toInt = toString number
    rw [Int32.toInt_ofNat_of_lt (by omega)]
    rfl

namespace Counts

variable {value : Nat → Counter} {limit : Nat}

/-- A round at a number within the limit tries its numbered name. -/
theorem next_trying (h : Counts value limit) {number : Nat} (hlimit : number ≤ limit) :
    next claimed base (.trying (value number)) =
      offer claimed (numbered base number) (.trying (value (number + 1))) := by
  rw [next, h.reads number hlimit, h.add_one, numbered]

/-- As long as everything before it is taken, the search comes to a number. -/
theorem after_eq_trying (h : Counts value limit) (hbase : base ∈ claimed) {rounds : Nat}
    (hlimit : rounds + 2 ≤ limit + 1)
    (htaken : ∀ passed, 2 ≤ passed → passed < rounds + 2 → numbered base passed ∈ claimed) :
    after Counter claimed base rounds = .trying (value (rounds + 2)) := by
  induction rounds with
  | zero => rw [after, start, offer_of_mem hbase, h.two]
  | succ rounds ih =>
    have hbefore := ih (by omega) fun passed hge hlt => htaken passed hge (by omega)
    rw [after, hbefore, h.next_trying (by omega),
      offer_of_mem (htaken (rounds + 2) (by omega) (by omega))]

/-- The first free name within the limit is given out, and nothing follows. -/
theorem after_eq_given (h : Counts value limit) (hbase : base ∈ claimed) {number : Nat}
    (hlimit : number ≤ limit)
    (hleast : IsLeast {n | 2 ≤ n ∧ numbered base n ∉ claimed} number) {rounds : Nat}
    (hrounds : number < rounds + 2) :
    after Counter claimed base rounds =
      .given (numbered base number, claimed.insert (numbered base number)) := by
  obtain ⟨⟨htwo, hfree⟩, hbound⟩ := hleast
  induction rounds with
  | zero => omega
  | succ rounds ih =>
    rcases Nat.lt_or_ge number (rounds + 2) with hlt | hge
    · rw [after, ih hlt, next]
    · -- this is the round that tries the number
      obtain rfl : number = rounds + 2 := by omega
      have hbefore := h.after_eq_trying hbase (by omega) fun passed hge hlt =>
        not_not.mp fun hnot => absurd (hbound ⟨hge, hnot⟩) (Nat.not_le.mpr hlt)
      rw [after, hbefore, h.next_trying hlimit, offer_of_notMem hfree]

/-- The course of a search whose base is taken: it counts up to the least number of a free name,
and then it has given out what claiming gives out. -/
theorem after_cases (h : Counts value limit) (hbase : base ∈ claimed)
    (hlimit : claimed.freeNumber base claimed.size 2 ≤ limit) (rounds : Nat) :
    rounds + 2 ≤ claimed.freeNumber base claimed.size 2 ∧
        after Counter claimed base rounds = .trying (value (rounds + 2)) ∨
      claimed.freeNumber base claimed.size 2 < rounds + 2 ∧
        after Counter claimed base rounds = .given (claimed.claim base) := by
  have hleast := isLeast_freeNumber hbase
  rcases Nat.lt_or_ge (claimed.freeNumber base claimed.size 2) (rounds + 2) with hlt | hge
  · refine .inr ⟨hlt, ?_⟩
    rw [h.after_eq_given hbase hlimit hleast hlt, claim, choose, if_pos hbase]
  · refine .inl ⟨hge, h.after_eq_trying hbase (by omega) ?_⟩
    intro passed hpassed hlt
    by_contra hfree
    have hbound := hleast.2 ⟨hpassed, hfree⟩
    omega

/-- A counter that counts beyond the number of claimed names brings the search to its end within
as many rounds as there are claimed names. -/
theorem exists_after_eq_given (h : Counts value limit) (hlimit : claimed.size + 1 ≤ limit) :
    ∃ rounds ≤ claimed.size, after Counter claimed base rounds = .given (claimed.claim base) := by
  by_cases hbase : base ∈ claimed
  · have hbound := freeNumber_le hbase
    have htwo := (isLeast_freeNumber hbase).1.1
    refine ⟨claimed.freeNumber base claimed.size 2 - 1, by omega, ?_⟩
    rcases h.after_cases hbase (by omega) (claimed.freeNumber base claimed.size 2 - 1) with
      ⟨hle, _⟩ | ⟨_, hgiven⟩
    · omega
    · exact hgiven
  · refine ⟨0, Nat.zero_le _, ?_⟩
    rw [after_of_notMem hbase, claim, choose, if_neg hbase]

end Counts

/-! ## Counters of 32 bits -/

/-- A search with a counter of 32 bits wraps if it comes to a counter that is not two more than
the rounds before it. -/
def Wraps (claimed : ClaimedNames) (base : String) : Prop :=
  ∃ rounds counter, after Int32 claimed base rounds = .trying counter ∧
    counter.toInt ≠ rounds + 2

/-- The counter wraps exactly if it passes its greatest number. -/
theorem wraps_iff : Wraps claimed base ↔
    base ∈ claimed ∧ ∀ number, 2 ≤ number → number < 2 ^ 31 → numbered base number ∈ claimed := by
  constructor
  · rintro ⟨rounds, counter, hafter, hcounter⟩
    by_cases hbase : base ∈ claimed
    · refine ⟨hbase, fun number htwo hlt => ?_⟩
      by_contra hfree
      have hbound := (isLeast_freeNumber hbase).2 ⟨htwo, hfree⟩
      rcases counts_int32.after_cases hbase (by omega) rounds with ⟨hle, htrying⟩ | ⟨_, hgiven⟩
      · obtain rfl : Int32.ofNat (rounds + 2) = counter := by
          rw [htrying] at hafter
          exact Search.trying.inj hafter
        exact hcounter (Int32.toInt_ofNat_of_lt (by omega))
      · rw [hgiven] at hafter
        cases hafter
    · rw [after_of_notMem hbase] at hafter
      cases hafter
  · rintro ⟨hbase, htaken⟩
    -- the round in which it goes on from its greatest number
    have hafter : after Int32 claimed base (2 ^ 31 - 2) = .trying (Int32.ofNat (2 ^ 31)) :=
      counts_int32.after_eq_trying hbase (by omega) fun passed htwo hlt => htaken passed htwo hlt
    exact ⟨_, _, hafter, by decide⟩

/-- Too few claimed names for a wrap. -/
theorem not_wraps (hsize : claimed.size < 2 ^ 31 - 1) : ¬ Wraps claimed base := by
  intro hwraps
  obtain ⟨hbase, htaken⟩ := wraps_iff.mp hwraps
  have hbound := le_card_of_taken (mem_names.mpr hbase) fun passed hge hlt =>
    mem_names.mpr (htaken passed hge hlt)
  have hcard := card_names_le claimed
  omega

end Search

/-! ## What is given out -/

/-- A base gets a name: itself if it is free, or else the base with the least number from two on
that makes a free name. -/
structure Gives (claimed : ClaimedNames) (base : String) (outcome : String × ClaimedNames) :
    Prop where
  /-- A base that is free is given out itself. -/
  own : base ∉ claimed → outcome.1 = base
  /-- One that is taken gets the least number, and the claimed names bound that. -/
  least : base ∈ claimed → ∃ number, outcome.1 = base ++ toString number ∧
    IsLeast {n | 2 ≤ n ∧ base ++ toString n ∉ claimed} number ∧ number ≤ claimed.size + 1
  /-- The name is a new one. -/
  fresh : outcome.1 ∉ claimed
  /-- It is added to the claimed names, and nothing else is. -/
  added : outcome.2.names = insert outcome.1 claimed.names

theorem gives_claim (claimed : ClaimedNames) (base : String) :
    Gives claimed base (claimed.claim base) where
  own hbase := if_neg hbase
  least hbase := ⟨_, if_pos hbase, isLeast_freeNumber hbase, freeNumber_le hbase⟩
  fresh := by
    show claimed.choose base ∉ claimed
    rw [choose_eq_freeName, ← mem_names]
    exact freeName_notMem claimed.names base
  added := names_insert claimed (claimed.choose base)

/-- **Claiming a name** gives out the base or the base with the least number that makes it free.
The search comes to that end within as many rounds as there are claimed names, and with fewer than
`2 ^ 31 - 1` of them a counter of 32 bits does not wrap on the way. -/
theorem claim_least (claimed : ClaimedNames) (base : String) :
    Gives claimed base (claimed.claim base) ∧
      (∃ rounds ≤ claimed.size,
        Search.after Nat claimed base rounds = .given (claimed.claim base)) ∧
      (claimed.size < 2 ^ 31 - 1 → ¬ Search.Wraps claimed base ∧
        ∃ rounds ≤ claimed.size,
          Search.after Int32 claimed base rounds = .given (claimed.claim base)) := by
  refine ⟨gives_claim claimed base, ?_, ?_⟩
  · exact (Search.counts_nat (claimed.size + 1)).exists_after_eq_given (Nat.le_refl _)
  · intro hsize
    exact ⟨Search.not_wraps hsize, Search.counts_int32.exists_after_eq_given (by omega)⟩

/-- Names that run into each other: the base `X2` is a numbered name of `X`, and so is its own
second name. -/
def chainedNames : ClaimedNames := .ofList ["X", "X2", "X22"]

theorem claim_least_chained :
    chainedNames.size < 2 ^ 31 - 1 ∧ ¬ Search.Wraps chainedNames "X2" ∧
      ∃ rounds ≤ 3, Search.after Int32 chainedNames "X2" rounds =
        .given ("X23", chainedNames.insert "X23") := by
  have hsize : chainedNames.size < 2 ^ 31 - 1 := by decide
  obtain ⟨_, _, hsearch⟩ := claim_least chainedNames "X2"
  exact ⟨hsize, hsearch hsize⟩

end ClaimedNames

end StructSketch
