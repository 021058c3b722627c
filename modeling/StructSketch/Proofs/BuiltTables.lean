import StructSketch.Proofs.ArrayLinks
import StructSketch.Proofs.Layout

/-!
# Tables built by hand

A table starts with the interned scalars. From then on entries are put in, taken out, and replaced
by records, in any order.

* **`TypeTable.Built`** relates a table to the handles that it gave out and to those that were taken
  out of it again. A new entry may refer to every handle given out before it, and a record that
  replaces another entry to every handle given out at all, be they live or dead.
* **`get?_insert`**, **`get?_of_remove?`** and **`get?_of_replace?`** say what an operation changes
  of what the handles refer to.
* **`TypeTable.Orderly`** is what every operation keeps, and **`Built.orderly`** is the whole
  history: a handle that was taken out is dead for good, whatever is put into its place, and an
  array refers to an entry that was inserted before it.
-/

namespace StructSketch

theorem Handle.eq_of_place_of_serial {handle other : Handle} (hplace : handle.place = other.place)
    (hserial : handle.serial = other.serial) : handle = other := by
  cases handle
  cases other
  simp_all

namespace TypeTable

/-- The table came about by operations that gave out some handles and took some of them out. -/
inductive Built : TypeTable → List Handle → List Handle → Prop
  /-- A new table gave out the interned handles. -/
  | new : Built .new (Scalar.all.map Scalar.handle) []
  /-- An entry comes in, which refers to handles that were given out. -/
  | insert {table issued removed} {entry : Entry} : Built table issued removed →
      (∀ reference ∈ entry.references, reference ∈ issued) →
      Built (table.insert entry).2 ((table.insert entry).1 :: issued) removed
  /-- A live entry is taken out. -/
  | remove {table table' issued removed handle entry} : Built table issued removed →
      table.remove? handle = some (entry, table') → Built table' issued (handle :: removed)
  /-- A record takes the place of a live entry, under its handle. -/
  | replace {table table' issued removed handle} {record : Record} :
      Built table issued removed → (∀ field ∈ record.fields, field.type ∈ issued) →
      table.replace? handle (.record record) = some table' → Built table' issued removed

/-! ## What the handles refer to -/

theorem get?_eq_some {table : TypeTable} {handle : Handle} {entry : Entry} :
    table.get? handle = some entry ↔
      table.places[handle.place]? = some (some (handle.serial, entry)) := by
  unfold get?
  constructor
  · intro h
    split at h
    · rename_i serial found hplace
      split at h
      · rename_i hserial
        cases h
        rw [hplace, hserial]
      · cases h
    · cases h
  · intro h
    simp only [h, if_true]

theorem place_lt_of_get? {table : TypeTable} {handle : Handle} {entry : Entry}
    (h : table.get? handle = some entry) : handle.place < table.places.size := by
  exact (Array.getElem?_eq_some_iff.mp (get?_eq_some.mp h)).1

/-- What the handles refer to when one place is filled anew or made vacant. -/
theorem get?_setIfInBounds {table : TypeTable} {place : Nat} (hplace : place < table.places.size)
    {filled : Option (Nat × Entry)} {vacancies : List Nat} {next : Nat} {handle : Handle}
    {entry : Entry} :
    get? ⟨table.places.setIfInBounds place filled, vacancies, next⟩ handle = some entry ↔
      if handle.place = place then filled = some (handle.serial, entry)
      else table.get? handle = some entry := by
  rw [get?_eq_some, get?_eq_some]
  by_cases hhere : handle.place = place
  · simp [hhere, hplace]
  · rw [if_neg hhere]
    show (table.places.setIfInBounds place filled)[handle.place]? = _ ↔ _
    rw [Array.getElem?_setIfInBounds_ne (Ne.symm hhere)]

/-- Where the place of a live handle is filled under its serial number or made vacant, the handle
refers to what was put there, and the others to what they did. -/
theorem get?_setIfInBounds_of_live {table : TypeTable} {target : Handle} {entry : Entry}
    (hlive : table.get? target = some entry) (put : Option Entry) (vacancies : List Nat)
    (next : Nat) (handle : Handle) :
    get? ⟨table.places.setIfInBounds target.place (put.map (target.serial, ·)), vacancies, next⟩
        handle =
      if handle = target then put else table.get? handle := by
  apply Option.ext
  intro found
  rw [get?_setIfInBounds (place_lt_of_get? hlive)]
  by_cases hhere : handle.place = target.place
  · by_cases hserial : target.serial = handle.serial
    · have hsame : handle = target := Handle.eq_of_place_of_serial hhere hserial.symm
      simp [hsame]
    · -- a handle of the same place is dead before and behind
      have hne : handle ≠ target := fun heq => hserial (congrArg Handle.serial heq.symm)
      have hdead : table.get? handle = none := by
        rw [get?, hhere, get?_eq_some.mp hlive]
        exact if_neg hserial
      simp [hhere, hserial, hne, hdead]
  · have hne : handle ≠ target := fun heq => hhere (congrArg Handle.place heq)
    rw [if_neg hhere, if_neg hne]

/-- After a removal the handle refers to nothing, and the others to what they did. -/
theorem get?_of_remove? {table table' : TypeTable} {removed : Handle} {entry : Entry}
    (h : table.remove? removed = some (entry, table')) (handle : Handle) :
    table'.get? handle = if handle = removed then none else table.get? handle := by
  obtain ⟨_, hlive, heq⟩ := Option.map_eq_some_iff.mp h
  cases heq
  exact get?_setIfInBounds_of_live hlive none _ _ handle

/-- After a replacement the handle refers to the other entry, and the others to what they did. -/
theorem get?_of_replace? {table table' : TypeTable} {replaced : Handle} {entry : Entry}
    (h : table.replace? replaced entry = some table') (handle : Handle) :
    table'.get? handle = if handle = replaced then some entry else table.get? handle := by
  obtain ⟨_, hlive, heq⟩ := Option.map_eq_some_iff.mp h
  cases heq
  exact get?_setIfInBounds_of_live hlive (some entry) _ _ handle

theorem serial_insert (table : TypeTable) (entry : Entry) :
    (table.insert entry).1.serial = table.nextSerial := by
  unfold insert
  split <;> rfl

theorem nextSerial_insert (table : TypeTable) (entry : Entry) :
    (table.insert entry).2.nextSerial = table.nextSerial + 1 := by
  unfold insert
  split <;> rfl

/-- An insertion uses up the first vacancy, if there is one. -/
theorem vacancies_insert (table : TypeTable) (entry : Entry) :
    (table.insert entry).2.vacancies = table.vacancies.tail := by
  unfold insert
  split <;> simp_all

theorem place_insert_notMem_tail {table : TypeTable} (h : table.vacancies.Nodup) (entry : Entry) :
    (table.insert entry).1.place ∉ table.vacancies.tail := by
  unfold insert
  split
  · simp_all
  · simp_all

/-- An insertion fills one place, and leaves the others as they are. -/
theorem places_insert {table : TypeTable}
    (hvacant : ∀ place ∈ table.vacancies, table.places[place]? = some none) (entry : Entry)
    (place : Nat) :
    (table.insert entry).2.places[place]? =
      if place = (table.insert entry).1.place then some (some (table.nextSerial, entry))
      else table.places[place]? := by
  cases hvacancies : table.vacancies with
  | nil =>
    simp only [insert, hvacancies]
    exact Array.getElem?_push
  | cons first vacancies =>
    have hfirst := hvacant first (by rw [hvacancies]; exact List.mem_cons_self)
    have hlt := (Array.getElem?_eq_some_iff.mp hfirst).1
    simp only [insert, hvacancies]
    by_cases hplace : place = first
    · simp [hplace, hlt]
    · rw [if_neg hplace, Array.getElem?_setIfInBounds_ne (Ne.symm hplace)]

/-- Where the listed vacancies are vacant, an insertion fills a place without a live entry. -/
theorem get?_eq_none_of_place_insert {table : TypeTable}
    (hvacant : ∀ place ∈ table.vacancies, table.places[place]? = some none) {entry : Entry}
    {handle : Handle} (hplace : handle.place = (table.insert entry).1.place) :
    table.get? handle = none := by
  cases hvacancies : table.vacancies with
  | nil =>
    simp only [insert, hvacancies] at hplace
    simp only [get?, Array.getElem?_eq_none (Nat.le_of_eq hplace.symm)]
  | cons first vacancies =>
    simp only [insert, hvacancies] at hplace
    have hfirst := hvacant first (by rw [hvacancies]; exact List.mem_cons_self)
    simp only [get?, hplace, hfirst]

/-- After an insertion the new handle refers to the new entry, and the others to what they did. -/
theorem get?_insert {table : TypeTable}
    (hvacant : ∀ place ∈ table.vacancies, table.places[place]? = some none) (entry : Entry)
    (handle : Handle) :
    (table.insert entry).2.get? handle =
      if handle = (table.insert entry).1 then some entry else table.get? handle := by
  have hplaces := places_insert hvacant entry handle.place
  by_cases hplace : handle.place = (table.insert entry).1.place
  · rw [if_pos hplace] at hplaces
    rw [get?, hplaces]
    by_cases hserial : table.nextSerial = handle.serial
    · have hnew : handle = (table.insert entry).1 :=
        Handle.eq_of_place_of_serial hplace (by rw [serial_insert, hserial])
      rw [if_pos hnew]
      exact if_pos hserial
    · have hne : handle ≠ (table.insert entry).1 := by
        rintro rfl
        exact hserial (serial_insert table entry).symm
      rw [if_neg hne, get?_eq_none_of_place_insert hvacant hplace]
      exact if_neg hserial
  · have hne : handle ≠ (table.insert entry).1 := fun heq => hplace (congrArg Handle.place heq)
    rw [if_neg hplace] at hplaces
    rw [if_neg hne, get?, hplaces, get?]

/-! ## What every operation keeps -/

/-- What is known of a table, the handles that it gave out and those that were taken out. -/
structure Orderly (table : TypeTable) (issued removed : List Handle) : Prop where
  /-- The listed vacancies are vacant. -/
  vacant : ∀ place ∈ table.vacancies, table.places[place]? = some none
  /-- No vacancy is listed twice. -/
  nodup : table.vacancies.Nodup
  /-- Serial numbers are given out in ascending order. -/
  earlier : ∀ handle ∈ issued, handle.serial < table.nextSerial
  /-- A handle that was taken out had been given out. -/
  given : ∀ handle ∈ removed, handle ∈ issued
  /-- The live handles are those that were given out and not taken out. -/
  live_iff : ∀ handle, (table.get? handle).isSome ↔ handle ∈ issued ∧ handle ∉ removed
  /-- A live entry refers to handles that were given out. -/
  known : ∀ handle entry, table.get? handle = some entry →
    ∀ reference ∈ entry.references, reference ∈ issued
  /-- An array refers to an entry that was inserted before it. -/
  descends : table.ArraysDescend

namespace Orderly

variable {table table' : TypeTable} {issued removed : List Handle} {handle : Handle}
  {entry : Entry}

theorem mem_issued (h : table.Orderly issued removed) (hlive : table.get? handle = some entry) :
    handle ∈ issued :=
  ((h.live_iff handle).mp (by rw [hlive]; rfl)).1

/-- A handle that was given out is dead exactly if it was taken out. -/
theorem get?_eq_none_iff (h : table.Orderly issued removed) (hissued : handle ∈ issued) :
    table.get? handle = none ↔ handle ∈ removed := by
  have hlive := h.live_iff handle
  cases hget : table.get? handle with
  | none => simpa [hget, hissued] using hlive
  | some entry => simpa [hget, hissued] using hlive

/-- A handle that is given out anew is none of those that were given out before. -/
theorem fst_insert_notMem (h : table.Orderly issued removed) (entry : Entry) :
    (table.insert entry).1 ∉ issued := by
  intro hmem
  have hlt := h.earlier _ hmem
  rw [serial_insert] at hlt
  omega

theorem insert (h : table.Orderly issued removed)
    (hreferences : ∀ reference ∈ entry.references, reference ∈ issued) :
    (table.insert entry).2.Orderly ((table.insert entry).1 :: issued) removed where
  vacant := by
    intro place hmem
    rw [vacancies_insert] at hmem
    have hne : place ≠ (table.insert entry).1.place := by
      rintro rfl
      exact place_insert_notMem_tail h.nodup entry hmem
    rw [places_insert h.vacant, if_neg hne]
    exact h.vacant place (List.mem_of_mem_tail hmem)
  nodup := by
    rw [vacancies_insert]
    exact h.nodup.tail
  earlier := by
    intro handle hmem
    rw [nextSerial_insert]
    rcases List.mem_cons.mp hmem with rfl | hmem
    · rw [serial_insert]
      omega
    · have hlt := h.earlier handle hmem
      omega
  given := by
    intro handle hmem
    exact List.mem_cons_of_mem _ (h.given handle hmem)
  live_iff := by
    intro handle
    rw [get?_insert h.vacant]
    by_cases hnew : handle = (table.insert entry).1
    · subst hnew
      have hremoved : (table.insert entry).1 ∉ removed :=
        fun hmem => h.fst_insert_notMem entry (h.given _ hmem)
      simp [hremoved]
    · simp [hnew, h.live_iff]
  known := by
    intro handle found hlive reference hreference
    rw [get?_insert h.vacant] at hlive
    apply List.mem_cons_of_mem
    by_cases hnew : handle = (table.insert entry).1
    · rw [if_pos hnew] at hlive
      cases hlive
      exact hreferences reference hreference
    · rw [if_neg hnew] at hlive
      exact h.known handle found hlive reference hreference
  descends := by
    intro handle element hlive
    rw [get?_insert h.vacant] at hlive
    by_cases hnew : handle = (table.insert entry).1
    · rw [if_pos hnew] at hlive
      cases hlive
      subst hnew
      rw [serial_insert]
      exact h.earlier element (hreferences element List.mem_cons_self)
    · rw [if_neg hnew] at hlive
      exact h.descends handle element hlive

theorem remove (h : table.Orderly issued removed)
    (hremove : table.remove? handle = some (entry, table')) :
    table'.Orderly issued (handle :: removed) := by
  have hget := get?_of_remove? hremove
  have hkept : ∀ other found, table'.get? other = some found → table.get? other = some found := by
    intro other found hother
    rw [hget] at hother
    split at hother
    · cases hother
    · exact hother
  obtain ⟨_, hlive, heq⟩ := Option.map_eq_some_iff.mp hremove
  cases heq
  have hoccupied := get?_eq_some.mp hlive
  have hplace : handle.place ∉ table.vacancies := by
    intro hmem
    rw [h.vacant _ hmem] at hoccupied
    cases hoccupied
  refine ⟨?_, List.nodup_cons.mpr ⟨hplace, h.nodup⟩, h.earlier, ?_, ?_, ?_, ?_⟩
  · intro place hmem
    show (table.places.setIfInBounds handle.place none)[place]? = some none
    rcases List.mem_cons.mp hmem with rfl | hmem
    · simp [place_lt_of_get? hlive]
    · have hne : handle.place ≠ place := fun heq => hplace (heq ▸ hmem)
      rw [Array.getElem?_setIfInBounds_ne hne]
      exact h.vacant place hmem
  · intro other hmem
    rcases List.mem_cons.mp hmem with rfl | hmem
    · exact h.mem_issued hlive
    · exact h.given other hmem
  · intro other
    rw [hget]
    by_cases hsame : other = handle
    · simp [hsame]
    · simp [hsame, h.live_iff]
  · intro other found hother
    exact h.known other found (hkept other found hother)
  · intro other element hother
    exact h.descends other element (hkept other _ hother)

theorem replace {record : Record} (h : table.Orderly issued removed)
    (hfields : ∀ field ∈ record.fields, field.type ∈ issued)
    (hreplace : table.replace? handle (.record record) = some table') :
    table'.Orderly issued removed := by
  have hget := get?_of_replace? hreplace
  obtain ⟨_, hlive, heq⟩ := Option.map_eq_some_iff.mp hreplace
  cases heq
  have hoccupied := get?_eq_some.mp hlive
  refine ⟨?_, h.nodup, h.earlier, h.given, ?_, ?_, ?_⟩
  · intro place hmem
    show (table.places.setIfInBounds handle.place _)[place]? = some none
    have hne : handle.place ≠ place := by
      rintro rfl
      rw [h.vacant _ hmem] at hoccupied
      cases hoccupied
    rw [Array.getElem?_setIfInBounds_ne hne]
    exact h.vacant place hmem
  · intro other
    rw [hget, ← h.live_iff]
    by_cases hsame : other = handle
    · simp [hsame, hlive]
    · simp [hsame]
  · intro other found hother
    rw [hget] at hother
    split at hother
    · cases hother
      intro reference hreference
      obtain ⟨field, hfield, rfl⟩ := List.mem_map.mp hreference
      exact hfields field hfield
    · exact h.known other found hother
  · intro other element hother
    rw [hget] at hother
    split at hother
    · cases hother
    · exact h.descends other element hother

end Orderly

/-- A new table holds the interned scalars. -/
theorem get?_new {handle : Handle} {entry : Entry} :
    TypeTable.new.get? handle = some entry ↔
      ∃ s : Scalar, handle = s.handle ∧ entry = .scalar s := by
  have hlive : TypeTable.new.live = Scalar.all.map fun s => (s.handle, Entry.scalar s) := rfl
  rw [← mem_live_iff, hlive, List.mem_map]
  constructor
  · rintro ⟨s, _, heq⟩
    cases heq
    exact ⟨s, rfl, rfl⟩
  · rintro ⟨s, rfl, rfl⟩
    exact ⟨s, List.mem_of_getElem? s.getElem?_all, rfl⟩

theorem orderly_new : Orderly .new (Scalar.all.map Scalar.handle) [] where
  vacant _ hmem := by cases hmem
  nodup := List.nodup_nil
  earlier := by decide
  given _ hmem := by cases hmem
  live_iff handle := by
    rw [Option.isSome_iff_exists]
    simp only [get?_new]
    constructor
    · rintro ⟨_, s, rfl, _⟩
      exact ⟨List.mem_map_of_mem (List.mem_of_getElem? s.getElem?_all), List.not_mem_nil⟩
    · rintro ⟨hmem, _⟩
      obtain ⟨s, _, rfl⟩ := List.mem_map.mp hmem
      exact ⟨_, s, rfl, rfl⟩
  known handle entry hlive reference hreference := by
    obtain ⟨s, _, rfl⟩ := get?_new.mp hlive
    cases hreference
  descends handle element hlive := by
    obtain ⟨s, _, heq⟩ := get?_new.mp hlive
    cases heq

/-- Whatever operations a table came about by, it is orderly. -/
theorem Built.orderly {table : TypeTable} {issued removed : List Handle}
    (h : table.Built issued removed) : table.Orderly issued removed := by
  induction h with
  | new => exact orderly_new
  | insert _ hreferences ih => exact ih.insert hreferences
  | remove _ hremove ih => exact ih.remove hremove
  | replace _ hfields hreplace ih => exact ih.replace hfields hreplace

end TypeTable

end StructSketch
