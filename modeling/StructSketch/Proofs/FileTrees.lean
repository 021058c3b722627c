import Mathlib.Data.List.Basic
import StructSketch.CommandLine.World

/-!
# Files that are put into a tree

* **`FileTree.get?_put_self`** and **`FileTree.get?_put_of_ne`**: a put changes one place alone.
* **`FileTree.walk_put`** and **`FileTree.openPlace_put`**: a file that is put where no directory
  stands leaves the ways that lead through directories as they are, and so where paths lead to.
* **`FileTree.of_createPlace`** and **`FileTree.openPlace_put_of_createPlace`**: a file is created
  where no directory stands, and its path then leads to it.
* **`FileTree.content?_put`** and **`FileTree.content?_put_of_createPlace`**: what can be read by a
  path after a put.
-/

namespace StructSketch.CommandLine.FileTree

variable {tree : FileTree} {place other : List String} {node : Node} {content : List UInt8}

/-! ## Nodes -/

theorem get?_put_self (h : place ≠ []) : (tree.put place node).get? place = some node := by
  rw [get?, if_neg h, put, List.lookup_cons_self]

/-- The entries of one place decide nothing at another one. -/
theorem lookup_filter_ne (tree : FileTree) (h : other ≠ place) :
    (tree.filter fun entry => entry.1 ≠ place).lookup other = tree.lookup other := by
  induction tree with
  | nil => rfl
  | cons entry rest ih =>
    obtain ⟨first, node⟩ := entry
    by_cases hfirst : first = place
    · subst hfirst
      have hother : (other == first) = false := beq_false_of_ne h
      rw [List.filter_cons_of_neg (by simp), List.lookup_cons, hother, ih]
    · rw [List.filter_cons_of_pos (by simpa using hfirst), List.lookup_cons, List.lookup_cons, ih]

theorem get?_put_of_ne (h : other ≠ place) :
    (tree.put place node).get? other = tree.get? other := by
  have hother : (other == place) = false := beq_false_of_ne h
  rw [get?, get?, put, List.lookup_cons, hother]
  exact congrArg _ (lookup_filter_ne tree h)

/-- Of two puts at one place the second counts. -/
theorem put_put (node' : Node) : (tree.put place node).put place node' = tree.put place node' := by
  simp [put]

/-- The root is a directory. -/
theorem ne_nil_of_get?_ne (h : tree.get? place ≠ some .directory) : place ≠ [] := by
  rintro rfl
  exact h rfl

/-- A file in the place of no directory takes and makes no directory. -/
theorem get?_put_file_eq_directory (h : tree.get? place ≠ some .directory) :
    (tree.put place (.file content)).get? other = some .directory ↔
      tree.get? other = some .directory := by
  by_cases hother : other = place
  · subst hother
    rw [get?_put_self (ne_nil_of_get?_ne h)]
    exact ⟨fun hfile => (nomatch hfile), fun hdirectory => absurd hdirectory h⟩
  · rw [get?_put_of_ne hother]

/-! ## Ways -/

theorem walk_cons {steps : List String} {step : String} :
    tree.walk place (step :: steps) = .ok other ↔
      ∃ next, stepFrom place step = .ok next ∧ tree.get? next = some .directory ∧
        tree.walk next steps = .ok other := by
  rw [walk]
  cases stepFrom place step with
  | error error => simp
  | ok next =>
    cases hnode : tree.get? next with
    | none => simp [hnode]
    | some node => cases node <;> simp [hnode]

/-- Steps through directories lead where they led before. -/
theorem walk_put {here reached : List String} {steps : List String}
    (h : tree.get? place ≠ some .directory) (hwalk : tree.walk here steps = .ok reached) :
    (tree.put place (.file content)).walk here steps = .ok reached := by
  induction steps generalizing here with
  | nil => exact hwalk
  | cons step steps ih =>
    obtain ⟨next, hstep, hnext, hrest⟩ := walk_cons.mp hwalk
    exact walk_cons.mpr ⟨next, hstep, (get?_put_file_eq_directory h).mpr hnext, ih hrest⟩

/-! ## Paths -/

/-- A search in two steps succeeds if both of them do. -/
theorem bind_eq_ok {ε α β : Type} {first : Except ε α} {next : α → Except ε β} {b : β} :
    first >>= next = .ok b ↔ ∃ a, first = .ok a ∧ next a = .ok b := by
  cases first <;> simp [Bind.bind, Except.bind]

/-- A path leads to a directory, or to a file if it does not ask for a directory. -/
theorem openPlace_eq_ok {text : String} :
    tree.openPlace text = .ok place ↔
      ∃ path directory, Path.ofText? text = .ok path ∧ tree.lastDirectory path = .ok directory ∧
        stepFrom directory path.last = .ok place ∧
        (tree.get? place = some .directory ∨
          path.toDirectory = false ∧ ∃ content, tree.get? place = some (.file content)) := by
  rw [openPlace]
  simp only [bind_eq_ok]
  constructor
  · rintro ⟨path, hpath, directory, hdirectory, reached, hstep, hnode⟩
    split at hnode
    · cases hnode
    · rename_i content hfile
      split_ifs at hnode with hkind
      cases hnode
      exact ⟨path, directory, hpath, hdirectory, hstep, .inr ⟨by simpa using hkind, content, hfile⟩⟩
    · rename_i hkind
      cases hnode
      exact ⟨path, directory, hpath, hdirectory, hstep, .inl hkind⟩
  · rintro ⟨path, directory, hpath, hdirectory, hstep, hnode⟩
    refine ⟨path, hpath, directory, hdirectory, place, hstep, ?_⟩
    rcases hnode with hkind | ⟨hfile, content, hkind⟩
    · rw [hkind]
    · simp [hkind, hfile]

/-- A file is created where no directory stands. -/
theorem of_createPlace {text : String} (h : tree.createPlace text = .ok place) :
    tree.get? place ≠ some .directory ∧
      ∃ path directory, Path.ofText? text = .ok path ∧ tree.lastDirectory path = .ok directory ∧
        stepFrom directory path.last = .ok place ∧ path.toDirectory = false := by
  rw [createPlace] at h
  simp only [bind_eq_ok] at h
  obtain ⟨path, hpath, directory, hdirectory, hplace⟩ := h
  split_ifs at hplace with hfile
  obtain ⟨reached, hstep, hnode⟩ := bind_eq_ok.mp hplace
  split_ifs at hnode with hkind
  cases hnode
  exact ⟨hkind, path, directory, hpath, hdirectory, hstep, by simpa using hfile⟩

theorem lastDirectory_put {path : Path} {directory : List String}
    (h : tree.get? place ≠ some .directory) (hpath : tree.lastDirectory path = .ok directory) :
    (tree.put place (.file content)).lastDirectory path = .ok directory :=
  walk_put h hpath

/-- A path leads where it led before. -/
theorem openPlace_put {text : String} (h : tree.get? place ≠ some .directory)
    (hopen : tree.openPlace text = .ok other) :
    (tree.put place (.file content)).openPlace text = .ok other := by
  obtain ⟨path, directory, hpath, hdirectory, hstep, hnode⟩ := openPlace_eq_ok.mp hopen
  refine openPlace_eq_ok.mpr ⟨path, directory, hpath, lastDirectory_put h hdirectory, hstep, ?_⟩
  rcases hnode with hdirectory | ⟨hfile, before, hbefore⟩
  · exact .inl ((get?_put_file_eq_directory h).mpr hdirectory)
  · refine .inr ⟨hfile, ?_⟩
    by_cases hother : other = place
    · subst hother
      exact ⟨content, get?_put_self (ne_nil_of_get?_ne h)⟩
    · exact ⟨before, by rw [get?_put_of_ne hother, hbefore]⟩

/-- The path of a created file leads to it. -/
theorem openPlace_put_of_createPlace {text : String} (h : tree.createPlace text = .ok place) :
    (tree.put place (.file content)).openPlace text = .ok place := by
  obtain ⟨hnode, path, directory, hpath, hdirectory, hstep, hfile⟩ := of_createPlace h
  refine openPlace_eq_ok.mpr
    ⟨path, directory, hpath, lastDirectory_put hnode hdirectory, hstep, .inr ⟨hfile, content, ?_⟩⟩
  exact get?_put_self (ne_nil_of_get?_ne hnode)

/-! ## Contents -/

/-- A created file holds what is put there. -/
theorem content?_put_of_createPlace {text : String} (h : tree.createPlace text = .ok place) :
    (tree.put place (.file content)).content? text = some content := by
  simp only [content?, openPlace_put_of_createPlace h,
    get?_put_self (ne_nil_of_get?_ne (of_createPlace h).1)]

/-- A file that is put where a path leads is what can be read by the path. -/
theorem content?_put_of_openPlace {text : String} (h : tree.get? place ≠ some .directory)
    (hopen : tree.openPlace text = .ok place) :
    (tree.put place (.file content)).content? text = some content := by
  simp only [content?, openPlace_put h hopen, get?_put_self (ne_nil_of_get?_ne h)]

/-- A file that is put elsewhere leaves the content behind a path as it is. -/
theorem content?_put {text : String} (h : tree.get? place ≠ some .directory)
    (hopen : tree.openPlace text = .ok other) (hother : other ≠ place) :
    (tree.put place (.file content)).content? text = tree.content? text := by
  simp only [content?, openPlace_put h hopen, hopen, get?_put_of_ne hother]

end StructSketch.CommandLine.FileTree
