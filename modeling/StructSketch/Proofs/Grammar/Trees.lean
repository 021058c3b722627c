import Mathlib.Data.List.Basic
import StructSketch.Json.Reader
import StructSketch.Proofs.WellKeyed

/-!
# Trees with repeated keys

* **`Keyed.lastOfEach`**: of entries with repeated keys, each key once, in the order of the first
  entries, with its last entry. Putting the entries one after the other comes to the same
  (`Keyed.ofList_eq_lastOfEach`).
* **`Json.merged`**: a tree with this done to the members of every object.
* **`Json.Untagged`**: no object of a tree stands for a number.
* **`Json.ReadsAs`**: a value is what a tree without tagged objects is read as.
-/

namespace StructSketch

namespace Keyed

variable {α : Type} {key : α → String} {entry : α}

/-- The last entry of a key. -/
def last? (key : α → String) (entries : List α) (k : String) : Option α :=
  entries.reverse.find? fun entry => key entry = k

/-- Each key once, in the order of the first entries, with its last entry. -/
def lastOfEach (key : α → String) (entries : List α) : List α :=
  (entries.map key).eraseDups.filterMap (last? key entries)

theorem last?_append (entries : List α) (entry : α) (k : String) :
    last? key (entries ++ [entry]) k =
      if key entry = k then some entry else last? key entries k := by
  unfold last?
  rw [List.reverse_append, List.reverse_singleton, List.singleton_append, List.find?_cons]
  by_cases hk : key entry = k
  · rw [if_pos hk, decide_eq_true hk]
  · rw [if_neg hk, decide_eq_false hk]

theorem exists_last? {entries : List α} {k : String} (h : k ∈ entries.map key) :
    ∃ last, last? key entries k = some last ∧ key last = k := by
  obtain ⟨entry, hentry, hk⟩ := List.mem_map.mp h
  have hsome : (last? key entries k).isSome :=
    List.find?_isSome.mpr ⟨entry, List.mem_reverse.mpr hentry, decide_eq_true hk⟩
  obtain ⟨last, hlast⟩ := Option.isSome_iff_exists.mp hsome
  have hkey := List.find?_some (p := fun entry => decide (key entry = k)) hlast
  exact ⟨last, hlast, of_decide_eq_true hkey⟩

theorem keys_lastOfEach (entries : List α) :
    (lastOfEach key entries).map key = (entries.map key).eraseDups := by
  rw [lastOfEach, List.map_filterMap]
  refine (List.filterMap_congr ?_).trans List.filterMap_some
  intro k hk
  obtain ⟨last, hlast, hkey⟩ := exists_last? (List.mem_eraseDups.mp hk)
  rw [hlast, Option.map_some, hkey]

/-- One more entry of an old key replaces the entry of that key. -/
theorem lastOfEach_append_of_mem {entries : List α} (h : key entry ∈ entries.map key) :
    lastOfEach key (entries ++ [entry]) = (lastOfEach key entries).map fun other =>
      if key other = key entry then entry else other := by
  have hold : List.removeAll [key entry] (entries.map key) = [] := by
    simpa [List.removeAll] using h
  rw [lastOfEach, lastOfEach, List.map_append, List.eraseDups_append, List.map_singleton, hold,
    List.eraseDups_nil, List.append_nil, List.map_filterMap]
  refine List.filterMap_congr ?_
  intro k hk
  obtain ⟨last, hlast, hkey⟩ := exists_last? (List.mem_eraseDups.mp hk)
  rw [last?_append, hlast, Option.map_some, hkey, apply_ite some]
  exact if_congr eq_comm rfl rfl

/-- One more entry of a new key stands at the end. -/
theorem lastOfEach_append_of_notMem {entries : List α} (h : key entry ∉ entries.map key) :
    lastOfEach key (entries ++ [entry]) = lastOfEach key entries ++ [entry] := by
  have hnew : List.removeAll [key entry] (entries.map key) = [key entry] := by
    simpa [List.removeAll] using h
  rw [lastOfEach, lastOfEach, List.map_append, List.eraseDups_append, List.map_singleton, hnew,
    List.filterMap_append]
  refine congrArg₂ (· ++ ·) (List.filterMap_congr ?_) ?_
  · intro k hk
    rw [last?_append, if_neg]
    rintro rfl
    exact h (List.mem_eraseDups.mp hk)
  · simp [List.eraseDups_cons, last?_append]

/-- Putting an entry of a key that is there replaces the entry of that key. -/
theorem put_of_mem {entries : List α} (hkeys : (entries.map key).Nodup)
    (hmem : key entry ∈ entries.map key) :
    put key entry entries = entries.map fun other =>
      if key other = key entry then entry else other := by
  induction entries with
  | nil => cases hmem
  | cons first rest ih =>
    obtain ⟨hfirst, hrest⟩ := List.nodup_cons.mp hkeys
    rw [put, List.map_cons]
    split
    · rename_i hsame
      -- the key stands nowhere else
      refine congrArg (List.cons entry) (Eq.symm ?_)
      refine (List.map_congr_left ?_).trans (List.map_id _)
      intro other hother
      refine if_neg fun hkey => hfirst ?_
      rw [hsame, ← hkey]
      exact List.mem_map_of_mem hother
    · rename_i hother
      rcases List.mem_cons.mp hmem with hsame | hmem
      · exact absurd hsame.symm hother
      · rw [ih hrest hmem]

theorem ofList_append (entries : List α) (entry : α) :
    ofList key (entries ++ [entry]) = put key entry (ofList key entries) := by
  rw [ofList, List.foldl_append]
  rfl

theorem put_ne_nil (entries : List α) : put key entry entries ≠ [] := by
  cases entries with
  | nil => exact List.cons_ne_nil _ _
  | cons first rest =>
    rw [put]
    split <;> exact List.cons_ne_nil _ _

theorem ofList_ne_nil {entries : List α} (h : entries ≠ []) : ofList key entries ≠ [] := by
  obtain ⟨earlier, last, rfl⟩ := List.eq_nil_or_concat entries |>.resolve_left h
  rw [List.concat_eq_append, ofList_append]
  exact put_ne_nil _

theorem nodup_keys_ofList (entries : List α) : ((ofList key entries).map key).Nodup := by
  induction entries using List.reverseRecOn with
  | nil => exact List.nodup_nil
  | append_singleton entries entry ih =>
    rw [ofList_append]
    exact nodup_keys_put ih

/-- Putting entries one after the other keeps the last one of each key, in the place of the
first. -/
theorem ofList_eq_lastOfEach (entries : List α) : ofList key entries = lastOfEach key entries := by
  induction entries using List.reverseRecOn with
  | nil => rfl
  | append_singleton entries entry ih =>
    have hnodup := @nodup_keys_ofList _ key entries
    have hkeys : key entry ∈ (lastOfEach key entries).map key ↔ key entry ∈ entries.map key := by
      rw [keys_lastOfEach, List.mem_eraseDups]
    rw [ofList_append, ih]
    rw [ih] at hnodup
    by_cases hmem : key entry ∈ entries.map key
    · rw [put_of_mem hnodup (hkeys.mpr hmem), lastOfEach_append_of_mem hmem]
    · rw [put_of_notMem (mt hkeys.mp hmem), lastOfEach_append_of_notMem hmem]

end Keyed

namespace Json

mutual

/-- The tree with each key of an object once, in its first place and with its last value. -/
def merged : Json → Json
  | .null => .null
  | .boolean value => .boolean value
  | .number literal => .number literal
  | .string text => .string text
  | .array items => .array (mergedItems items)
  | .object members => .object (Keyed.lastOfEach Prod.fst (mergedMembers members))

/-- The items of an array with this done to each. -/
def mergedItems : List Json → List Json
  | [] => []
  | item :: rest => item.merged :: mergedItems rest

/-- The members of an object with this done to each value. -/
def mergedMembers : List (String × Json) → List (String × Json)
  | [] => []
  | (key, value) :: rest => (key, value.merged) :: mergedMembers rest

end

mutual

/-- No object of the tree has the tag of numbers as its first key. -/
def Untagged : Json → Prop
  | .null | .boolean _ | .number _ | .string _ => True
  | .array items => UntaggedItems items
  | .object members => (∀ first ∈ members.head?, first.1 ≠ numberTag) ∧ UntaggedMembers members

/-- No item of an array has such an object. -/
def UntaggedItems : List Json → Prop
  | [] => True
  | item :: rest => item.Untagged ∧ UntaggedItems rest

/-- No member of an object has such an object. -/
def UntaggedMembers : List (String × Json) → Prop
  | [] => True
  | (_, value) :: rest => value.Untagged ∧ UntaggedMembers rest

end

theorem merged_array (items : List Json) : (array items).merged = .array (items.map merged) := by
  have hitems : mergedItems items = items.map merged := by
    induction items with
    | nil => rfl
    | cons item rest ih => rw [List.map_cons, ← ih]; rfl
  rw [merged, hitems]

/-- The merged members of an object, put one after the other. -/
def keptMembers (members : List (String × Json)) : List (String × Json) :=
  Keyed.ofList Prod.fst (members.map fun m => (m.1, m.2.merged))

theorem keptMembers_append (members : List (String × Json)) (member : String × Json) :
    keptMembers (members ++ [member]) =
      put member.1 member.2.merged (keptMembers members) := by
  rw [keptMembers, List.map_append, List.map_singleton, Keyed.ofList_append]
  rfl

theorem keptMembers_ne_nil {members : List (String × Json)} (h : members ≠ []) :
    keptMembers members ≠ [] := Keyed.ofList_ne_nil (mt List.map_eq_nil_iff.mp h)

theorem merged_object (members : List (String × Json)) :
    (object members).merged = .object (keptMembers members) := by
  have hmembers : mergedMembers members = members.map fun m => (m.1, m.2.merged) := by
    induction members with
    | nil => rfl
    | cons m rest ih => rw [List.map_cons, ← ih]; rfl
  rw [merged, hmembers, keptMembers, Keyed.ofList_eq_lastOfEach]

theorem kind_merged (tree : Json) : tree.merged.kind = tree.kind := by
  cases tree <;> rfl

theorem untagged_array {items : List Json} :
    (array items).Untagged ↔ ∀ item ∈ items, item.Untagged := by
  rw [Untagged]
  induction items with
  | nil => simp [UntaggedItems]
  | cons item rest ih => rw [UntaggedItems, ih, List.forall_mem_cons]

theorem untagged_object {members : List (String × Json)} :
    (object members).Untagged ↔
      (∀ first ∈ members.head?, first.1 ≠ numberTag) ∧ ∀ m ∈ members, m.2.Untagged := by
  have hmembers : UntaggedMembers members ↔ ∀ m ∈ members, m.2.Untagged := by
    induction members with
    | nil => simp [UntaggedMembers]
    | cons m rest ih => rw [UntaggedMembers, ih, List.forall_mem_cons]
  rw [Untagged, hmembers]

theorem untagged_array_append {items : List Json} {item : Json} :
    (array (items ++ [item])).Untagged ↔ (array items).Untagged ∧ item.Untagged := by
  simp only [untagged_array, List.forall_mem_append, List.forall_mem_singleton]

theorem untagged_object_append {members : List (String × Json)} {member : String × Json} :
    (object (members ++ [member])).Untagged ↔
      (object members).Untagged ∧ member.2.Untagged ∧
        (members = [] → member.1 ≠ numberTag) := by
  simp only [untagged_object, List.forall_mem_append, List.forall_mem_singleton]
  cases members with
  | nil => simp; tauto
  | cons first rest => simp; tauto

/-- What a tree is read as, if none of its objects stands for a number. -/
def ReadsAs (tree value : Json) : Prop := tree.Untagged → value = tree.merged

theorem ReadsAs.array_append {items values : List Json} {item value : Json}
    (hitems : (array items).ReadsAs (.array values)) (hitem : item.ReadsAs value) :
    (array (items ++ [item])).ReadsAs (.array (values ++ [value])) := by
  intro huntagged
  obtain ⟨hrest, hlast⟩ := untagged_array_append.mp huntagged
  have hvalues := hitems hrest
  rw [merged_array, Json.array.injEq] at hvalues
  rw [merged_array, hvalues, hitem hlast, List.map_append, List.map_singleton]

/-- What the members of an object that is being read come from. -/
structure KeptFrom (trees members : List (String × Json)) : Prop where
  readsAs : (object trees).ReadsAs (.object members)
  nil : members = [] → trees = []

theorem keptFrom_nil : KeptFrom [] [] := ⟨fun _ => rfl, fun _ => rfl⟩

theorem KeptFrom.append {trees members : List (String × Json)} {key : String}
    {tree value : Json} (hmembers : KeptFrom trees members) (htree : tree.ReadsAs value) :
    KeptFrom (trees ++ [(key, tree)]) (put key value members) := by
  refine ⟨fun huntagged => ?_, fun h => absurd h (Keyed.put_ne_nil _)⟩
  obtain ⟨hrest, hlast, _⟩ := untagged_object_append.mp huntagged
  have hvalues := hmembers.readsAs hrest
  rw [merged_object, Json.object.injEq] at hvalues
  rw [merged_object, hvalues, htree hlast, keptMembers_append]

/-- An object that stands for a number is not the business of this relation. -/
theorem readsAs_tagged (tree value : Json) : (object [(numberTag, tree)]).ReadsAs value := by
  intro huntagged
  have hfirst := (untagged_object.mp huntagged).1
  exact absurd rfl (hfirst _ rfl)

end Json

end StructSketch
