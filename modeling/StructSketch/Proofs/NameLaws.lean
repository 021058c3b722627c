import StructSketch.Proofs.Capitals

/-!
# Laws of names

* **`Go.nameChars_eq_parts`**: a name is made of the parts of its key between the underscores, each
  with the first character in uppercase.
* **`Go.nameOfKey_laws`**: so a name has no underscore, it is the name of itself, and two keys with
  an underscore between them have the names of both, one behind the other.
-/

namespace StructSketch.Go

/-- A part of a key with its first character in uppercase. -/
def capitalized : List Char → List Char
  | [] => []
  | c :: rest => Text.uppercase c ++ rest

/-- Within a part, the rest of the part is kept as it is. -/
theorem exists_parts (key : List Char) : ∃ first rest, key.splitOn '_' = first :: rest ∧
    nameChars true key = capitalized first ++ rest.flatMap capitalized ∧
    nameChars false key = first ++ rest.flatMap capitalized := by
  induction key with
  | nil => exact ⟨[], [], rfl, rfl, rfl⟩
  | cons c key ih =>
    obtain ⟨first, rest, hparts, hstart, hwithin⟩ := ih
    rw [List.splitOn_cons_eq_if_modifyHead, hparts]
    by_cases hc : c = '_'
    · subst hc
      refine ⟨[], first :: rest, rfl, ?_, ?_⟩
      · rw [nameChars, if_pos rfl, hstart]
        rfl
      · rw [nameChars, if_pos rfl, hstart]
        rfl
    · refine ⟨c :: first, rest, if_neg (mt eq_of_beq hc), ?_, ?_⟩
      · rw [nameChars, if_neg hc, if_pos rfl, hwithin, capitalized, List.append_assoc]
      · rw [nameChars, if_neg hc, if_neg Bool.false_ne_true, hwithin]
        rfl

/-- A name is made of the parts of its key. -/
theorem nameChars_eq_parts (key : List Char) :
    nameChars true key = (key.splitOn '_').flatMap capitalized := by
  obtain ⟨first, rest, hparts, hstart, _⟩ := exists_parts key
  rw [hstart, hparts, List.flatMap_cons]

/-- A name has no underscore: only the uppercase form of the underscore itself has one. -/
theorem underscore_notMem_nameChars (atStart : Bool) (key : List Char) :
    '_' ∉ nameChars atStart key := by
  induction key generalizing atStart with
  | nil => exact List.not_mem_nil
  | cons c key ih =>
    rw [nameChars]
    split_ifs with hc
    · exact ih true
    · intro hmem
      rcases List.mem_append.mp hmem with hmem | hmem
      · exact hc (Text.eq_of_mem_uppercase hmem (by decide) (by decide)).1.symm
      · exact ih false hmem
    · intro hmem
      rcases List.mem_cons.mp hmem with hsame | hmem
      · exact hc hsame.symm
      · exact ih false hmem

/-- A name is the name of itself: it has one part, and that begins with its own uppercase form. -/
theorem nameChars_nameChars (key : List Char) :
    nameChars true (nameChars true key) = nameChars true key := by
  rw [nameChars_eq_parts (nameChars true key),
    List.splitOn_eq_singleton (underscore_notMem_nameChars true key), List.flatMap_singleton]
  cases hname : nameChars true key with
  | nil => rfl
  | cons d rest =>
    obtain ⟨c, _, hhead⟩ := exists_head_uppercase hname
    rw [capitalized, Text.uppercase_of_head hhead]
    rfl

theorem nameChars_append (key key' : List Char) :
    nameChars true (key ++ '_' :: key') = nameChars true key ++ nameChars true key' := by
  rw [nameChars_eq_parts, nameChars_eq_parts, nameChars_eq_parts,
    List.splitOn_append_cons_self, List.flatMap_append]

/-- The laws of names. A name is that of its parts, each with the first character in uppercase; it
has no underscore; it is the name of itself; and an underscore between two keys is an end of a
name. -/
theorem nameOfKey_laws (key key' : String) :
    (nameOfKey key).toList = (key.toList.splitOn '_').flatMap capitalized ∧
      '_' ∉ (nameOfKey key).toList ∧
      nameOfKey (nameOfKey key) = nameOfKey key ∧
      nameOfKey (key ++ "_" ++ key') = nameOfKey key ++ nameOfKey key' := by
  refine ⟨?_, ?_, ?_, ?_⟩
  · rw [nameOfKey, String.toList_ofList, nameChars_eq_parts]
  · rw [nameOfKey, String.toList_ofList]
    exact underscore_notMem_nameChars true key.toList
  · rw [nameOfKey, nameOfKey, String.toList_ofList, nameChars_nameChars]
  · have hkeys : (key ++ "_" ++ key').toList = key.toList ++ '_' :: key'.toList := by simp
    rw [nameOfKey, nameOfKey, nameOfKey, hkeys, nameChars_append, String.ofList_append]

/-- A ligature that becomes several characters, underscores in front, in a row and at the end. -/
example : nameOfKey "__\ufb03_a__\u0149x_" = "FFIA\u02bcNx" := by decide +kernel

end StructSketch.Go
