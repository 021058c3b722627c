import StructSketch.Proofs.GivenNames
import StructSketch.Proofs.KeyNames
import StructSketch.Proofs.Tags

/-!
# The text of a line

* **`Outline.toList_line`**: the line of a member is what it declares, a blank, and the key in a
  tag between two backquotes.
* **`Outline.backquote_notMem_declared`**: what a member declares has no backquote unless its key
  has one, so the first backquote of the line opens the tag.
-/

namespace StructSketch

namespace Outline

theorem toList_line (indent : String) (m : String × Outline) :
    (line indent m).toList =
      indent.toList ++ (m.2.declared m.1).toList ++ [' '] ++ '\x60' :: Go.tagText m.1 ++
        "`\n".toList := by
  simp [line, Go.toList_tag]

/-! ## What a line declares -/

/-- A character above the digits is in a name of a base only if it is in the base. -/
theorem notMem_name {taken : Finset String} {base name : String} {c : Char}
    (h : ClaimedNames.IsNameOf taken base name) (hc : c.isDigit = false)
    (hbase : c ∉ base.toList) : c ∉ name.toList := by
  intro hmem
  rcases h.mem_or_isDigit hmem with hmem | hdigit
  · exact hbase hmem
  · rw [hc] at hdigit
    cases hdigit

theorem backquote_notMem_type {taken : Finset String} {base : String} {o : Outline}
    (h : o.NamedAfter taken base) (hbase : '\x60' ∉ base.toList) : '\x60' ∉ o.type.toList := by
  induction h with
  | @scalar _ s => cases s <;> decide
  | array _ ih =>
    rw [type, String.toList_append, List.mem_append, not_or]
    exact ⟨by decide, ih hbase⟩
  | record hname _ _ => exact notMem_name hname rfl hbase

theorem backquote_notMem_nameOfKey {key : String} (hkey : '\x60' ∉ key.toList) :
    '\x60' ∉ (Go.nameOfKey key).toList := fun h =>
  hkey (Go.mem_of_mem_nameOfKey h (by decide) (by decide))

/-- What a member declares has no backquote that its key does not have. -/
theorem backquote_notMem_declared {taken : Finset String} {key : String} {o : Outline}
    (h : o.NamedAfter taken (Go.nameOfKey key)) (hkey : '\x60' ∉ key.toList) :
    '\x60' ∉ (o.declared key).toList := by
  have hname := backquote_notMem_nameOfKey hkey
  have htype := backquote_notMem_type h hname
  cases o with
  | record name members => exact htype
  | scalar s => simp [declared, hname, htype]
  | array element => simp [declared, hname, htype]

end Outline

/-- An indentation has no backquote. -/
theorem Go.Indentation.backquote_notMem_text (indentation : Indentation) :
    '\x60' ∉ indentation.text.toList := by
  cases indentation with
  | tab => decide
  | spaces count =>
    rw [text, String.toList_ofList]
    intro h
    exact absurd (List.eq_of_mem_replicate h) (by decide)

end StructSketch
