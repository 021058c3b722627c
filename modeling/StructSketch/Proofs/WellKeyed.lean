import Mathlib.Data.List.Induction
import Mathlib.Data.List.Nodup
import StructSketch.Json.Basic

/-!
# Distinct keys

* **`Keyed.nodup_keys_put`**: putting an entry keeps the keys distinct, and putting entries of
  distinct keys loses none of them (`Keyed.ofList_of_nodup`).
* **`Json.WellKeyed`**: no object at any depth has a key twice.
-/

namespace StructSketch

namespace Keyed

variable {α : Type} {key : α → String} {entry : α}

theorem mem_of_mem_put {other : α} {entries : List α} (h : other ∈ put key entry entries) :
    other = entry ∨ other ∈ entries := by
  induction entries with
  | nil => exact .inl (List.mem_singleton.mp h)
  | cons first rest ih =>
    rw [put] at h
    split at h
    · rcases List.mem_cons.mp h with h | h
      · exact .inl h
      · exact .inr (List.mem_cons_of_mem _ h)
    · rcases List.mem_cons.mp h with rfl | h
      · exact .inr List.mem_cons_self
      · exact (ih h).imp_right (List.mem_cons_of_mem _)

/-- Putting an entry keeps the keys distinct. -/
theorem nodup_keys_put {entries : List α} (h : (entries.map key).Nodup) :
    ((put key entry entries).map key).Nodup := by
  induction entries with
  | nil => simp [put]
  | cons first rest ih =>
    obtain ⟨hfirst, hrest⟩ := List.nodup_cons.mp h
    rw [put]
    split
    · rename_i hsame
      rw [List.map_cons, ← hsame]
      exact List.nodup_cons.mpr ⟨hfirst, hrest⟩
    · rename_i hother
      refine List.nodup_cons.mpr ⟨fun hmem => ?_, ih hrest⟩
      obtain ⟨other, hput, heq⟩ := List.mem_map.mp hmem
      rcases mem_of_mem_put hput with rfl | hold
      · exact hother heq.symm
      · exact hfirst (heq ▸ List.mem_map_of_mem hold)

theorem put_of_notMem {entries : List α} (h : key entry ∉ entries.map key) :
    put key entry entries = entries ++ [entry] := by
  induction entries with
  | nil => rfl
  | cons first rest ih =>
    rw [List.map_cons, List.mem_cons, not_or] at h
    obtain ⟨hfirst, hrest⟩ := h
    rw [put, if_neg (Ne.symm hfirst), ih hrest]
    rfl

/-- Putting entries of distinct keys one after the other keeps all of them in order. -/
theorem ofList_of_nodup {entries : List α} (h : (entries.map key).Nodup) :
    ofList key entries = entries := by
  induction entries using List.reverseRecOn with
  | nil => rfl
  | append_singleton entries entry ih =>
    rw [List.map_append, List.map_singleton, List.nodup_append] at h
    obtain ⟨hentries, _, hnew⟩ := h
    have hput : key entry ∉ entries.map key := fun hmem =>
      hnew _ hmem _ List.mem_cons_self rfl
    rw [ofList] at ih ⊢
    rw [List.foldl_append, ih hentries]
    exact put_of_notMem hput

end Keyed

namespace Json

/-- No object of a value has a key twice. -/
inductive WellKeyed : Json → Prop
  | null : WellKeyed .null
  | boolean {value} : WellKeyed (.boolean value)
  | number {literal} : WellKeyed (.number literal)
  | string {text} : WellKeyed (.string text)
  | array {items} : (∀ item ∈ items, WellKeyed item) → WellKeyed (.array items)
  | object {members : List (String × Json)} : (members.map Prod.fst).Nodup →
      (∀ member ∈ members, WellKeyed member.2) → WellKeyed (.object members)

end Json

end StructSketch
