/-!
# Lists of keyed entries

* **`Keyed.put`** adds an entry at the end of a list; if there is one of the same key already, the
  new entry takes its place. So a key keeps its first place and its last entry.
-/

namespace StructSketch.Keyed

/-- Puts an entry in the place of the first one of the same key, or at the end. -/
def put {α : Type} (key : α → String) (entry : α) : List α → List α
  | [] => [entry]
  | other :: rest =>
    if key other = key entry then entry :: rest else other :: put key entry rest

/-- The entries with each key once, in its first place and with its last entry. -/
def ofList {α : Type} (key : α → String) (entries : List α) : List α :=
  entries.foldl (fun done entry => put key entry done) []

end StructSketch.Keyed
