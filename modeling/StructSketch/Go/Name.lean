import StructSketch.Text.Uppercase

/-!
# Go names of JSON keys

* **`Go.nameOfKey`** drops every underscore of a key and uppercases the character after each of
  them and the first one; all other characters stay as they are. So `foo_bar` becomes `FooBar`
  and `onMouseUp` becomes `OnMouseUp`.

A letter without an uppercase form and a digit stay as they are at the start of a part too, and
one letter may become several.
-/

namespace StructSketch.Go

/-- The characters of a name; `atStart` tells whether the next character begins a part. -/
def nameChars (atStart : Bool) : List Char → List Char
  | [] => []
  | c :: rest =>
    if c = '_' then nameChars true rest
    else if atStart then Text.uppercase c ++ nameChars false rest
    else c :: nameChars false rest

/-- The Go name of a JSON key. -/
def nameOfKey (key : String) : String := String.ofList (nameChars true key.toList)

end StructSketch.Go
