import StructSketch.Failure
import StructSketch.Json.Reader
import StructSketch.Schema.Inference

/-!
# From a sample to declarations

* **`Schema.ofSample`** reads a sample and infers its schema.
* **`generate`** writes the declarations of a sample, without the head of a file.
-/

namespace StructSketch

/-- The schema of a sample text. -/
def Schema.ofSample (rootName : String) (sample : List UInt8) : Except Failure Schema :=
  match Json.parse sample with
  | .ok json => (Schema.infer? rootName json).mapError Failure.rootNotObject
  | .error what => .error (.malformed what)

/-- The declarations of a sample text. -/
def generate (rootName : String) (sample : List UInt8) : Except Failure String :=
  match Schema.ofSample rootName sample with
  | .ok schema =>
    match ({} : Go.Style).source schema with
    | .ok source => .ok source.body
    | .error dead => .error (.ofDeadReference dead)
  | .error failure => .error failure

end StructSketch
