import StructSketch.Go.Declaration
import StructSketch.Json.Basic
import StructSketch.Json.Malformed

/-!
# How a run can fail

* **`Failure`** is what ends a run: a sample that is no JSON, a sample whose root is no object,
  or a device that fails.
* **`Failure.message`** words a failure, and **`Failure.causes`** words it together with what
  lies behind it, the outermost first.
-/

namespace StructSketch

/-- What ends a run. -/
inductive Failure where
  /-- The sample is not JSON. -/
  | malformed (what : Json.Malformed)
  /-- The root of the sample is not an object. -/
  | rootNotObject (found : Json.Kind)
  /-- Reading, writing or printing failed. -/
  | device (reason : String)
deriving DecidableEq

namespace Failure

/-- A declaration that cannot be written. -/
def ofDeadReference (_ : Go.DeadReference) : Failure := .device "failed to format declarations"

/-- What lies behind a failure, the outermost first. -/
def reasons : Failure → List String
  | .malformed what =>
    ["invalid JSON at line " ++ toString what.position.line ++ ", column " ++
        toString what.position.column ++ ": " ++ what.describe,
      what.describe]
  | .rootNotObject found => ["the root value must be an object, found " ++ found.noun]
  | .device reason => [reason]

/-- Whether the sample is at fault. -/
def isMalformedInput : Failure → Bool
  | .malformed _ | .rootNotObject _ => true
  | .device _ => false

/-- Whether a device is at fault. -/
def isDevice (failure : Failure) : Bool := !failure.isMalformedInput

/-- The wording of a failure. -/
def message (failure : Failure) : String :=
  (if failure.isMalformedInput then "malformed input: " else "I/O error: ") ++
    failure.reasons.headD ""

/-- The wording of a failure and of what lies behind it, the outermost first. -/
def causes (failure : Failure) : List String := failure.message :: failure.reasons

end Failure

end StructSketch
