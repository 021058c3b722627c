import StructSketch.Generate
import StructSketch.Stream.Device

/-!
# Sessions

A session reads one sample and writes one Go file.

* **`Channel`** are the operations that a session needs of the devices it works on.
* **`Session.run`** reads all of the input, infers the schema, and writes the head of the file
  and then one declaration after the other. Whatever comes of it, it flushes the output once,
  at the end; a failure of its own counts before a failure to flush.
* **`Session.perform`** takes one step: a setting, a question for the options, or a run.
* **`Stream.Devices.channel`** works on a source and a sink.

Nothing is written before the whole sample was accepted.
-/

namespace StructSketch

/-- The operations that a session needs of its input and its output. -/
structure Channel (m : Type → Type) where
  /-- Reads the input up to its end. -/
  readAll : m (Except String (List UInt8))
  /-- Writes a whole text to the output. -/
  writeAll : List UInt8 → m (Except String Unit)
  /-- Flushes the output. -/
  flush : m (Except String Unit)

/-- The name of the root record and the settings of the file. -/
structure Session where
  rootName : String
  options : Go.FileOptions := {}
deriving DecidableEq

namespace Session

variable {m : Type → Type} [Monad m]

/-- Writes a text. -/
def write (channel : Channel m) (text : String) : m (Except Failure Unit) := do
  return (← channel.writeAll (Text.bytes text)).mapError Failure.device

/-- Writes declarations, one after the other. -/
def writeDeclarations (channel : Channel m) (style : Go.Style) (table : TypeTable) :
    List Handle → m (Except Failure Unit)
  | [] => return .ok ()
  | handle :: rest => do
    match style.declaration table handle with
    | .error dead => return .error (.ofDeadReference dead)
    | .ok declaration =>
      match ← write channel declaration with
      | .error failure => return .error failure
      | .ok () => writeDeclarations channel style table rest

/-- Writes the Go file of a schema. -/
def writeFile (channel : Channel m) (style : Go.Style) (schema : Schema) :
    m (Except Failure Unit) := do
  match ← write channel style.header with
  | .error failure => return .error failure
  | .ok () => writeDeclarations channel style schema.table schema.order

/-- Reads a sample and writes its Go file. -/
def transcribe (session : Session) (channel : Channel m) : m (Except Failure Unit) := do
  match ← channel.readAll with
  | .error reason => return .error (.device reason)
  | .ok sample =>
    match Schema.ofSample session.rootName sample with
    | .error failure => return .error failure
    | .ok schema => writeFile channel session.options.style schema

/-- Reads a sample, writes its Go file and flushes the output. -/
def run (session : Session) (channel : Channel m) : m (Except Failure Unit) := do
  let result ← session.transcribe channel
  let flushed ← channel.flush
  return match result with
    | .error failure => .error failure
    | .ok () => flushed.mapError Failure.device

/-! ## Steps -/

/-- What can be done with a session. -/
inductive Step where
  | setPackage (package : String)
  | setImportJson (importJson : Bool)
  | setOptions (options : Go.FileOptions)
  | askOptions
  | run
deriving DecidableEq

/-- What a step answers. -/
inductive Reply where
  | done
  | options (options : Go.FileOptions)
  | ran (result : Except Failure Unit)

/-- Takes a step. From one step to the next a session keeps its name and its options. -/
def perform (session : Session) (channel : Channel m) : Step → m (Reply × Session)
  | .setPackage package => return (.done, { session with options.package := package })
  | .setImportJson importJson => return (.done, { session with options.importJson := importJson })
  | .setOptions options => return (.done, { session with options })
  | .askOptions => return (.options session.options, session)
  | .run => return (.ran (← session.run channel), session)

end Session

/-- The operations on a source and a sink. -/
def Stream.Devices.channel {ρ σ : Type} [Stream.Source ρ] [Stream.Sink σ] :
    Channel (StateM (Stream.Devices ρ σ)) where
  readAll := fun devices => devices.readAll
  writeAll offer := fun devices => devices.writeAll offer
  flush := fun devices => devices.flush

end StructSketch
