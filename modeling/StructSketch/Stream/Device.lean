/-!
# Sources and sinks

A device is known by what its calls answer. A source may hand out its bytes in pieces of any
size, a sink may take fewer bytes than it is offered, and both may be interrupted or fail.

* **`Source`** and **`Sink`** are the kinds of devices. Each has a count that an unfinished
  answer lowers, so reading to the end and writing a whole text come to an end.
* **`Devices`** are a source and a sink with the log of all calls.
* **`Devices.readAll`** reads until the end; an interrupted call is made again.
* **`Devices.writeAll`** offers a text, and again what is left of it, until all of it is taken;
  an interrupted call is made again, and a sink that takes nothing fails.
-/

namespace StructSketch.Stream

/-- The answer to one read. No bytes at all mean the end. -/
inductive ReadAnswer where
  | bytes (chunk : List UInt8)
  | interrupted
  | failed (reason : String)
deriving DecidableEq

/-- The answer to one write: how many of the offered bytes were taken. -/
inductive WriteAnswer where
  | taken (count : Nat)
  | interrupted
  | failed (reason : String)
deriving DecidableEq

/-- Whether a read asks for another one. -/
def ReadAnswer.goesOn : ReadAnswer → Bool
  | .bytes chunk => !chunk.isEmpty
  | .interrupted => true
  | .failed _ => false

/-- A device that bytes are read from. -/
class Source (ρ : Type) where
  read : ρ → ReadAnswer × ρ
  /-- How many reads at most ask for another one. -/
  ahead : ρ → Nat
  ahead_lt : ∀ source, (read source).1.goesOn = true → ahead (read source).2 < ahead source

/-- A device that bytes are written to. -/
class Sink (σ : Type) where
  write : σ → List UInt8 → WriteAnswer × σ
  /-- The reason for which flushing fails, if it does. -/
  flush : σ → Option String × σ
  /-- How often at most an offer is interrupted when it is made again and again. -/
  patience : σ → List UInt8 → Nat
  patience_lt : ∀ sink offer, (write sink offer).1 = .interrupted →
    patience (write sink offer).2 offer < patience sink offer

/-- A call to a device. -/
inductive Call where
  | read (answer : ReadAnswer)
  | write (offer : List UInt8) (answer : WriteAnswer)
  | flush (failure : Option String)
deriving DecidableEq

/-- A source and a sink with the log of the calls to them, the latest first. -/
structure Devices (ρ σ : Type) where
  source : ρ
  sink : σ
  log : List Call := []

/-! ## Logs -/

/-- The bytes that a call delivered. -/
def Call.delivered : Call → List UInt8
  | .read (.bytes chunk) => chunk
  | _ => []

/-- The bytes that a call got taken. -/
def Call.accepted : Call → List UInt8
  | .write offer (.taken count) => offer.take count
  | _ => []

/-- Whether a call is a flush. -/
def Call.isFlush : Call → Bool
  | .flush _ => true
  | _ => false

namespace Devices

variable {ρ σ : Type}

/-- All bytes that were read. -/
def delivered (devices : Devices ρ σ) : List UInt8 :=
  devices.log.reverse.flatMap Call.delivered

/-- All bytes that were taken. -/
def accepted (devices : Devices ρ σ) : List UInt8 := devices.log.reverse.flatMap Call.accepted

/-- How often the sink was flushed. -/
def flushes (devices : Devices ρ σ) : Nat := devices.log.countP Call.isFlush

/-! ## Reading and writing -/

/-- Reads until the end. -/
def readAll [Source ρ] (devices : Devices ρ σ) :
    Except String (List UInt8) × Devices ρ σ :=
  match _h : Source.read devices.source with
  | (answer, source) =>
    let after : Devices ρ σ := { devices with source, log := .read answer :: devices.log }
    match answer with
    | .failed reason => (.error reason, after)
    | .interrupted => after.readAll
    | .bytes [] => (.ok [], after)
    | .bytes (byte :: chunk) =>
      let (rest, after) := after.readAll
      (rest.map (byte :: chunk ++ ·), after)
termination_by Source.ahead devices.source
decreasing_by
  all_goals
    have := Source.ahead_lt devices.source (by rw [_h]; rfl)
    rw [_h] at this
    exact this

/-- The failure of a sink that takes nothing. -/
def takesNothing : String := "failed to write whole buffer"

/-- Writes a whole text. -/
def writeAll [Sink σ] (devices : Devices ρ σ) (offer : List UInt8) :
    Except String Unit × Devices ρ σ :=
  if _hoffer : offer = [] then (.ok (), devices)
  else
    match _h : Sink.write devices.sink offer with
    | (answer, sink) =>
      let after : Devices ρ σ := { devices with sink, log := .write offer answer :: devices.log }
      match answer with
      | .failed reason => (.error reason, after)
      | .interrupted => after.writeAll offer
      | .taken 0 => (.error takesNothing, after)
      | .taken (count + 1) => after.writeAll (offer.drop (count + 1))
termination_by (offer.length, Sink.patience devices.sink offer)
decreasing_by
  · have := Sink.patience_lt devices.sink offer (by rw [_h])
    rw [_h] at this
    exact Prod.Lex.right _ this
  · refine Prod.Lex.left _ _ ?_
    have := List.length_pos_iff.2 _hoffer
    simp only [List.length_drop]
    omega

/-- Flushes the sink. -/
def flush [Sink σ] (devices : Devices ρ σ) : Except String Unit × Devices ρ σ :=
  match Sink.flush devices.sink with
  | (failure, sink) =>
    let after : Devices ρ σ := { devices with sink, log := .flush failure :: devices.log }
    match failure with
    | none => (.ok (), after)
    | some reason => (.error reason, after)

end Devices

end StructSketch.Stream
