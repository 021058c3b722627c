import StructSketch.Stream.Device

/-!
# Devices with planned faults

* **`RehearsedSource`** hands out given bytes in pieces of at most a given size, and can be told
  to be interrupted at first and to fail at a given place, once or for good.
* **`RehearsedSink`** takes at most a given number of bytes at a time, and can be told to be
  interrupted at first, to fail when it is full, and to fail on flushing.
-/

namespace StructSketch.Stream

/-- A source with planned faults. -/
structure RehearsedSource where
  /-- The bytes that are still to be handed out. -/
  left : List UInt8
  /-- The most bytes of one read; all that are left if there is no such number. -/
  chunk : Option Nat := none
  /-- How many reads are interrupted at first. -/
  interruptions : Nat := 0
  /-- After how many more bytes reading fails. -/
  failAfter : Option Nat := none
  /-- Whether it fails only once. -/
  failsOnce : Bool := false

namespace RehearsedSource

/-- How many bytes the next read hands out at most. -/
def width (source : RehearsedSource) : Nat :=
  let chunk := source.chunk.getD source.left.length
  match source.failAfter with
  | some count => min chunk count
  | none => chunk

/-- Reads once. -/
def read (source : RehearsedSource) : ReadAnswer × RehearsedSource :=
  match source.interruptions, source.failAfter with
  | rest + 1, _ => (.interrupted, { source with interruptions := rest })
  | 0, some 0 =>
    (.failed "source vanished",
      { source with failAfter := if source.failsOnce then none else some 0 })
  | 0, _ =>
    let chunk := source.left.take source.width
    (.bytes chunk,
      { source with
        left := source.left.drop source.width
        failAfter := source.failAfter.map (· - chunk.length) })

/-- A reading goes on for no more answers than there are bytes left and interruptions to come. -/
instance : Source RehearsedSource where
  read := read
  ahead source := source.left.length + source.interruptions
  ahead_lt source h := by
    unfold read at h ⊢
    split at h
    · rename_i hrest
      simp only [hrest]
      omega
    · cases h
    · rename_i hrest _
      have hchunk : source.left.take source.width ≠ [] := fun hnil => by
        simp [ReadAnswer.goesOn, hnil] at h
      have := List.length_pos_iff.2 hchunk
      rw [List.length_take] at this
      simp only [hrest, List.length_drop]
      omega

end RehearsedSource

/-- A sink with planned faults. -/
structure RehearsedSink where
  /-- The most bytes that one write takes. -/
  width : Option Nat := none
  /-- How many writes are interrupted at first. -/
  interruptions : Nat := 0
  /-- How many more bytes there is room for. -/
  room : Option Nat := none
  /-- Whether flushing fails. -/
  failsToFlush : Bool := false

namespace RehearsedSink

/-- Writes once. An offer that there is no room for is refused as a whole. -/
def write (sink : RehearsedSink) (offer : List UInt8) : WriteAnswer × RehearsedSink :=
  match sink.interruptions with
  | rest + 1 => (.interrupted, { sink with interruptions := rest })
  | 0 =>
    if sink.room.any (· < offer.length) then (.failed "sink full", sink)
    else
      let count := min offer.length (sink.width.getD offer.length)
      (.taken count, { sink with room := sink.room.map (· - count) })

/-- A write is asked again no more often than there are interruptions to come. -/
instance : Sink RehearsedSink where
  write := write
  flush sink := (if sink.failsToFlush then some "flush failed" else none, sink)
  patience sink _ := sink.interruptions
  patience_lt sink offer h := by
    unfold write at h ⊢
    split at h
    · rename_i hrest
      simp only [hrest]
      omega
    · split at h <;> cases h

end RehearsedSink

end StructSketch.Stream
