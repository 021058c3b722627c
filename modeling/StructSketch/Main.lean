import StructSketch.CommandLine.Program

/-!
# The executable

The operations of the real system, and the program run on them. What a file system or a stream
answers decides nothing here: it is passed on.
-/

namespace StructSketch.CommandLine

/-- The words of the system for a failed operation. -/
def systemText : IO.Error → String
  | .noFileOrDirectory _ code details | .inappropriateType _ code details
  | .permissionDenied _ code details | .otherError code details =>
    details ++ " (os error " ++ toString code ++ ")"
  | other => toString other

/-- Performs an operation and keeps the words of its failure. -/
def attempt {α : Type} (operation : IO α) : IO (Except String α) := do
  try
    return .ok (← operation)
  catch failure =>
    return .error (systemText failure)

/-- Reads a stream up to its end. -/
partial def readToEnd (stream : IO.FS.Stream) (done : ByteArray) : IO ByteArray := do
  let chunk ← stream.read 65536
  if chunk.isEmpty then return done else readToEnd stream (done ++ chunk)

/-- The operations of the real system. -/
def systemHost (standardInput standardOutput standardError : IO.FS.Stream) :
    Host IO IO.FS.Stream IO.FS.Stream where
  standardInput := standardInput
  standardOutput := standardOutput
  openFile path := attempt do return .ofHandle (← IO.FS.Handle.mk path .read)
  createFile path := attempt do return .ofHandle (← IO.FS.Handle.mk path .write)
  readAll input := attempt do return (← readToEnd input .empty).data.toList
  writeAll output text := attempt (output.write text.toByteArray)
  flush output := attempt output.flush
  print text := standardOutput.putStr text
  report text := standardError.putStr text

end StructSketch.CommandLine

/-- Runs the program on the real system. -/
def main (arguments : List String) : IO UInt32 := do
  let host := StructSketch.CommandLine.systemHost
    (← IO.getStdin) (← IO.getStdout) (← IO.getStderr)
  StructSketch.CommandLine.Program.run host arguments
