import VersionedTypes.Command.Execution

/-!
# The program

Files and the streams of the process are read and written here; all else is decided by
`Command.run`.

* `InputError.ofSystem`, `readPlace`: a text from a file or from the standard input;
* **`main`**.
-/

namespace VersionedTypes.Command

/-- A number of the system's list of errors, which comes with either sign. -/
def isSystemCode (number code : UInt32) : Bool := code == number || code + number == 0

/-- Why the system cannot read a file. -/
def InputError.ofSystem : IO.Error → InputError
  | .noFileOrDirectory .. => .notFound
  | .inappropriateType _ code _ => if isSystemCode 21 code then .directory else .notDirectory
  | .invalidArgument _ code report =>
    if isSystemCode 36 code then .nameTooLong else .system report
  | e => .system (toString e)

/-- All bytes up to the end of a stream. -/
partial def readToEnd (stream : IO.FS.Stream) (bytes : ByteArray) : IO ByteArray := do
  let chunk ← stream.read 65536
  if chunk.isEmpty then pure bytes else readToEnd stream (bytes ++ chunk)

/-- Read the text at a place. -/
def readPlace (place : Place) : IO (Except InputError String) := do
  try
    let bytes ← match place with
      | .standardInput => do readToEnd (← IO.getStdin) .empty
      | .file path => IO.FS.readBinFile path
    pure (decodeText bytes)
  catch e => pure (.error (.ofSystem e))

end VersionedTypes.Command

open VersionedTypes.Command in
/-- Run the program on the arguments of the process. -/
def main (arguments : List String) : IO UInt32 := do
  let setting ← IO.getEnv "TYVERSE_LOG"
  let output ← IO.getStdout
  let errors ← IO.getStderr
  let terminal := (← output.isTty) && (← errors.isTty)
  let ending ← run readPlace terminal setting arguments
  for line in ending.log do
    errors.putStrLn line
  errors.putStr ending.errors
  output.putStr ending.output
  pure (UInt32.ofNat ending.exitCode)
