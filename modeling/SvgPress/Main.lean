import SvgPress.CommandLine.Program

/-!
# Entry point

Runs the program on the files and streams of the machine.
-/

open SvgPress.CommandLine

/-- An action whose failure is a value. -/
def attempt {α : Type} (action : IO α) : IO (Except String α) := do
  try
    return .ok (← action)
  catch e => return .error (toString e)

/-- Bytes as text. -/
def textOfBytes (bytes : ByteArray) : IO String :=
  match String.fromUTF8? bytes with
  | some text => pure text
  | none => throw (IO.userError "stream did not contain valid UTF-8")

/-- All bytes of a stream, after those that have been read. -/
partial def readAll (stream : IO.FS.Stream) (soFar : ByteArray) : IO ByteArray := do
  let chunk ← stream.read 65536
  if chunk.isEmpty then return soFar else readAll stream (soFar ++ chunk)

/-- The files and streams of the machine. -/
def machine : System IO where
  fileText path := attempt do textOfBytes (← IO.FS.readBinFile path)
  inputText := attempt do textOfBytes (← readAll (← IO.getStdin) ByteArray.empty)
  replaceFile path text := attempt (IO.FS.writeFile path text)
  writeOutput text := do (← IO.getStdout).putStr text
  writeError text := do (← IO.getStderr).putStr text

/-- What is shown of a failure. -/
def failureText : Failure → String
  | .library e => e.message
  | .system message => message

/-- Run the program with the arguments of the command line. -/
def main (arguments : List String) : IO UInt32 := do
  let ending ← run machine arguments
  match ending with
  | .failed cause => IO.eprintln ("Error: " ++ failureText cause)
  | .misuse => IO.eprint misuseText
  | .success => pure ()
  return ending.exitCode
