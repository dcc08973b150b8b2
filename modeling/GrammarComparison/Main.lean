import GrammarComparison.Program

/-! # The command-line program

Reads the files named by the arguments, prints what `Arguments.run` answers, and ends with its exit
code.  Warnings go to standard error.  Help or the version is printed instead where it is asked for. -/

open GrammarComparison

/-- Reads a file as text. -/
def readText (path : String) : IO (Except ReadFailure String) := do
  try
    return decodeText (← IO.FS.readBinFile path)
  catch
    | .noFileOrDirectory .. => return .error .missing
    | .inappropriateType _ 20 _ => return .error .notDirectory
    | .inappropriateType _ 21 _ => return .error .isDirectory
    | .invalidArgument _ 36 _ => return .error .nameTooLong
    | e => return .error (.other (toString e))

/-- What arguments that cannot be read are answered with. -/
def usage : String :=
  "Usage: grameq [OPTIONS] <FIRST> <SECOND>\n\nFor more information, try '--help'."

def main (args : List String) : IO UInt32 := do
  if let some n := Arguments.notice? args then
    IO.print n.text
    return 0
  let some a := Arguments.parse? args
    | IO.eprintln usage
      return 2
  let outcome := a.run (← readText a.first) (← readText a.second)
  for e in outcome.events.filter (·.within .warn) do
    IO.eprintln e.line
  IO.print outcome.output
  if let some message := outcome.error? then
    IO.eprintln message
  return outcome.code.toUInt32
