import Relex.CommandLine

/-! # The program

Reads the file that the arguments name, and prints what the command line makes of it.
-/

namespace Relex

open CommandLine

/-- What is found at a path. -/
def contentAt (path : String) : IO FileContent := do
  try
    return .bytes (← IO.FS.readBinFile path)
  catch error =>
    match error with
    | .noFileOrDirectory .. => return .absent
    | error => return .unreadable (toString error)

end Relex

/-- Runs the program. -/
def main (args : List String) : IO UInt32 := do
  let path? := ((Relex.CommandLine.parse args).toOption.bind Relex.CommandLine.Invocation.path?)
  let content ←
    match path? with
    | some path => Relex.contentAt path
    | none => pure .absent
  let outcome := Relex.CommandLine.run args fun _ => content
  IO.print outcome.stdout
  IO.eprint outcome.stderr
  return outcome.code
