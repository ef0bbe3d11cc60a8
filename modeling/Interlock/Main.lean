import Interlock.CommandLine
/-!
# The program

Reads the files that the arguments name and prints how the run ends.
-/

namespace Interlock.CommandLine

/-- Reads a file. -/
def readFile (path : String) : IO (String × Except String String) := do
  match ← (IO.FS.readFile path).toBaseIO with
  | .ok text => return (path, .ok text)
  | .error e => return (path, .error (toString e))

/-- The files that options name. -/
def filesOf (args : List String) : List String :=
  match Options.ofArguments? args with
  | some o => o.input :: o.config.toList
  | none => []

end Interlock.CommandLine

open Interlock.CommandLine

/-- Runs the analysis that the arguments ask for. -/
def main (args : List String) : IO UInt32 := do
  let read ← (filesOf args).mapM readFile
  let outcome := run (fun path => (read.lookup path).getD (.error "not read")) args
  IO.print outcome.output
  if let some e := outcome.error? then IO.eprintln e
  return outcome.code.toUInt32
