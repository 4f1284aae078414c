import TileRoute.CommandLine

/-!
# The program

Reads the scenario that the arguments ask for, plays it and prints the snapshots at its end.
-/

namespace TileRoute.CommandLine

def readText? (path : String) : IO (Option String) := do
  try
    let text ← IO.FS.readFile path
    pure (some text)
  catch _ => pure none

end TileRoute.CommandLine

open TileRoute in
def main (arguments : List String) : IO UInt32 := do
  let ticks? ← IO.getEnv CommandLine.ticksVariable
  let request := CommandLine.Request.ofArguments ticks? arguments
  let text? ← match CommandLine.fileFor? request with
    | some path => CommandLine.readText? path
    | none => pure none
  let outcome := CommandLine.answer text? request
  IO.print outcome.output
  IO.eprint outcome.errors
  pure (UInt32.ofNat outcome.code)
