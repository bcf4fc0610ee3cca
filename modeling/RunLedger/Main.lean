import RunLedger.Cli.Run

/-!
# The program

Runs the command line on the files and the environment of the process.
-/

namespace RunLedger.Cli

/-- Reads a file of the process. -/
def readFile (path : String) : IO (Except ReadFailure String) := do
  try
    pure (.ok (← IO.FS.readFile path))
  catch
    | .noFileOrDirectory _ _ _ => pure (.error .absent)
    | e => pure (.error (.other (toString e)))

/-- The process as a host. -/
def process : Host IO where
  file := readFile
  value := fun name => IO.getEnv name
  unreachable := fun _ => pure (.backend "there is no driver for this database")

end RunLedger.Cli

def main (arguments : List String) : IO UInt32 := do
  let outcome ← RunLedger.Cli.run RunLedger.Cli.process arguments
  IO.print outcome.output
  IO.eprint outcome.errors
  pure (UInt32.ofNat outcome.exitCode)
