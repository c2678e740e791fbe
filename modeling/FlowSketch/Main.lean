/-
# The program

Reads the files and streams that the command line names, and prints the answer.
-/
import FlowSketch.CommandLine

open FlowSketch

/-- Reads a file, or says why it cannot be read. -/
def readJournal (file : String) : IO (Except String String) := do
  try
    return .ok (← IO.FS.readFile file)
  catch
    | .noFileOrDirectory .. => return .error CommandLine.missingFile
    | e => return .error (toString e)

def main (arguments : List String) : IO UInt32 := do
  match CommandLine.Invocation.parse? arguments with
  | none =>
    IO.eprint CommandLine.usage
    return 2
  | some i =>
    let journal ← readJournal i.file
    let stdin ←
      if i.command = .run && i.inputs.isEmpty then (← IO.getStdin).readToEnd else pure ""
    match i.execute journal stdin with
    | .error overflow =>
      IO.eprintln overflow.message
      return 101
    | .ok result =>
      IO.print result.stdout
      IO.eprint result.stderr
      return result.exit
