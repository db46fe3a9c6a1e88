import RoleGate.Command.Invocation

/-!
# The command line program

Reads the sources that a command line names, and prints the output or the report of a failure.
-/

namespace RoleGate

/-- The text of a source, if it can be read. -/
def readSource : Source → IO (Option String)
  | .standardInput => do
    let text ← (← IO.getStdin).readToEnd.toBaseIO
    return text.toOption
  | .file path => do
    let text ← (IO.FS.readFile path).toBaseIO
    return text.toOption

/-- Carry out a command line and say how the program ends. -/
def carryOut (words : List String) : IO UInt32 := do
  match Invocation.parse words with
  | none =>
    IO.eprintln
      "usage: rolegate [options] <check|enforce|routes|dispatch> [options of the command]"
    return 2
  | some i =>
    let texts ← i.sources.mapM fun s => return (s, ← readSource s)
    match i.run fun s => (texts.lookup s).join with
    | .ok output =>
      IO.println output
      return 0
    | .error f =>
      IO.eprintln f.report
      return 1

end RoleGate

/-- The program. -/
def main (words : List String) : IO UInt32 := RoleGate.carryOut words
