import AnnotationPlan.CommandLine

/-!
# The program

Reads the files that a command names and the environment, runs the command, and prints
its answer. All decisions are made in `Command.run`.
-/

namespace AnnotationPlan

/-- The contents of a file, if it can be read. -/
def contents? (path : String) : IO (Option ByteArray) := do
  try
    let bytes ← IO.FS.readBinFile path
    pure (some bytes)
  catch _ => pure none

/-- Run a command and print its answer. -/
def perform (c : Command) : IO UInt32 := do
  let policy ← IO.getEnv LayeredSettings.unknownConstructorsVariable
  let noBytecode ← IO.getEnv LayeredSettings.noBytecodeVariable
  let environment : String → Option String := fun name =>
    if name = LayeredSettings.unknownConstructorsVariable then policy
    else if name = LayeredSettings.noBytecodeVariable then noBytecode
    else none
  let files ← c.paths.mapM (fun path => do
    let bytes ← contents? path
    pure (path, bytes))
  match c.run environment (fun path => (files.lookup path).bind id) with
  | .ok text =>
    IO.print text
    pure 0
  | .error e =>
    IO.print e.response.lines
    pure (UInt32.ofNat e.code.number)

end AnnotationPlan

/-- The program. -/
def main (arguments : List String) : IO UInt32 := do
  match AnnotationPlan.Command.ofArguments? arguments with
  | some c => AnnotationPlan.perform c
  | none =>
    IO.eprint AnnotationPlan.Command.usage
    pure 2
