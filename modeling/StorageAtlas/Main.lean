import StorageAtlas.CommandLine.Run
import StorageAtlas.Tree.Snapshot

/-!
The program: reads a snapshot of the file tree from standard input and lists
what the arguments ask for.
-/

namespace StorageAtlas.Program

/-- Reads lines until the input ends. -/
partial def readAll (input : IO.FS.Stream) (done : String) : IO String := do
  let line ← input.getLine
  if line.isEmpty then return done
  readAll input (done ++ line)

def surroundings (tree : Tree) : IO Surroundings := do
  let home ← IO.getEnv "HOME"
  let lunVariable ← IO.getEnv (String.ofList Configuration.variableName)
  return {
    tree := tree
    home := (home.getD "").toList
    lunVariable := lunVariable.map String.toList
    document := fun _ => none }

def report (outcome : Outcome) : IO UInt32 := do
  for line in outcome.log do
    IO.eprintln (String.ofList line.text)
  IO.print (String.ofList outcome.output)
  return outcome.exit.toUInt32

def run (args : List String) : IO UInt32 := do
  match Tree.ofSnapshot? (← readAll (← IO.getStdin) "").toList with
  | none =>
    IO.eprintln "The snapshot on standard input cannot be read."
    return 3
  | some tree =>
    match Invocation.run (← surroundings tree) (args.map String.toList) with
    | .ok outcome => report outcome
    | .error fault =>
      IO.eprintln (String.ofList fault.message)
      return 1

end StorageAtlas.Program

def main (args : List String) : IO UInt32 := StorageAtlas.Program.run args
