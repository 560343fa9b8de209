/-
The command. It takes arguments and environment from the host, looks
up what is at the places that the program may look at, runs the
program on that tree, and carries the changes and the output back.
-/
import Runsheet.Program

namespace Runsheet.Host

/-- The path of a place, from the root. -/
def pathOf (p : Place) : String := String.ofList ('/' :: ['/'].intercalate p)

/-- The place of the working directory. -/
def workPlace : IO Place := do
  let dir ← IO.currentDir
  return (Path.pieces dir.toString.toList).filter (! List.isEmpty ·)

/-- What is at a place. -/
def entryAt (p : Place) : IO (Option Entry) := do
  let path := (← IO.currentDir) / pathOf p
  if ← path.isDir then return some .dir
  if ← path.pathExists then return some (.file (← IO.FS.readBinFile path).toList)
  return none

/-- The tree with what is at the places that a path leads past. -/
def lookUp (t : FileTree) (path : Text) : IO FileTree :=
  (t.visited path).foldlM (fun t p => do
    match ← entryAt p with
    | some e => return t.set p e
    | none => return t) t

/-- Puts an entry at a place. -/
def store (p : Place) : Entry → IO Unit
  | .dir => IO.FS.createDirAll (pathOf p)
  | .file bytes => IO.FS.writeBinFile (pathOf p) ⟨bytes.toArray⟩

/-- The variables that the program knows, as far as they are set. -/
def environment : IO Environment := do
  let names := [Environment.sequencesName, Environment.resultsName, colourName]
  let pairs ← names.mapM fun name => do
    return (← IO.getEnv (String.ofList name)).map fun v => (name, v.toList)
  return pairs.filterMap id

end Runsheet.Host

open Runsheet in
def main (args : List String) : IO UInt32 := do
  let args := args.map String.toList
  let env ← Host.environment
  let bare ← Host.lookUp ⟨← Host.workPlace, []⟩ Host.assignmentFile
  let defaults := Defaults.ofEnvironment (Host.completed env bare)
  let tree ← match Options.parse args with
    | .error _ => pure bare
    | .ok options => (Program.paths options defaults).foldlM Host.lookUp bare
  let exit := Program.run args env tree
  (exit.tree.changesSince tree).forM fun (p, e) => Host.store p e
  (← IO.getStdout).putStr (String.ofList exit.printed.stdout)
  (← IO.getStderr).putStr (String.ofList exit.printed.stderr)
  return exit.code.toUInt32
