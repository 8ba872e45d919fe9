import Std.Time.DateTime
import TableFlow.Command.Files

namespace TableFlow.Command

def usage : String :=
  "Usage: sluice [--config PATH] [--data-dir DIR] [--log-level LEVEL] COMMAND\n\n" ++
    "Commands:\n" ++
    "  run SCRIPT [--var NAME=VALUE]... [--src NAME] [--dst NAME] [--accumulator NAME] [--json]\n" ++
    "  check SCRIPT [--json]\n" ++
    "  config\n"

def readEntry (path : String) : IO (Option FileEntry) := do
  try
    return some (FileEntry.ofBytes (← IO.FS.readBinFile path).toList)
  catch
    | .noFileOrDirectory .. => return none
    | .inappropriateType .. => return some .directory
    | _ => return none

def readPaths (files : FileTree) (paths : List String) : IO FileTree :=
  paths.foldlM (fun files path => do
    match ← readEntry path with
    | some entry => return files.place (Path.ofString path) entry
    | none => return files) files

def readEnvironment : IO Environment := do
  let bytes ← try IO.FS.readBinFile "/proc/self/environ" catch _ => pure .empty
  let bindings := (Utf8.decode bytes.toList).splitOn "\x00"
  return .ofList
    (bindings.map fun v =>
      (String.ofList (v.toList.takeWhile (· != '=')),
        String.ofList (v.toList.dropWhile (· != '=')).tail))

def apply : FileChange → IO Unit
  | .create place => IO.FS.createDirAll (FileTree.pathTo place)
  | .write place content => IO.FS.writeFile (FileTree.pathTo place) content
  | .remove place => IO.FS.removeFile (FileTree.pathTo place)

/-- A host whose time stands still. -/
def host (now : Int) (runId : Nat) : Host Unit where
  program _ := fun _ _ => throw .notFound
  network := {
    send := fun r => throw (r.url ++ ": no network")
    pause := fun _ s => s
    clock := fun _ => 0
    answersLeft := fun _ => 0 }
  clock _ := now
  runId := runId

def carryOut (r : Request) : IO UInt32 := do
  let environment ← readEnvironment
  let dotenv ← readPaths .empty [Config.dotenvPath]
  let env := Config.withDotenv dotenv environment
  let sources ← readPaths dotenv (sourcePaths env r)
  let files ← readPaths sources (tablePaths sources env r)
  let now := (← Std.Time.Timestamp.now).toMillisecondsSinceUnixEpoch.val
  let runId := (← IO.getRandomBytes 16).toList.foldl (fun n b => 256 * n + b.toNat) 0
  let outcome := execute (host now runId) files env () r
  (files.changes outcome.files).forM apply
  IO.print outcome.stdout
  match outcome.failure with
  | none => return 0
  | some failure =>
    IO.eprintln ("Error: " ++ failure.message)
    return 1

end TableFlow.Command

def main (arguments : List String) : IO UInt32 := do
  match TableFlow.Command.read arguments with
  | .ok request => TableFlow.Command.carryOut request
  | .error .help =>
    IO.print TableFlow.Command.usage
    return 0
  | .error _ =>
    IO.eprint TableFlow.Command.usage
    return 2
