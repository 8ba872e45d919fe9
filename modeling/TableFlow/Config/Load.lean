import TableFlow.Config.Basic
import TableFlow.Config.Dotenv
import TableFlow.Store.FileTree
import TableFlow.Toml.Document

namespace TableFlow

structure Overrides where
  configPath : Option String := none
  dataDir : Option String := none
  src : Option String := none
  dst : Option String := none
  accumulator : Option String := none
  deriving DecidableEq, Repr

namespace Config

def defaultPath : String := "sluice.toml"

def pathVariable : String := "SLUICE_CONFIG_PATH"

def dotenvPath : String := ".env"

def withDotenv (files : FileTree) (env : Environment) : Environment :=
  match files.read (Path.ofString dotenvPath) with
  | .ok text => Dotenv.load env text
  | .error _ => env

def filePath? (files : FileTree) (env : Environment) (asked : Option String) : Option String :=
  asked <|> env[pathVariable]? <|> if files.isFile (Path.ofString defaultPath) then
    some defaultPath else none

def candidates (path : String) : List Path :=
  let named := Path.ofString path
  if named.pieces.getLast? = some "" then [named] else [named, Path.ofString (path ++ ".toml")]

/-- The text of a file, whatever its bytes, without a mark of the byte order. -/
def fileText? (files : FileTree) (path : String) : Option String := do
  let found ← (candidates path).find? files.isFile
  let text ← match files.at? found.resolve with
    | some (.text content) => some content
    | some (.binary bytes) => some (Utf8.decode bytes)
    | _ => none
  some (if text.startsWith "\uFEFF" then String.ofList text.toList.tail else text)

def fileSettings (files : FileTree) (path : String) : Except ConfigError Setting :=
  match fileText? files path >>= Toml.parse? with
  | some members => .ok (members.foldl (fun s (key, value) => s.putAt key value) .empty)
  | none => .error .unreadable

def override (o : Overrides) (c : Config) : Config :=
  { c with
    tables := { c.tables with dataDir := o.dataDir.getD c.tables.dataDir }
    src := o.src <|> c.src
    dst := o.dst <|> c.dst
    accumulator := o.accumulator.getD c.accumulator }

/-- The configuration that the sources make, if it keeps the rules. -/
def load (files : FileTree) (environment : Environment) (o : Overrides) :
    Except ConfigError Config := do
  let env := withDotenv files environment
  let settings ← match filePath? files env o.configPath with
    | some path => fileSettings files path
    | none => .ok .empty
  let some config := ofSetting? (env.putSettings settings) | throw .invalid
  let config := config.override o
  config.validate
  return config

end Config
end TableFlow
