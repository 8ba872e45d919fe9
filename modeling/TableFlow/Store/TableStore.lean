import Std.Data.ExtTreeSet
import TableFlow.Act
import TableFlow.Json.TextList
import TableFlow.Store.FileTree
import TableFlow.Table.Csv

namespace TableFlow

inductive StoreError
  | system (e : SystemError)
  | noColumns (table : String)
  | unreadableTable (table path : String) (e : TableError)
  | unreadableManifest (path : String) (fault : Json.Fault)
  deriving DecidableEq, Repr

structure TableEntry where
  cached : Bool
  produced : Bool
  deriving DecidableEq, Repr

structure TableStore where
  files : FileTree
  dir : Path
  tables : Std.ExtTreeMap String TableEntry := ∅
  /-- Names that the manifest lists, or is about to list. -/
  listed : Std.ExtTreeSet String := ∅

namespace TableStore

def tablePath (dir : Path) (name : String) : Path := dir.join (name ++ ".csv")

def manifestPath (dir : Path) : Path := dir.join ".sluice-cached.json"

def path (s : TableStore) (name : String) : Path := tablePath s.dir name

def reopen (s : TableStore) : TableStore := { files := s.files, dir := s.dir }

def entry? (s : TableStore) (name : String) : Option TableEntry := s.tables[name]?

def contains (s : TableStore) (name : String) : Bool := (s.entry? name).isSome

/-- A table that is to last and has its file can stand in for the step that writes it. -/
def reusable (s : TableStore) (name : String) : Bool :=
  (s.entry? name).any (·.cached) && s.files.isFile (s.path name)

def written (s : TableStore) : List String := (s.tables.toList.filter (·.2.produced)).map Prod.fst

def scratch (s : TableStore) : List String :=
  (s.tables.toList.filter fun t => t.2.produced && !t.2.cached).map Prod.fst

def resolve (s : TableStore) (names : List String) : Except String (List (String × Path)) :=
  names.mapM fun name => if s.contains name then .ok (name, s.path name) else .error name

def manifestText (names : Std.ExtTreeSet String) : String :=
  (JsonValue.ofTexts names.toList).pretty 0

end TableStore

abbrev StoreAct := Act TableStore StoreError

namespace StoreAct

def onFiles (f : FileTree → Except SystemError FileTree) : StoreAct Unit :=
  Act.ofFun fun s =>
    match f s.files with
    | .ok files => (.ok (), { s with files })
    | .error e => (.error (.system e), s)

def readFile (p : Path) :
    StoreAct String := do Act.ofExcept (((← get).files.read p).mapError .system)

end StoreAct

namespace TableStore

open StoreAct

def loadManifest : StoreAct Unit := do
  let path := manifestPath (← get).dir
  if (← get).files.isFile path then
    match Json.textList (← readFile path) with
    | .ok names => modify fun s => { s with listed := .ofList names }
    | .error fault => throw (.unreadableManifest path.text fault)

/-- Registers the tables that exist before the first step, listed or named as inputs, and says
how many there are. -/
def discover (inputs : List String) : StoreAct Nat := do
  let dir := (← get).dir
  onFiles (·.createDirs dir)
  loadManifest
  let s ← get
  let found := (s.listed.insertMany inputs).toList.filter fun name => s.files.isFile (s.path name)
  set { s with tables := found.foldl (fun t name => t.insertIfNew name ⟨true, false⟩) s.tables }
  return found.length

def saveManifest : StoreAct Unit := do
  let s ← get
  onFiles (·.write (manifestPath s.dir) (manifestText s.listed))

/-- Writes a table and registers it. The manifest is written only if the list of names changes. -/
def store (name : String) (data : Table) (cached : Bool) : StoreAct Path := do
  if data.fields.isEmpty then throw (.noColumns name)
  let dir := (← get).dir
  onFiles (·.createDirs dir)
  onFiles (·.write (tablePath dir name) data.toCsv)
  let s ← get
  let listed := if cached then s.listed.insert name else s.listed.erase name
  set { s with tables := s.tables.insert name ⟨cached, true⟩, listed }
  if s.listed.contains name != cached then saveManifest
  return tablePath dir name

def load (name : String) : StoreAct Table := do
  let path := (← get).path name
  Act.ofExcept ((Table.ofCsv (← readFile path)).mapError (.unreadableTable name path.text))

def removeFile (p : Path) : StoreAct Unit := onFiles fun files =>
  match files.remove p with
  | .error .notFound => .ok files
  | result => result

def cleanup : StoreAct (List String) := do
  let names := (← get).scratch
  names.forM fun name => do
    removeFile ((← get).path name)
    modify fun s => { s with tables := s.tables.erase name }
  return names

end TableStore
end TableFlow
