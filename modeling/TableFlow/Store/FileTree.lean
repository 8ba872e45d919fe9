import Std.Data.ExtTreeMap
import TableFlow.Store.Path
import TableFlow.Store.SystemError
import TableFlow.Text.Utf8

namespace TableFlow

inductive FileEntry
  | directory
  | text (content : String)
  | binary (content : List UInt8)
  deriving DecidableEq, Repr

def FileEntry.ofBytes (bytes : List UInt8) : FileEntry :=
  match Utf8.decode? bytes with
  | some content => .text content
  | none => .binary bytes

def FileEntry.isFile : FileEntry → Bool
  | .directory => false
  | .text _ | .binary _ => true

/-- What stands at each place. The working directory itself needs no entry. -/
structure FileTree where
  entries : Std.ExtTreeMap (List String) FileEntry

namespace FileTree

def empty : FileTree := ⟨∅⟩

def at? (t : FileTree) (place : List String) : Option FileEntry :=
  if place = [] || place = ["/"] then some .directory else t.entries[place]?

def put (t : FileTree) (place : List String) (entry : FileEntry) : FileTree :=
  ⟨t.entries.insert place entry⟩

def isFile (t : FileTree) (p : Path) : Bool := (t.at? p.resolve).any FileEntry.isFile

/-- Why there is nothing at a place: a file where a directory on the way should be, or nothing
at all. -/
def absence (t : FileTree) (place : List String) : SystemError :=
  if (List.range place.length).any fun n => (t.at? (place.take n)).any FileEntry.isFile then
    .notDirectory else .notFound

def read (t : FileTree) (p : Path) : Except SystemError String :=
  match t.at? p.resolve with
  | some (.text content) => .ok content
  | some (.binary _) => .error .notText
  | some .directory => .error .isDirectory
  | none => .error (t.absence p.resolve)

def write (t : FileTree) (p : Path) (content : String) : Except SystemError FileTree :=
  let place := p.resolve
  match t.at? place with
  | some .directory => .error .isDirectory
  | some (.text _) | some (.binary _) => .ok (t.put place (.text content))
  | none =>
      if t.at? place.dropLast = some .directory then .ok (t.put place (.text content))
      else .error (t.absence place)

def remove (t : FileTree) (p : Path) : Except SystemError FileTree :=
  match t.at? p.resolve with
  | some .directory => .error .isDirectory
  | some (.text _) | some (.binary _) => .ok ⟨t.entries.erase p.resolve⟩
  | none => .error (t.absence p.resolve)

def createTo (t : FileTree) (place : List String) : Nat → Except SystemError FileTree
  | 0 => .ok t
  | n + 1 => do
    let made ← t.createTo place n
    match made.at? (place.take (n + 1)) with
    | some .directory => .ok made
    | some (.text _) | some (.binary _) =>
        .error (if n + 1 = place.length then .alreadyExists else .notDirectory)
    | none => .ok (made.put (place.take (n + 1)) .directory)

def createDirs (t : FileTree) (p : Path) : Except SystemError FileTree :=
  t.createTo p.resolve p.resolve.length

def place (t : FileTree) (p : Path) (entry : FileEntry) : FileTree :=
  let target := p.resolve
  ((List.range (target.length - 1)).foldl (fun t n => t.put (target.take (n + 1)) .directory) t).put
    target entry

def below (t : FileTree) (dir : Path) : List (String × String) :=
  let start := dir.resolve
  t.entries.toList.filterMap fun (at_, entry) =>
    if start.isPrefixOf at_ && at_ != start then
      let name := "/".intercalate (at_.drop start.length)
      match entry with
      | .directory => none
      | .text content => some (name, content)
      | .binary content => some (name, Utf8.decode content)
    else none

end FileTree
end TableFlow
