import TableFlow.Store.FileTree

namespace TableFlow

inductive FileChange
  | create (place : List String)
  | write (place : List String) (content : String)
  | remove (place : List String)
  deriving DecidableEq, Repr

namespace FileTree

def pathTo (place : List String) : String :=
  match place with
  | "/" :: rest => "/" ++ "/".intercalate rest
  | _ => "/".intercalate place

/-- Directories come before what is in them. -/
def changes (before after : FileTree) : List FileChange :=
  let made := after.entries.toList.filterMap fun (place, entry) =>
    if before.entries[place]? = some entry then none
    else
      match entry with
      | .directory => some (.create place)
      | .text content => some (.write place content)
      | .binary _ => none
  let gone := before.entries.toList.filterMap fun (place, _) =>
    if (after.entries[place]?).isSome then none else some (.remove place)
  made ++ gone

end FileTree
end TableFlow
