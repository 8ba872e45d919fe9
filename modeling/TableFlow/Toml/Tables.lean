import TableFlow.Config.Setting

namespace TableFlow.Toml

inductive Origin
  | header
  | onTheWay
  | points
  deriving DecidableEq, Repr

inductive Node
  | value (s : Setting)
  | table (origin : Origin) (members : List (String × Node))
  | series (complete : List (List (String × Node))) (last : List (String × Node))

abbrev Members := List (String × Node)

def Members.set (members : Members) (key : String) (node : Node) : Members :=
  match members with
  | [] => [(key, node)]
  | (k, n) :: rest => if k = key then (k, node) :: rest else (k, n) :: Members.set rest key node

abbrev Change := Origin → Members → Option (Origin × Members)

/-- Changes the table that a path leads to. Tables that are missing on the way are made, and are
said to be made by `origin`; the way of a key with points goes through no table that a header
has made. -/
def descend (origin : Origin) (change : Change) : List String → Change
  | [] => change
  | key :: path => fun own members =>
    let inside (o : Origin) (m : Members) (wrap : Origin → Members → Node) : Option
        (Origin × Members) := do
      let (o, m) ← descend origin change path o m
      some (own, members.set key (wrap o m))
    match members.lookup key with
    | none => inside origin [] .table
    | some (.value _) => none
    | some (.series complete last) => inside .header last fun _ m => .series complete m
    | some (.table o m) => if origin = .points && o = .header then none else inside o m .table

/-- Binds a key that is not bound yet. A table that keys with points have made takes only such
keys. -/
def bindNew (withPoints : Bool) (key : String) (node : Node) : Change := fun own members =>
  if (own == .points) != withPoints || (members.lookup key).isSome then
    none else some (own, members.set key node)

def bindPath (path : List String) (value : Setting) : Change :=
  descend .points (bindNew (1 < path.length) (path.getLastD "") (.value value)) path.dropLast

def openTable (key : String) : Change := fun own members =>
  match members.lookup key with
  | none => some (own, members.set key (.table .header []))
  | some (.table .onTheWay inner) => some (own, members.set key (.table .header inner))
  | some _ => none

def openSeries (key : String) : Change := fun own members =>
  match members.lookup key with
  | none => some (own, members.set key (.series [] []))
  | some (.series complete last) => some (own, members.set key (.series (complete ++ [last]) []))
  | some _ => none

mutual

def Node.setting : Node → Setting
  | .value s => s
  | .table _ members => .table (settings members)
  | .series complete last => .list (seriesSettings complete ++ [.table (settings last)])

def settings : List (String × Node) → List (String × Setting)
  | [] => []
  | (key, node) :: rest => (key, node.setting) :: settings rest

def seriesSettings : List (List (String × Node)) → List Setting
  | [] => []
  | members :: rest => .table (settings members) :: seriesSettings rest

end

def inlineTable (pairs : List (List String × Setting)) : Option Setting := do
  let (_, members) ← pairs.foldlM (fun (own, members) (path, value) =>
      bindPath path value own members) (Origin.header, [])
  some (.table (settings members))

end TableFlow.Toml
