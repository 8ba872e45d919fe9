namespace TableFlow

structure Path where
  pieces : List String
  deriving DecidableEq, Repr

namespace Path

def ofString (s : String) : Path := ⟨(s.toList.splitOn '/').map String.ofList⟩

def text (p : Path) : String := "/".intercalate p.pieces

def isAbsolute (p : Path) : Bool :=
  match p.pieces with
  | "" :: _ :: _ => true
  | _ => false

/-- The path of `name` seen from a directory. A slash at the directory's end counts once, and an
absolute name stands for itself. -/
def join (dir : Path) (name : String) : Path :=
  let inner := ofString name
  if inner.isAbsolute then inner
  else ⟨(if dir.pieces.getLast? = some "" then dir.pieces.dropLast else dir.pieces) ++ inner.pieces⟩

def advance (place : List String) (piece : String) : List String :=
  if piece = "" || piece = "." then place
  else if piece = ".." then
    (if place.getLast?.all (· == "..") then place ++ [".."] else place.dropLast)
  else place ++ [piece]

/-- Names of directories from the working directory on, and the last name. Absolute paths start
with a slash. -/
def resolve (p : Path) : List String := p.pieces.foldl advance (if p.isAbsolute then ["/"] else [])

end Path
end TableFlow
