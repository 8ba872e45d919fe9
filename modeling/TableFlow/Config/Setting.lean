import TableFlow.Decimal.Numeral
import TableFlow.Text.Lower

namespace TableFlow

inductive Setting
  | bool (b : Bool)
  | int (n : Int)
  | real (x : Float)
  | text (s : String)
  | list (items : List Setting)
  | table (members : List (String × Setting))

namespace Setting

def empty : Setting := .table []

def members : Setting → List (String × Setting)
  | .table members => members
  | _ => []

def member? (s : Setting) (key : String) : Option Setting := s.members.lookup key

def bind (members : List (String × Setting)) (key : String) (value : Setting) :
    List (String × Setting) :=
  match members with
  | [] => [(key, value)]
  | (k, v) :: rest => if k = key then (k, value) :: rest else (k, v) :: bind rest key value

mutual

/-- A table with a value put under a key. A table is put in member by member, beside what stands
there already; any other value takes the place of what stands there. -/
def put (root : Setting) (key : String) : Setting → Setting
  | .table members =>
    let target := (root.member? (Text.lower key)).getD empty
    .table (bind root.members (Text.lower key) (putAll target members))
  | value => .table (bind root.members (Text.lower key) value)

def putAll (root : Setting) : List (String × Setting) → Setting
  | [] => root
  | (key, value) :: rest => putAll (root.put key value) rest

end

def nested (path : List String) (value : Setting) : Setting :=
  path.foldr (fun key inner => .table [(key, inner)]) value

def isKeyChar (c : Char) : Bool := c.isAlphanum || c == ' ' || c == '_' || c == '-'

def pathOf (key : String) : List String :=
  let parts := key.toList.splitOn '.'
  if parts.all fun part => !part.isEmpty && part.all isKeyChar then
    parts.map String.ofList else [key]

def putAt (root : Setting) (key : String) (value : Setting) : Setting :=
  match pathOf key with
  | [] => root
  | first :: rest => root.put first (nested rest value)

def toText? : Setting → Option String
  | .bool b => some (toString b)
  | .int n => some (toString n)
  | .real x => some (Decimal.plainText x)
  | .text s => some s
  | .list _ | .table _ => none

def toBool? : Setting → Option Bool
  | .bool b => some b
  | .int n => some (n != 0)
  | .real x => some (x != 0)
  | .text s =>
    match Text.lower s with
    | "1" | "true" | "on" | "yes" => some true
    | "0" | "false" | "off" | "no" => some false
    | _ => none
  | .list _ | .table _ => none

/-- A number from 0 on that fits 64 bits. Reals are rounded, and those that are out of range go
to its ends. -/
def toNat? : Setting → Option Nat
  | .bool b => some b.toNat
  | .int n => if 0 ≤ n then some n.toNat else none
  | .real x => some x.round.toUInt64.toNat
  | .text s =>
    match Text.lower s with
    | "true" | "on" | "yes" => some 1
    | "false" | "off" | "no" => some 0
    | _ =>
        (Decimal.natOf? (if s.startsWith "+" then s.toList.tail else s.toList)).filter
          (· < 2 * Decimal.wordLimit)
  | .list _ | .table _ => none

def toTexts? : Setting → Option (List String)
  | .list items => items.mapM toText?
  | _ => none

def toRecord? (names : List String) : Setting → Option Setting
  | .table members => some (.table members)
  | .list items => some (.table (names.zip items))
  | _ => none

def field? {α : Type} (s : Setting) (key : String) (read : Setting → Option α) (default : α) :
    Option α :=
  match s.member? key with
  | some value => read value
  | none => some default

end Setting
end TableFlow
