import TableFlow.Toml.Moment
import TableFlow.Toml.Tables

namespace TableFlow.Toml

def skipSpace (cs : List Char) : List Char := cs.dropWhile isSpace

def skipLines : Bool → List Char → Option (List Char)
  | _, [] => some []
  | true, c :: rest =>
      if c == '\n' then skipLines false rest else if isPlain c then skipLines true rest else none
  | false, c :: rest =>
    if c == '#' then skipLines true rest
    else if isSpace c || c == '\n' then skipLines false rest
    else some (c :: rest)

def endLine (cs : List Char) : Option (List Char) :=
  let rest := skipSpace cs
  let comment := if rest.head? = some '#' then rest.takeWhile (· != '\n') else []
  match rest.drop comment.length with
  | [] => if comment.all isPlain then some [] else none
  | c :: after => if c == '\n' && comment.all isPlain then some after else none

def isBareKeyChar (c : Char) : Bool := c.isAlphanum || c == '_' || c == '-'

def simpleKey (cs : List Char) : Option (String × List Char) :=
  let bare := cs.takeWhile isBareKeyChar
  if bare.isEmpty then lineText cs else some (String.ofList bare, cs.drop bare.length)

def keysFrom : Nat → Reader (List String)
  | 0, _ => none
  | bound + 1, cs => do
    let (key, rest) ← simpleKey (skipSpace cs)
    match skipSpace rest with
    | '.' :: more => do
      let (keys, after) ← keysFrom bound more
      some (key :: keys, after)
    | after => some ([key], after)

def keys (cs : List Char) : Option (List String × List Char) := keysFrom (cs.length + 1) cs

def isTokenChar (c : Char) : Bool := c.isAlphanum || c == '+' || c == '-' || c == '.' || c == '_'

def scalar (cs : List Char) : Option (Setting × List Char) :=
  match text cs with
  | some (s, rest) => some (.text s, rest)
  | none =>
    match moment cs with
    | some (s, rest) => some (.text s, rest)
    | none => do
      let token := cs.takeWhile isTokenChar
      let value ← bool? token <|> integer? token <|> real? token
      some (value, cs.drop token.length)

mutual

/-- A value. The bound counts the characters that may still be read, here and in what follows. -/
def value : Nat → Reader Setting
  | 0, _ => none
  | bound + 1, cs =>
    match cs with
    | '[' :: rest => do
      let (items, after) ← items bound (← skipLines false rest)
      some (.list items, after)
    | '\x7b' :: rest =>
      match skipSpace rest with
      | '\x7d' :: after => some (.empty, after)
      | next => do
        let (pairs, after) ← pairs bound next
        some (← inlineTable pairs, after)
    | _ => scalar cs

def items : Nat → Reader (List Setting)
  | 0, _ => none
  | bound + 1, cs =>
    match cs with
    | ']' :: after => some ([], after)
    | _ => do
      let (item, rest) ← value bound cs
      match ← skipLines false rest with
      | ']' :: after => some ([item], after)
      | ',' :: more => do
        let (rest, after) ← items bound (← skipLines false more)
        some (item :: rest, after)
      | _ => none

def pair : Nat → Reader (List String × Setting)
  | 0, _ => none
  | bound + 1, cs => do
    match ← keys cs with
    | (path, '=' :: rest) => do
      let (v, after) ← value bound (skipSpace rest)
      some ((path, v), after)
    | _ => none

def pairs : Nat → Reader (List (List String × Setting))
  | 0, _ => none
  | bound + 1, cs => do
    let (first, rest) ← pair bound cs
    match skipSpace rest with
    | '\x7d' :: after => some ([first], after)
    | ',' :: more => do
      let (others, after) ← pairs bound more
      some (first :: others, after)
    | _ => none

end

inductive Line
  | bind (path : List String) (value : Setting)
  | table (path : List String)
  | series (path : List String)

def line (cs : List Char) : Option (Line × List Char) :=
  match cs with
  | '[' :: '[' :: rest => do
    match ← keys rest with
    | (path, ']' :: ']' :: after) => some (.series path, ← endLine after)
    | _ => none
  | '[' :: rest => do
    match ← keys rest with
    | (path, ']' :: after) => some (.table path, ← endLine after)
    | _ => none
  | _ => do
    let ((path, v), after) ← pair (2 * cs.length + 2) cs
    some (.bind path v, ← endLine after)

def linesFrom : Nat → List Char → Option (List Line)
  | 0, _ => none
  | bound + 1, cs => do
    match ← skipLines false cs with
    | [] => some []
    | next => do
      let (first, rest) ← line next
      some (first :: (← linesFrom bound rest))

structure Building where
  members : Members := []
  current : List String := []

def Building.add (b : Building) : Line → Option Building
  | .bind path value => do
    let (_, members) ← descend .onTheWay (bindPath path value) b.current .header b.members
    some { b with members }
  | .table path => do
    let (_, members) ← descend .onTheWay (openTable (path.getLastD "")) path.dropLast
        .header b.members
    some ⟨members, path⟩
  | .series path => do
    let (_, members) ← descend .onTheWay (openSeries (path.getLastD "")) path.dropLast
        .header b.members
    some ⟨members, path⟩

def withLineFeeds : List Char → List Char
  | '\r' :: '\n' :: rest => '\n' :: withLineFeeds rest
  | c :: rest => c :: withLineFeeds rest
  | [] => []

def parse? (document : String) : Option (List (String × Setting)) := do
  let cs := withLineFeeds document.toList
  let lines ← linesFrom (cs.length + 1) cs
  let built ← lines.foldlM Building.add {}
  some (settings built.members)

end TableFlow.Toml
