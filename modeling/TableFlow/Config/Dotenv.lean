import TableFlow.Config.Environment
import TableFlow.Text.Blank
import TableFlow.Text.Word

namespace TableFlow.Dotenv

inductive Place
  | plain
  | blank
  | escape
  | single
  | singleEscape
  | double
  | doubleEscape
  deriving DecidableEq, Repr

def Place.opening (c : Char) : Place :=
  if c == '\\' then .escape else if c == '"' then .double else if c == '\'' then .single else .plain

def Place.next (p : Place) (c : Char) : Place :=
  match p with
  | .plain => if Text.isBlank c && c != '\n' && c != '\r' then .blank else opening c
  | .blank => opening c
  | .escape => .plain
  | .double => if c == '\\' then .doubleEscape else if c == '"' then .plain else .double
  | .doubleEscape => .double
  | .single => if c == '\\' then .singleEscape else if c == '\'' then .plain else .single
  | .singleEscape => .single

def upToComment : Place → List Char → List Char × Option Place
  | p, [] => ([], some p)
  | p, c :: rest =>
    if p == .blank && c == '#' then ([], none)
    else
      let r := upToComment (p.next c) rest
      (c :: r.1, r.2)

/-- Joins lines while a quote is open. A last line that does not end in the open is left out. -/
def joined : List Char → Place → List (List Char) → List (List Char)
  | _, _, [] => []
  | held, p, line :: rest =>
    if (Text.trimStart (held ++ line)).head? = some '#' then [] :: joined [] .plain rest
    else
      match upToComment p line with
      | (shown, none) | (shown, some .plain) => (held ++ shown) :: joined [] .plain rest
      | (shown, some p) => joined (held ++ shown) p rest

def linesWithEnds (cs : List Char) : List (List Char) :=
  let parts := cs.splitOn '\n'
  let last := parts.getLast?.getD []
  parts.dropLast.map (· ++ ['\n']) ++ if last.isEmpty then [] else [last]

structure Reading where
  quote : Option Char := none
  escaped : Bool := false
  ended : Bool := false
  hole : Option (Bool × List Char) := none
  output : List Char := []

namespace Reading

def push (r : Reading) (c : Char) : Reading := { r with output := r.output ++ [c] }

def fill (env : Environment) (name : List Char) (r : Reading) : Reading :=
  { r with hole := none, output := r.output ++ (env[String.ofList name]?.getD "").toList }

def isNameChar (c : Char) : Bool := c.isAlphanum || (0x80 ≤ c.toNat && Text.isWord c)

def stepHole (env : Environment) (r : Reading) (braced : Bool) (name : List Char) (c : Char) :
    Reading :=
  if isNameChar c then { r with hole := some (braced, name ++ [c]) }
  else if braced then if c == '\x7d' then r.fill env name
    else { r with hole := some (true, name ++ [c]) }
  else if c == '\x7b' && name.isEmpty then { r with hole := some (true, []) }
  else if c == '$' then { r.fill env name with hole := some (false, []) }
  else (r.fill env name).push c

def step (env : Environment) (r : Reading) (c : Char) : Option Reading :=
  if r.ended then if c == ' ' || c == '\t' then some r else none
  else if r.escaped then
    if c == 'n' then some { r.push '\n' with escaped := false }
    else if ['\\', '\'', '"', '$', ' '].contains c then some { r.push c with escaped := false }
    else none
  else if r.quote == some '\'' then some (if c == '\'' then { r with quote := none } else r.push c)
  else
    match r.hole with
    | some (braced, name) => some (stepHole env r braced name c)
    | none =>
      if c == '$' then some { r with hole := some (false, []) }
      else if c == '\\' then some { r with escaped := true }
      else if r.quote == some '"' then
        some (if c == '"' then { r with quote := none } else r.push c)
      else if c == '\'' || c == '"' then some { r with quote := some c }
      else if c == ' ' || c == '\t' then some { r with ended := true }
      else some (r.push c)

def run (env : Environment) (r : Reading) : List Char → Option Reading
  | [] => some r
  | c :: rest => if r.ended && c == '#' then some r else (r.step env c).bind fun r => run env r rest

def finish (env : Environment) (r : Reading) : Option String :=
  match r.quote, r.hole with
  | some _, _ | none, some (true, _) => none
  | none, some (false, name) => some (String.ofList (r.fill env name).output)
  | none, none => some (String.ofList r.output)

end Reading

def name? (cs : List Char) : Option (String × List Char) :=
  let isStart (c : Char) := c.isAlpha || c == '_'
  let name := cs.takeWhile fun c => c.isAlphanum || c == '_' || c == '.'
  if cs.head?.any isStart then some (String.ofList name, Text.trimStart (cs.drop name.length))
  else none

def binding? (cs : List Char) : Option (String × List Char) := do
  match ← name? cs with
  | (name, '=' :: rest) => some (name, Text.trimStart rest)
  | ("export", rest) =>
    match ← name? rest with
    | (name, '=' :: rest) => some (name, Text.trimStart rest)
    | _ => none
  | _ => none

def readLine (env : Environment) (line : List Char) : Option Environment :=
  let cs := Text.trim line
  if cs.isEmpty || cs.head? = some '#' then some env
  else do
    let (name, rest) ← binding? cs
    let value ←
      if rest.isEmpty || rest.head? = some '#' then some ""
      else (Reading.run env {} rest) >>= Reading.finish env
    some (env.insertIfNew name value)

def readLines (env : Environment) : List (List Char) → Environment
  | [] => env
  | line :: rest =>
    match readLine env line with
    | some env => readLines env rest
    | none => env

/-- The environment with the variables of a file that it does not have yet. -/
def load (env : Environment) (file : String) : Environment :=
  let cs := file.toList
  readLines env
    (joined [] .plain (linesWithEnds (if cs.head? = some '\uFEFF' then cs.tail else cs)))

end TableFlow.Dotenv
