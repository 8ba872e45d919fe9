import TableFlow.Sql.Token
import TableFlow.Sql.Value

namespace TableFlow.Sql

inductive Expr
  | value (v : Value)
  /-- A column, with the place of its name in the text. A name in double quotes is text where no
  column has it. -/
  | column (name : String) (place : Nat) (orText : Bool)
  | negated (e : Expr)

inductive Item
  | all (place : Nat)
  | one (e : Expr) (source : String) (label : Option String)

structure Select where
  items : List Item
  table : Option String := none
  condition : Option Expr := none

inductive Statement
  | select (first : Select) (rest : List Select)
  | create (name written : String) (place : Nat) (columns : List (String × String))
  | insert (table : String) (rows : List (List Expr))

/-- Reading stops with the tokens that stand where it could not go on. -/
abbrev Reader (α : Type) := List Token → Except (List Token) (α × List Token)

namespace Reader

variable {α : Type}

def isWord (word : String) (t : Token) : Bool :=
  match t.kind with
  | .word text => text.map Char.toUpper == word
  | _ => false

def isSymbol (c : Char) (t : Token) : Bool := t.kind == .symbol c

def expect (p : Token → Bool) : Reader Token
  | t :: rest => if p t then .ok (t, rest) else .error (t :: rest)
  | [] => .error []

def reserved : List String :=
  ["ADD", "ALL", "ALTER", "AND", "AS", "AUTOINCREMENT", "BETWEEN", "CASE", "CHECK", "COLLATE",
    "COMMIT", "CONSTRAINT", "CREATE", "DEFAULT", "DEFERRABLE", "DELETE", "DISTINCT", "DROP",
    "ELSE", "ESCAPE", "EXCEPT", "EXISTS", "FOREIGN", "FROM", "GROUP", "HAVING", "IN", "INDEX",
    "INSERT", "INTERSECT", "INTO", "IS", "ISNULL", "JOIN", "LIMIT", "NOT", "NOTHING", "NOTNULL",
    "NULL", "ON", "OR", "ORDER", "PRIMARY", "REFERENCES", "RETURNING", "SELECT", "SET", "TABLE",
    "THEN", "TO", "TRANSACTION", "UNION", "UNIQUE", "UPDATE", "USING", "VALUES", "WHEN", "WHERE"]

def name : Reader (String × Token)
  | t :: rest =>
    match t.kind with
    | .name text _ => .ok ((text, t), rest)
    | .word text =>
        if reserved.contains (text.map Char.toUpper) then .error (t :: rest)
        else .ok ((text, t), rest)
    | _ => .error (t :: rest)
  | [] => .error []

def nameOrText : Reader (String × Token)
  | ⟨.text s, start, stop⟩ :: rest => .ok ((s, ⟨.text s, start, stop⟩), rest)
  | ts => name ts

def separated (read : Reader α) : Nat → Reader (List α)
  | 0, ts => .error ts
  | bound + 1, ts => do
    let (x, rest) ← read ts
    match rest with
    | t :: more =>
      if isSymbol ',' t then
        let (xs, after) ← separated read bound more
        .ok (x :: xs, after)
      else .ok ([x], rest)
    | [] => .ok ([x], [])

def list (read : Reader α) : Reader (List α) := fun ts => separated read ts.length ts

def parenthesized (read : Reader α) : Reader α := fun ts => do
  let (_, ts) ← expect (isSymbol '(') ts
  let (x, ts) ← read ts
  let (_, ts) ← expect (isSymbol ')') ts
  .ok (x, ts)

/-- A literal or a column, with signs in front. A number takes its sign before it is read. -/
def signed (negative : Bool) : Reader Expr
  | [] => .error []
  | t :: rest =>
    let withSign (e : Expr) : Expr := if negative then .negated e else e
    match t.kind with
    | .symbol '-' => signed (!negative) rest
    | .symbol '+' => signed negative rest
    | .number text => .ok (.value (.ofNumber negative text), rest)
    | .text s => .ok (withSign (.value (.text s)), rest)
    | .blob bytes => .ok (withSign (.value (.blob bytes)), rest)
    | .word _ =>
      if isWord "NULL" t then .ok (.value .null, rest)
      else do
        let ((text, t), rest) ← name (t :: rest)
        .ok (withSign (.column text t.start false), rest)
    | .name text quote => .ok (withSign (.column text t.start (quote == '"')), rest)
    | .symbol _ | .bad => .error (t :: rest)

def expr : Reader Expr := signed false

def label : Reader (Option String)
  | [] => .ok (none, [])
  | t :: rest =>
    if isWord "AS" t then do
      let ((given, _), more) ← nameOrText rest
      .ok (some given, more)
    else
      match nameOrText (t :: rest) with
      | .ok ((given, _), more) => .ok (some given, more)
      | .error _ => .ok (none, t :: rest)

def sourceText (source : List Char) (before after : List Token) : String :=
  match before, before[before.length - after.length - 1]? with
  | first :: _, some last => String.ofList ((source.take last.stop).drop first.start)
  | _, _ => ""

def item (source : List Char) : Reader Item
  | [] => .error []
  | t :: rest =>
    if isSymbol '*' t then .ok (.all t.start, rest)
    else do
      let (e, after) ← expr (t :: rest)
      let (given, more) ← label after
      .ok (.one e (sourceText source (t :: rest) after) given, more)

def clause (word : String) (read : Reader α) : Reader (Option α)
  | [] => .ok (none, [])
  | t :: rest =>
    if isWord word t then do
      let (x, more) ← read rest
      .ok (some x, more)
    else .ok (none, t :: rest)

def select (source : List Char) : Reader Select := fun ts => do
  let (_, ts) ← expect (isWord "SELECT") ts
  let (items, ts) ← list (item source) ts
  let (table, ts) ← clause "FROM" nameOrText ts
  let (condition, ts) ← clause "WHERE" expr ts
  .ok ({ items, table := table.map Prod.fst, condition }, ts)

def unions (source : List Char) : Nat → Reader (List Select)
  | _, [] => .ok ([], [])
  | 0, ts => .error ts
  | bound + 1, t :: rest =>
    if isWord "UNION" t then do
      let (_, ts) ← expect (isWord "ALL") rest
      let (s, ts) ← select source ts
      let (more, ts) ← unions source bound ts
      .ok (s :: more, ts)
    else .ok ([], t :: rest)

def column : Reader (String × String) := fun ts => do
  let ((name, _), rest) ← name ts
  let words := rest.takeWhile fun t => match t.kind with
    | .word _ => true
    | _ => false
  let type := words.map fun t => match t.kind with
    | .word text => text.map Char.toUpper
    | _ => ""
  .ok ((name, " ".intercalate type), rest.drop words.length)

def create (source : List Char) : Reader Statement := fun ts => do
  let (_, ts) ← expect (isWord "CREATE") ts
  let (_, ts) ← expect (isWord "TABLE") ts
  let ((text, t), ts) ← nameOrText ts
  let (columns, ts) ← parenthesized (list column) ts
  .ok (.create text (sourceText source [t] []) t.start columns, ts)

def insert : Reader Statement := fun ts => do
  let (_, ts) ← expect (isWord "INSERT") ts
  let (_, ts) ← expect (isWord "INTO") ts
  let ((table, _), ts) ← nameOrText ts
  let (_, ts) ← expect (isWord "VALUES") ts
  let (rows, ts) ← list (parenthesized (list expr)) ts
  .ok (.insert table rows, ts)

def statement (source : List Char) (ts : List Token) : Except (List Token) Statement := do
  let (s, rest) ←
    if ts.head?.any (isWord "CREATE") then create source ts
    else if ts.head?.any (isWord "INSERT") then insert ts
    else do
      let (first, rest) ← select source ts
      let (more, rest) ← unions source rest.length rest
      .ok (Statement.select first more, rest)
  if rest.all Token.isSemicolon then .ok s else .error rest

end Reader
end TableFlow.Sql
