import TableFlow.Sql.Statement

namespace TableFlow.Sql

structure Fault where
  message : String
  place : Option Nat := none

structure StoredTable where
  name : String
  /-- Names, and whether whole numbers are stored as integers. -/
  columns : List (String × Bool)
  rows : List (List Value) := []

abbrev Database := List StoredTable

structure ResultSet where
  fields : List String
  rows : List (List Value)

def sameName (a b : String) : Bool := a.map Char.toLower == b.map Char.toLower

namespace Database

def find? (db : Database) (name : String) : Option StoredTable :=
  List.find? (fun t => sameName t.name name) db

def repeatedColumn (seen : List String) : List String → Option String
  | [] => none
  | x :: xs => if seen.any (sameName x) then some x else repeatedColumn (x :: seen) xs

def create (db : Database) (name written : String) (place : Nat) (columns : List (String × Bool)) :
    Except Fault Database :=
  if ("sqlite_".toList).isPrefixOf ((name.map Char.toLower).toList) then
    .error ⟨"object name reserved for internal use: " ++ name, none⟩
  else if (db.find? name).isSome then .error ⟨s!"table {written} already exists", some place⟩
  else
    match repeatedColumn [] (columns.map Prod.fst) with
    | some column => .error ⟨"duplicate column name: " ++ column, none⟩
    | none => .ok (db ++ [{ name, columns }])

def stored (columns : List (String × Bool)) (row : List Value) : List Value :=
  (columns.zip row).map fun cv => if cv.1.2 then cv.2.asInteger else cv.2

def addRows (db : Database) (name : String) (rows : List (List Value)) : Database :=
  db.map fun t => if sameName t.name name then
    { t with rows := t.rows ++ rows.map (stored t.columns) } else t

def evaluate (columns : List String) (row : List Value) : Expr → Except Fault Value
  | .value v => .ok v
  | .column name place orText =>
    match columns.findIdx? (sameName name) with
    | some i => .ok (row.getD i .null)
    | none => if orText then .ok (.text name) else .error ⟨"no such column: " ++ name, some place⟩
  | .negated e => do return (← evaluate columns row e).negate

def itemNames (columns : List String) : Item → List String
  | .all _ => columns
  | .one _ _ (some label) => [label]
  | .one (.column name _ _) source none => [(columns.find? (sameName name)).getD source]
  | .one _ source none => [source]

def itemValues (columns : List String) (row : List Value) : Item → Except Fault (List Value)
  | .all _ => .ok row
  | .one e _ _ => do .ok [← evaluate columns row e]

/-- Columns and rows that a selection reads; without a table there is one row of no columns. -/
def sourceOf (db : Database) (s : Select) : Except Fault (List String × List (List Value)) :=
  match s.table with
  | none =>
    if s.items.any fun i => match i with
        | .all _ => true
        | _ => false
    then .error ⟨"no tables specified", none⟩
    else .ok ([], [[]])
  | some name =>
    match db.find? name with
    | some t => .ok (t.columns.map Prod.fst, t.rows)
    | none => .error ⟨"no such table: " ++ name, none⟩

def runSelect (db : Database) (s : Select) : Except Fault ResultSet := do
  let (columns, rows) ← db.sourceOf s
  -- names are looked up even where there are no rows
  let _ ← s.items.mapM (itemValues columns [])
  let _ ← s.condition.toList.mapM (evaluate columns [])
  let kept ← rows.filterM fun row =>
    match s.condition with
    | none => .ok true
    | some e => return (← evaluate columns row e).isTrue
  let values ← kept.mapM fun row => do return (← s.items.mapM (itemValues columns row)).flatten
  return ⟨s.items.flatMap (itemNames columns), values⟩

def runUnion (db : Database) (first : Select) (rest : List Select) : Except Fault ResultSet := do
  let head ← db.runSelect first
  let more ← rest.mapM db.runSelect
  if more.any (·.fields.length != head.fields.length) then
    .error
      ⟨"SELECTs to the left and right of UNION ALL do not have the same number of result columns",
        none⟩
  else return { head with rows := head.rows ++ more.flatMap ResultSet.rows }

/-- A column whose type names an integer keeps whole numbers as integers. -/
def keepsIntegers (type : String) : Bool := (type.splitOn "INT").length > 1

def execute (db : Database) : Statement → Except Fault (Database × Option ResultSet)
  | .select first rest => do return (db, some (← db.runUnion first rest))
  | .create name written place columns => do
    return (← db.create name written place (columns.map fun c => (c.1, keepsIntegers c.2)), none)
  | .insert table rows => do
    if rows.any (·.length != (rows.headD []).length) then
      throw ⟨"all VALUES must have the same number of terms", none⟩
    match db.find? table with
    | none => .error ⟨"no such table: " ++ table, none⟩
    | some t =>
      let values ← rows.mapM fun row => row.mapM (evaluate [] [])
      match values.find? (·.length != t.columns.length) with
      | some row =>
        .error
          ⟨s!"table {table} has {t.columns.length} columns but {row.length} values were supplied",
            none⟩
      | none => return (db.addRows table values, none)

end Database
end TableFlow.Sql
