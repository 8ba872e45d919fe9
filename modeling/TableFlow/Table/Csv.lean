import TableFlow.Table.Basic

namespace TableFlow.Csv

def special (c : Char) : Bool := c == ',' || c == '"' || c == '\n' || c == '\r'

def needsQuotes (value : List Char) : Bool :=
  value.any special || value.head? == some ' ' || value.getLast? == some ' '

def doubled (value : List Char) : List Char :=
  value.flatMap fun c => if c = '"' then ['"', '"'] else [c]

def quoted (value : List Char) : List Char := '"' :: doubled value ++ ['"']

/-- A field of a record; `lone` says that it is the only one, where an empty text would leave a
blank line. -/
def writeField (lone : Bool) (value : String) : List Char :=
  if needsQuotes value.toList || (lone && value.isEmpty) then quoted value.toList else value.toList

def writeRecord (values : List String) : List Char :=
  List.intercalate [','] (values.map (writeField (values.length == 1))) ++ ['\n']

def writeRecords (records : List (List String)) : String :=
  String.ofList (records.flatMap writeRecord)

/-- Where the reader stands: outside quotes, inside them, or after a quote that ends them unless
another follows. -/
inductive Mode
  | bare
  | inside
  | closing
  deriving DecidableEq, Repr

structure Reader where
  mode : Mode := .bare
  field : String := ""
  started : Bool := false
  record : Array String := #[]
  records : Array (List String) := #[]

def Reader.endRecord (r : Reader) : Reader :=
  { records := if r.started then r.records.push (r.record.push r.field).toList else r.records }

def Reader.stepBare (r : Reader) (c : Char) : Reader :=
  if c = '"' then { r with mode := .inside, started := true }
  else if c = ',' then { r with mode := .bare, field := "", record := r.record.push r.field,
                                started := true }
  else if c = '\n' ∨ c = '\r' then r.endRecord
  else { r with mode := .bare, field := r.field.push c, started := true }

def Reader.step (r : Reader) (c : Char) : Reader :=
  match r.mode with
  | .bare => r.stepBare c
  | .inside => if c = '"' then { r with mode := .closing } else { r with field := r.field.push c }
  | .closing =>
      if c = '"' then { r with mode := .inside, field := r.field.push c } else r.stepBare c

def Reader.finish (r : Reader) : Except TableError (List (List String)) :=
  match r.mode with
  | .inside => .error (.unterminatedQuote (r.records.size + 1))
  | _ => .ok r.endRecord.records.toList

/-- The records of a text. Lines end in a line feed, a carriage return or both, and blank lines
are passed over. -/
def parseRecords (text : String) : Except TableError (List (List String)) :=
  (text.toList.foldl Reader.step {}).finish

end TableFlow.Csv

namespace TableFlow.Table

def toCsv (t : Table) : String :=
  if t.fields.isEmpty then "" else Csv.writeRecords (t.fields :: t.rows)

def rowsToCsv (t : Table) : String := Csv.writeRecords t.rows

def ofCsv (text : String) : Except TableError Table := do
  match ← Csv.parseRecords text with
  | [] => .ok empty
  | fields :: rows => ofRows fields rows

end TableFlow.Table
