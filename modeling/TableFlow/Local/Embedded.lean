import TableFlow.Local.Engine
import TableFlow.Sql.Database

namespace TableFlow

inductive EmbeddedError
  | read (path : String) (e : SystemError)
  | importTable (table : String) (e : TableError)
  | result (e : TableError)
  | sql (fault : Sql.Fault) (source : List Char) (start : Nat)

def EmbeddedError.message : EmbeddedError → String
  | .read path e => s!"cannot read '{path}': {e.message}"
  | .importTable table e => s!"cannot import '{table}': {e.message}"
  | .result e => s!"result set is not a valid table: {e.message}"
  | .sql fault source start =>
      let rest := source.drop start
      match fault.place with
      | some place =>
        let before := String.ofList (rest.take (place - start))
        s!"{fault.message} in {String.ofList rest} at offset {before.utf8ByteSize}"
      | none => fault.message

namespace Embedded

def quoteName (name : String) : String := "\"" ++ "\"\"".intercalate (name.splitOn "\"") ++ "\""

def importStatement (table : String) (fields : List String) : String :=
  let columns := ", ".intercalate (fields.map fun f => quoteName f ++ " TEXT")
  s!"CREATE TABLE {quoteName table} ({columns})"

def importFile (files : FileTree) (db : Sql.Database) (t : String × Path) :
    Except EmbeddedError Sql.Database := do
  let text ← (files.read t.2).mapError (.read t.2.text)
  let data ← (Table.ofCsv text).mapError (.importTable t.1)
  if data.fields.isEmpty then return db
  let db ← (db.create t.1 (quoteName t.1) "CREATE TABLE ".length
    (data.fields.map fun f => (f, false))).mapError fun fault =>
      .sql fault (importStatement t.1 data.fields).toList 0
  return db.addRows t.1 (data.rows.map fun row => row.map .text)

def toTable (r : Sql.ResultSet) : Except EmbeddedError Table :=
  (Table.ofRows r.fields (r.rows.map fun row => row.map Sql.Value.render)).mapError .result

def syntaxFault (source : List Char) : List Sql.Token → Sql.Fault
  | [] => ⟨"incomplete input", none⟩
  | t :: _ =>
    let text := String.ofList ((source.take t.stop).drop t.start)
    let message := match t.kind with
      | .bad => "unrecognized token: \"" ++ text ++ "\""
      | _ => "near \"" ++ text ++ "\": syntax error"
    ⟨message, some t.start⟩

/-- Runs statements in order and keeps the last result. The next statement begins after `start`
characters, where the one before it ended; a semicolon alone ends none. -/
def runStatements (source : List Char) :
    Sql.Database → Option Table → Nat → List (List Sql.Token) → Except EmbeddedError (Option Table)
  | _, last, _, [] => .ok last
  | db, last, start, tokens :: rest =>
    if tokens.all Sql.Token.isSemicolon then runStatements source db last start rest
    else do
      let statement ← (Sql.Reader.statement source tokens).mapError fun stuck =>
        .sql (syntaxFault source stuck) source start
      let (db, result) ← (db.execute statement).mapError fun fault => .sql fault source start
      let last ← match result with
        | some r => some <$> toTable r
        | none => .ok last
      runStatements source db last ((tokens.getLast?.map Sql.Token.stop).getD start) rest

def runScript (script : LocalScript) (files : FileTree) : Except EmbeddedError String := do
  let db ← script.imports.foldlM (importFile files) []
  let source := script.query.toList
  match ← runStatements source db none 0 (Sql.Token.statements (Sql.Token.ofText source)) with
  | none => return ""
  | some t => return if script.headers then t.toCsv else t.rowsToCsv

def engine {σ : Type} : Engine σ where
  name := "embedded"
  run script files :=
    match runScript script files with
    | .ok stdout => pure { stdout }
    | .error e => pure { status := 1, stderr := "Error: " ++ e.message }

end Embedded
end TableFlow
