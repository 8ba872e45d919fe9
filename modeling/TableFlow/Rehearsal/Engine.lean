import TableFlow.Rehearsal.Record

namespace TableFlow.Rehearsal

def printed (script : LocalScript) (t : Table) : EngineOutput :=
  { stdout := if script.headers then t.toCsv else t.rowsToCsv }

def dumpTable (script : LocalScript) (files : FileTree) (name : String) :
    Except SystemError EngineOutput :=
  match script.imports.find? (·.1 == name) with
  | none => .ok { status := 1, stderr := "no such table: " ++ name }
  | some (_, path) => do
    match Table.ofCsv (← files.read path) with
    | .ok t => .ok (printed script t)
    | .error e => .ok { status := 1, stderr := e.message }

def answer (script : LocalScript) (files : FileTree) : EngineReply → Except SystemError EngineOutput
  | .output output => .ok output
  | .cannotStart message => .error (.other message)
  | .echo => .ok (printed script (Table.single "q" script.query))
  | .dump name => dumpTable script files name

/-- Takes the next reply; once there are none left, every query is echoed. -/
def localEngine : Engine Rehearsal where
  name := "fake"
  run script files := Act.ofFun fun r =>
    (answer script files (r.engine.head?.getD .echo),
      { r with engine := r.engine.tail }.record (.engine script.render))

end TableFlow.Rehearsal
