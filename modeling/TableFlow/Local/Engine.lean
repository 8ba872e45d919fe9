import TableFlow.Backend.Executor
import TableFlow.Local.Script

namespace TableFlow

structure EngineOutput where
  status : Int := 0
  stdout : String := ""
  stderr : String := ""
  deriving DecidableEq, Repr

structure Engine (σ : Type) where
  name : String
  run : LocalScript → FileTree → Act σ SystemError EngineOutput

namespace Engine

variable {σ : Type}

/-- Output with a header line is a table; without one, its first cell is the value that is
wanted. -/
def readOutput (shape : Shape) (output : EngineOutput) : Except ExecutionFault Outcome :=
  if output.status ≠ 0 then .error (.exited output.status (Text.trimmed output.stderr))
  else
    match shape with
    | .table => ((Table.ofCsv output.stdout).map .table).mapError .unreadableOutput
    | .scalar =>
      ((Csv.parseRecords output.stdout).map fun records =>
        .scalar ((records.head? >>= List.head?).getD "")).mapError
        .unreadableOutput

def executor (engine : Engine σ) : Executor σ where
  backend := .local
  execute request files :=
    match request with
    | .mutate .. => throw .localMutation
    | .query sql _ imports shape => do
      let script : LocalScript := { imports, headers := shape == .table, query := sql }
      let output ← (engine.run script files).mapError (.cannotStart engine.name)
      Act.ofExcept (readOutput shape output)

end Engine
end TableFlow
