import TableFlow.Local.Engine

namespace TableFlow

/-- How a process ended; `exit` is none if it was killed. -/
structure ProcessResult where
  exit : Option Int := some 0
  stdout : List UInt8 := []
  stderr : List UInt8 := []

abbrev Program (σ : Type) := List String → String → Act σ SystemError ProcessResult

namespace Shell

variable {σ : Type}

def arguments : List String := ["-batch", "-bail"]

def exec (program : Program σ) (script : LocalScript) : Act σ SystemError EngineOutput := do
  let r ← program arguments script.render
  return { status := r.exit.getD (-1), stdout := Utf8.decode r.stdout,
           stderr := Utf8.decode r.stderr }

/-- The header line that listed columns make, if they make one. The shell prints none for a
result without rows. -/
def headerOf (listed : EngineOutput) : Option String :=
  if listed.status ≠ 0 then none
  else
    match Csv.parseRecords listed.stdout with
    | .error _ => none
    | .ok records =>
      match records.filterMap List.head? with
      | [] => none
      | fields => (Table.ofRows fields []).toOption.map Table.toCsv

def engine (program : Program σ) : Engine σ where
  name := "sqlite3"
  run script _ := do
    let output ← exec program script
    if output.status ≠ 0 || !script.headers || !(Text.trim output.stdout.toList).isEmpty then
      return output
    match script.columnsScript with
    | none => return output
    | some columns =>
      match headerOf (← exec program columns) with
      | some header => return { stdout := header }
      | none => return output

end Shell
end TableFlow
