import TableFlow.Backend.Error
import TableFlow.Json.Value
import TableFlow.Run.Instant
import TableFlow.Scope.Basic
import TableFlow.Text.Hex

namespace TableFlow

structure RunReport where
  /-- Read as the 128 bits of the run's id. -/
  runId : Nat := 0
  digest : String
  state : JobState := .idle
  startedAt : Option Instant := none
  finishedAt : Option Instant := none
  stepsExecuted : Nat := 0
  loopIterations : Nat := 0
  tablesWritten : List String := []
  bindings : Scope := .empty
  error : Option String := none

namespace RunReport

def idText (id : Nat) : String :=
  let digits := (List.range 32).map fun i => Hex.digit (id / Nat.pow 16 (31 - i) % 16)
  let part (start length : Nat) := String.ofList ((digits.drop start).take length)
  "-".intercalate [part 0 8, part 8 4, part 12 4, part 16 4, part 20 12]

def duration? (r : RunReport) : Option Int := do
  let start ← r.startedAt
  let finish ← r.finishedAt
  some (finish.ms - start.ms)

def variableLine (binding : String × Value) : String :=
  "  " ++ binding.1 ++ " = " ++ binding.2.render

def lines (r : RunReport) : List String :=
  ["Run: " ++ idText r.runId, "Script: " ++ r.digest, "State: " ++ r.state.name] ++
  (match r.duration? with
    | some ms => [s!"Duration: {ms}ms"]
    | none => []) ++
  [s!"Steps executed: {r.stepsExecuted}", s!"Loop iterations: {r.loopIterations}"] ++
  (if r.tablesWritten.isEmpty then
    [] else ["Tables written: " ++ ", ".intercalate r.tablesWritten]) ++
  (if r.bindings.toList.isEmpty then [] else "" :: "Variables:" ::
    r.bindings.toList.map variableLine) ++
  (match r.error with
    | some e => ["", "Error:", "  " ++ e]
    | none => [])

def text (r : RunReport) : String := String.join (r.lines.map (· ++ "\n"))

def valueJson : Value → JsonValue
  | .text s => .text s
  | .list items => .ofTexts items

def toJson (r : RunReport) : JsonValue :=
  .object [
    ("run_id", .text (idText r.runId)),
    ("digest", .text r.digest),
    ("state", .text r.state.name),
    ("started_at", .ofOption (fun i => .text i.text) r.startedAt),
    ("finished_at", .ofOption (fun i => .text i.text) r.finishedAt),
    ("steps_executed", .nat r.stepsExecuted),
    ("loop_iterations", .nat r.loopIterations),
    ("tables_written", .ofTexts r.tablesWritten),
    ("variables", .object (r.bindings.toList.map fun b => (b.1, valueJson b.2))),
    ("error", .ofOption .text r.error)]

end RunReport
end TableFlow
