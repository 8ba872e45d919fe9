import TableFlow.Bulk.Executor

namespace TableFlow.Bulk

structure OutOfRange where
  index : Nat
  length : Nat
  deriving DecidableEq, Repr

inductive LogEntry
  | rejected (endpoint : Endpoint) (object : String) (op : MutationOp) (row : Nat) (error : String)
  | finished (endpoint : Endpoint) (object : String) (op : MutationOp) (rows rejected : Nat)
  deriving DecidableEq, Repr

def valueAt (row : List String) (i : Nat) : Except OutOfRange String :=
  match row[i]? with
  | some value => .ok value
  | none => .error ⟨i, row.length⟩

def errorIn (error : Option Nat) (row : List String) : Except OutOfRange String :=
  match error with
  | some i => valueAt row i
  | none => .ok ""

def rejection? (success : Nat) (error : Option Nat) (row : List String) :
    Except OutOfRange (Option String) := do
  let answer ← valueAt row success
  if answer.toLower = "false" then (errorIn error row).map some else .ok none

/-- What the log is told of the service's answers. Answers without a column of successes are not
looked into. -/
def rejectionLog (endpoint : Endpoint) (object : String) (op : MutationOp) (outcome : Table) :
    Except OutOfRange (List LogEntry) :=
  match outcome.columnIndex "Success" with
  | none => .ok []
  | some success => do
    let answers ← outcome.rows.mapM (rejection? success (outcome.columnIndex "Error"))
    let rejected :=
      (answers.zipIdx 1).filterMap fun (error, row) => error.map (.rejected endpoint object op row)
    .ok (rejected ++ [.finished endpoint object op outcome.rows.length rejected.length])

end TableFlow.Bulk
