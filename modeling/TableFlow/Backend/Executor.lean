import TableFlow.Backend.Error

namespace TableFlow

inductive Shape
  | table
  | scalar
  deriving DecidableEq, Repr

inductive Request
  | query (sql : String) (object : Option String) (imports : List (String × Path)) (shape : Shape)
  | mutate (op : MutationOp) (object : String) (rows : Table)
  deriving DecidableEq

inductive Outcome
  | table (t : Table)
  | scalar (value : String)
  deriving DecidableEq

namespace Outcome

def toTable : Outcome → Table
  | .table t => t
  | .scalar value => Table.single "value" value

def toScalar? : Outcome → Option String
  | .table t => t.firstValue
  | .scalar value => some value

/-- A table in the shape that is asked for. A table without rows has the empty text for its
value. -/
def ofTable (shape : Shape) (t : Table) : Outcome :=
  match shape with
  | .table => .table t
  | .scalar => .scalar (t.firstValue.getD "")

end Outcome

structure Executor (σ : Type) where
  backend : Backend
  execute : Request → FileTree → Act σ ExecutionFault Outcome

def Executor.focus {σ τ : Type} (get : σ → τ) (set : τ → σ → σ) (e : Executor τ) : Executor σ :=
  ⟨e.backend, fun request files => (e.execute request files).focus get set⟩

end TableFlow
