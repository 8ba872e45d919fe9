import TableFlow.Backend.Executor
import TableFlow.Scope.Template
import TableFlow.Script.Tree

namespace TableFlow

structure Backends (σ : Type) where
  engine : Executor σ
  src : Option (Executor σ) := none
  dst : Option (Executor σ) := none
  clock : σ → Int := fun _ => 0

def Backends.remote {σ : Type} (b : Backends σ) : Endpoint → Option (Executor σ)
  | .src => b.src
  | .dst => b.dst

@[simp] theorem Backends.remote_src {σ : Type} (b : Backends σ) : b.remote .src = b.src := rfl

@[simp] theorem Backends.remote_dst {σ : Type} (b : Backends σ) : b.remote .dst = b.dst := rfl

structure RunOptions where
  accumulator : String := "batch_params"
  reuseCached : Bool := false
  cleanupScratch : Bool := false
  inputs : List String := []

structure RunState (σ : Type) where
  store : TableStore
  scope : Scope
  outside : σ
  steps : Nat := 0
  iterations : Nat := 0

abbrev Run (σ : Type) := Act (RunState σ) JobError

namespace Run

variable {σ α : Type} (b : Backends σ) (o : RunOptions)

def onStore (a : StoreAct α) : Run σ α :=
  (a.focus RunState.store fun store s => { s with store }).mapError JobError.ofStore

def dispatch (e : Executor σ) (request : Request) : Run σ Outcome := do
  let files := (← get).store.files
  ((e.execute request files).focus RunState.outside fun outside s => { s with outside }).mapError
    fun fault => .execution e.backend fault none

def remote (endpoint : Endpoint) : Run σ (Executor σ) :=
  match b.remote endpoint with
  | some e => pure e
  | none => throw (.config (.noEndpoint endpoint))

/-- The table that can stand in for a step: that of its first sink which is to last and can be
reused. -/
def standIn (store : TableStore) (step : Step) : Option String :=
  step.sinks.findSome? fun
    | .localTable name true => if store.reusable name then some name else none
    | _ => none

def dispatchQuery (step : Step) (shape : Shape) : Run σ Outcome := do
  let s ← get
  let sql := s.scope.interpolate step.query
  match step.remoteSource with
  | some (endpoint, object) => dispatch (← remote b endpoint) (.query sql (some object) [] shape)
  | none =>
    match s.store.resolve step.localSources with
    | .ok imports => dispatch b.engine (.query sql none imports shape)
    | .error table => throw (.dependency table step.ref)

def produce (step : Step) (shape : Shape) : Run σ Outcome := do
  let store := (← get).store
  match if o.reuseCached then standIn store step else none with
  | some name => return .table (← onStore (TableStore.load name))
  | none => dispatchQuery b step shape

def applySink (outcome : Outcome) : Sink → Run σ Unit
  | .localTable name cached => do
    let _ ← onStore (TableStore.store name outcome.toTable cached)
  | .variable name => modify fun s =>
      { s with scope := s.scope.set name (.text (outcome.toScalar?.getD "")) }
  | .remoteObject object op idsTable => do
    let answers ← dispatch (← remote b .dst) (.mutate op object outcome.toTable)
    match idsTable with
    | some table => let _ ← onStore (TableStore.store table answers.toTable false)
    | none => pure ()

/-- A step with a query and its sinks in order. A failure names the step. -/
def runQuery (step : Step) (shape : Shape) : Run σ Outcome := Act.mapError (JobError.atStep step) do
  let outcome ← produce b o step shape
  modify fun s => { s with steps := s.steps + 1 }
  step.sinks.forM (applySink b outcome)
  return outcome

def runStep (step : Step) (shape : Shape) : Run σ (Option Outcome) :=
  if step.hasQuery then some <$> runQuery b o step shape else pure none

/-- Runs a body in a scope of its own, gives the scope at its end, and goes back to the scope
around it, also after a failure. -/
def inScope (inner : Scope) (body : Run σ Unit) : Run σ Scope := Act.ofFun fun s =>
  let r := Act.runFrom { s with scope := inner } body
  (r.1.map fun _ => r.2.scope, { r.2 with scope := s.scope })

def iterationScope (accumulator param loopId value : String) (outer : Scope) : Scope :=
  ((outer.child accumulator).set param (.text value)).set loopId (.text value)

/-- The value of a row for an iteration: in the column named like the parameter, else in the
first one. -/
def rowValue (t : Table) (param : String) (row : List String) : String :=
  row.getD ((t.columnIndex param).getD 0) ""

def iterate (param loopId : String) (body : Run σ Unit) (value : String) : Run σ Unit := do
  let inner ← inScope (iterationScope o.accumulator param loopId value (← get).scope) body
  modify fun s => { s with scope := s.scope.absorb inner o.accumulator,
                           iterations := s.iterations + 1 }

mutual

def runNode : StepNode → Run σ Unit
  | .leaf step => do
    let _ ← runStep b o step (if step.wantsScalar then .scalar else .table)
  | .loop param loopId driver body => do
    let outcome ← runStep b o driver .table
    let table := (outcome.map Outcome.toTable).getD .empty
    table.rows.forM fun row => iterate o param loopId (runNodes body) (rowValue table param row)

def runNodes : List StepNode → Run σ Unit
  | [] => pure ()
  | node :: rest => do
    runNode node
    runNodes rest

end

end Run
end TableFlow
