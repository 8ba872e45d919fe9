import TableFlow.Run.Report
import TableFlow.Run.Walk
import TableFlow.Script.Job

namespace TableFlow

namespace Step

def endpoints (s : Step) : List Endpoint :=
  (s.remoteSource.map Prod.fst).toList ++ if s.hasRemoteSink then [.dst] else []

end Step

structure Controller (σ : Type) where
  job : Job
  backends : Backends σ
  options : RunOptions
  report : RunReport
  current : RunState σ

namespace Controller

variable {σ : Type}

def new (job : Job) (backends : Backends σ) (options : RunOptions) (bindings : Scope)
    (store : TableStore) (outside : σ) (runId : Nat) : Controller σ :=
  { job, backends, options, report := { runId, digest := job.digest },
    current := { store, scope := bindings, outside } }

def preflight (b : Backends σ) (steps : List Step) : Except ConfigFault Unit :=
  steps.forM fun step => step.endpoints.forM fun endpoint =>
    if (b.remote endpoint).isSome then .ok () else .error (.missingEndpoint step.line endpoint)

def execute (job : Job) (b : Backends σ) (o : RunOptions) : Run σ Unit := do
  Act.ofExcept ((preflight b job.steps).mapError .config)
  let _ ← Run.onStore (TableStore.discover o.inputs)
  Run.runNodes b o job.nodes
  if o.cleanupScratch then
    let _ ← Run.onStore TableStore.cleanup

/-- Runs the job, once. The first failure ends the run; what was done before it stays done, and
the report is kept either way. -/
def run (c : Controller σ) : Except JobError Unit × Controller σ :=
  if c.report.state ≠ .idle then (.error (.config (.alreadyRun c.report.state)), c)
  else
    let r := Act.runFrom c.current (execute c.job c.backends c.options)
    let report := {
      c.report with
      startedAt := some ⟨c.backends.clock c.current.outside⟩
      finishedAt := some ⟨c.backends.clock r.2.outside⟩
      stepsExecuted := r.2.steps
      loopIterations := r.2.iterations
      tablesWritten := r.2.store.written
      bindings := r.2.scope }
    match r.1 with
    | .ok () => (.ok (), { c with report := { report with state := .completed }, current := r.2 })
    | .error e =>
        (.error e, { c with report := { report with state := .failed, error := some e.message },
                            current := r.2 })

end Controller
end TableFlow
