import TableFlow.Bulk.Service
import TableFlow.Script.Fault
import TableFlow.Script.Step
import TableFlow.Store.TableStore

namespace TableFlow

inductive Backend
  | local
  | remote (endpoint : Endpoint)
  deriving DecidableEq, Repr

def Backend.name : Backend → String
  | .local => "local"
  | .remote endpoint => "remote:" ++ endpoint.name

inductive ExecutionFault
  | localMutation
  | cannotStart (engine : String) (e : SystemError)
  | exited (status : Int) (stderr : String)
  | unreadableOutput (e : TableError)
  | noColumns (table : String)
  | unreadableTable (table path : String) (e : TableError)
  | noObject
  | loginFailed (e : Bulk.TransportError)
  | callFailed (title : String) (e : Bulk.TransportError)
  | expiredAgain (title : String)
  | unfinished (job : String) (pending seconds : Nat)
  | batchEnded (job : String) (batch : Bulk.BatchInfo)
  | unreadableChunk (result : String) (e : TableError)
  | unreadableResults (batch : String) (e : TableError)
  | mixedResults (e : TableError)
  | other (message : String)
  deriving DecidableEq, Repr

namespace ExecutionFault

def message : ExecutionFault → String
  | .localMutation => "remote mutations cannot run on the local backend"
  | .cannotStart engine e => s!"cannot start {engine} engine: {e.message}"
  | .exited status stderr => s!"engine exited with status {status}: {stderr}"
  | .unreadableOutput e => s!"unreadable engine output: {e.message}"
  | .noColumns table =>
      s!"result for table '{table}' has no columns; refusing to write an unreadable table"
  | .unreadableTable table path e => s!"table '{table}' at {path} is unreadable: {e.message}"
  | .noObject => "remote query names no object to read"
  | .loginFailed e => s!"login failed: {e.message}"
  | .callFailed title e => s!"{title}: {e.message}"
  | .expiredAgain title => s!"{title}: session expired again after logging in"
  | .unfinished job pending seconds =>
      s!"job {job}: {pending} batch(es) not finished after {seconds}s"
  | .batchEnded job batch =>
      let why := batch.message.getD "no message"
      s!"job {job}: batch {batch.id} ended {batch.state.name}: {why}"
  | .unreadableChunk result e => s!"result chunk {result}: {e.message}"
  | .unreadableResults batch e => s!"batch {batch} results: {e.message}"
  | .mixedResults e => e.message
  | .other message => message

end ExecutionFault

inductive JobState
  | idle
  | running
  | completed
  | failed
  deriving DecidableEq, Repr

def JobState.name : JobState → String
  | .idle => "idle"
  | .running => "running"
  | .completed => "completed"
  | .failed => "failed"

inductive ConfigFault
  | alreadyRun (state : JobState)
  /-- A step needs an endpoint that is not there; seen before anything runs. -/
  | missingEndpoint (line : Nat) (endpoint : Endpoint)
  /-- The same, seen when the step is dispatched. -/
  | noEndpoint (endpoint : Endpoint)
  | unreadableManifest (path : String) (fault : Json.Fault)
  | other (message : String)
  deriving DecidableEq, Repr

def ConfigFault.message : ConfigFault → String
  | .alreadyRun state => s!"job already {state.name}; a controller runs once"
  | .missingEndpoint line endpoint =>
      s!"line {line} uses remote endpoint '{endpoint.name}', which is not configured"
  | .noEndpoint endpoint => s!"remote endpoint '{endpoint.name}' is not configured"
  | .unreadableManifest path fault => s!"table manifest {path} is unreadable: {fault.message}"
  | .other message => message

structure StepRef where
  line : Nat
  text : String
  deriving DecidableEq, Repr

def StepRef.describe (s : StepRef) : String := s!"line {s.line}: " ++ "\x60" ++ s.text ++ "\x60"

def Step.ref (s : Step) : StepRef := ⟨s.line, s.text⟩

inductive JobError
  | script (e : ScriptError)
  | dependency (table : String) (step : StepRef)
  | execution (backend : Backend) (fault : ExecutionFault) (step : Option StepRef)
  | config (fault : ConfigFault)
  | system (e : SystemError)
  deriving DecidableEq, Repr

namespace JobError

def ofStore : StoreError → JobError
  | .system e => .system e
  | .noColumns table => .execution .local (.noColumns table) none
  | .unreadableTable table path e => .execution .local (.unreadableTable table path e) none
  | .unreadableManifest path fault => .config (.unreadableManifest path fault)

/-- Names the failing step in an execution error that names none yet. -/
def atStep (step : Step) : JobError → JobError
  | .execution backend fault none => .execution backend fault (some step.ref)
  | e => e

def line? : JobError → Option Nat
  | .script e => some e.line
  | .dependency _ step => some step.line
  | .execution _ _ step => step.map (·.line)
  | .config _ | .system _ => none

def message : JobError → String
  | .script e => e.message
  | .dependency table step =>
      "dependency error at " ++ step.describe ++ s!": local table '{table}' has not been produced"
  | .execution backend fault step =>
      let place := match step with
        | some step => " at " ++ step.describe
        | none => ""
      s!"{backend.name} execution failed{place}: {fault.message}"
  | .config fault => s!"configuration error: {fault.message}"
  | .system e => s!"i/o error: {e.message}"

end JobError
end TableFlow
