namespace TableFlow.Bulk

structure Session where
  instanceUrl : String
  sessionId : String
  deriving DecidableEq, Repr

inductive TransportError
  | sessionExpired
  | api (code message : String)
  | http (message : String)
  | unexpected (message : String)
  deriving DecidableEq, Repr

def TransportError.message : TransportError → String
  | .sessionExpired => "session expired or invalid"
  | .api code message => s!"api error {code}: {message}"
  | .http message => s!"http error: {message}"
  | .unexpected message => s!"unexpected response: {message}"

inductive Operation
  | query
  | insert
  | update
  deriving DecidableEq, Repr

def Operation.name : Operation → String
  | .query => "query"
  | .insert => "insert"
  | .update => "update"

structure JobInfo where
  id : String
  state : String
  deriving DecidableEq, Repr

inductive BatchState
  | queued
  | inProgress
  | completed
  | failed
  | notProcessed
  deriving DecidableEq, Repr

namespace BatchState

def ofText? : String → Option BatchState
  | "Queued" => some .queued
  | "InProgress" => some .inProgress
  | "Completed" => some .completed
  | "Failed" => some .failed
  | "Not Processed" | "NotProcessed" => some .notProcessed
  | _ => none

def name : BatchState → String
  | .queued => "Queued"
  | .inProgress => "InProgress"
  | .completed => "Completed"
  | .failed => "Failed"
  | .notProcessed => "NotProcessed"

def isTerminal : BatchState → Bool
  | .queued | .inProgress => false
  | .completed | .failed | .notProcessed => true

end BatchState

structure BatchInfo where
  id : String
  state : BatchState
  message : Option String := none
  deriving DecidableEq, Repr

inductive Call : Type → Type
  | createJob (operation : Operation) (object : String) : Call JobInfo
  | addBatch (job payload : String) : Call BatchInfo
  | batchInfo (job batch : String) : Call BatchInfo
  | closeJob (job : String) : Call JobInfo
  /-- Ids of the result chunks of a finished query batch, in the order of the service. -/
  | queryResultIds (job batch : String) : Call (List String)
  | queryResultChunk (job batch result : String) : Call String
  | batchResults (job batch : String) : Call String

namespace Call

def title {α : Type} : Call α → String
  | .createJob .. => "create job"
  | .addBatch .. => "add batch"
  | .batchInfo .. => "batch status"
  | .closeJob .. => "close job"
  | .queryResultIds .. => "list query results"
  | .queryResultChunk .. => "fetch query result"
  | .batchResults .. => "fetch batch results"

end Call
end TableFlow.Bulk
