import TableFlow.Bulk.Connection
import TableFlow.Text.Blank

namespace TableFlow.Bulk

def outcomeFields : List String := ["Id", "Success", "Created", "Error"]

def noRecords : String := "Records not found for this query"

def Operation.ofMutation : MutationOp → Operation
  | .insert => .insert
  | .update => .update

namespace Connection

variable {τ : Type} (t : Transport τ) (settings : Settings)

def submit (job : String) (payloads : List String) :
    Act (Connection τ) ExecutionFault (List BatchInfo) := do
  let batches ← payloads.mapM fun payload => call t settings (.addBatch job payload)
  let _ ← call t settings (.closeJob job)
  return batches

def pollPass (job : String) (batches : List BatchInfo) :
    Act (Connection τ) ExecutionFault (List BatchInfo) :=
  batches.mapM fun batch => if batch.state.isTerminal then
    pure batch else call t settings (.batchInfo job batch.id)

def pending (batches : List BatchInfo) : Nat := (batches.filter (!·.state.isTerminal)).length

def timedOut (started now : Nat) : Bool :=
  settings.pollTimeout.any fun seconds => started + 1000 * seconds ≤ now

def pollFrom (job : String) (started : Nat) :
    Nat → List BatchInfo → Act (Connection τ) ExecutionFault (List BatchInfo)
  | 0, batches => throw (.unfinished job (pending batches) (settings.pollTimeout.getD 0))
  | passes + 1, batches => do
    let batches ← pollPass t settings job batches
    if pending batches = 0 then return batches
    if timedOut settings started (t.clock (← get).service) then
      throw (.unfinished job (pending batches) (settings.pollTimeout.getD 0))
    modify fun c => { c with service := t.pause settings.pollInterval c.service }
    pollFrom job started passes batches

/-- Waits for every batch. A pass that leaves a batch pending has been answered, so the
service's own bound on its answers is one on the passes. -/
def wait (job : String) (batches : List BatchInfo) :
    Act (Connection τ) ExecutionFault (List BatchInfo) := do
  let service := (← get).service
  let batches ← pollFrom t settings job (t.clock service) (t.answersLeft service + 1) batches
  match batches.find? (·.state != .completed) with
  | some bad => throw (.batchEnded job bad)
  | none => return batches

def runJob (operation : Operation) (object : String) (payloads : List String) :
    Act (Connection τ) ExecutionFault (String × List BatchInfo) := do
  let job ← call t settings (.createJob operation object)
  let batches ← submit t settings job.id payloads
  return (job.id, ← wait t settings job.id batches)

/-- The table of one result chunk; the service's sentence for no results is none. -/
def readChunk (result text : String) : Except ExecutionFault (Option Table) :=
  if Text.trimmed text = noRecords then .ok none
  else ((Table.ofCsv text).map some).mapError (.unreadableChunk result)

def fetchChunks (job : String) (batch : BatchInfo) :
    Act (Connection τ) ExecutionFault (List (Option Table)) := do
  let results ← call t settings (.queryResultIds job batch.id)
  results.mapM fun result => do
    let text ← call t settings (.queryResultChunk job batch.id result)
    Act.ofExcept (readChunk result text)

def query (sql object : String) (shape : Shape) : Act (Connection τ) ExecutionFault Outcome := do
  let (job, batches) ← runJob t settings .query object [sql]
  let parts ← batches.mapM (fetchChunks t settings job)
  let data ← Act.ofExcept ((Table.concat (parts.flatten.filterMap id)).mapError .mixedResults)
  return .ofTable shape data

def fetchResults (job : String) (batch : BatchInfo) : Act (Connection τ) ExecutionFault Table := do
  let text ← call t settings (.batchResults job batch.id)
  Act.ofExcept ((Table.ofCsv text).mapError (.unreadableResults batch.id))

/-- Sends the rows in batches. Without rows there is no job and the answer is a header. -/
def mutate (op : MutationOp) (object : String) (rows : Table) :
    Act (Connection τ) ExecutionFault Outcome := do
  if rows.rows.isEmpty then return .table (Table.headerOnly outcomeFields (by decide))
  let payloads := (rows.chunks settings.maxBatchRows).map Table.toCsv
  let (job, batches) ← runJob t settings (.ofMutation op) object payloads
  let parts ← batches.mapM (fetchResults t settings job)
  return .table (← Act.ofExcept ((Table.concat parts).mapError .mixedResults))

end Connection

def executor {τ : Type} (endpoint : Endpoint) (t : Transport τ) (settings : Settings) :
    Executor (Connection τ) where
  backend := .remote endpoint
  execute request _ :=
    match request with
    | .query sql (some object) _ shape => Connection.query t settings sql object shape
    | .query _ none _ _ => throw .noObject
    | .mutate op object rows => Connection.mutate t settings op object rows

end TableFlow.Bulk
