import TableFlow.Rehearsal.Record

namespace TableFlow.Rehearsal

open Bulk

def method {α : Type} : Call α → String × List String
  | .createJob operation object => ("create_job", [operation.name, object])
  | .addBatch job payload => ("add_batch", [job, payload])
  | .batchInfo job batch => ("batch_info", [job, batch])
  | .closeJob job => ("close_job", [job])
  | .queryResultIds job batch => ("query_result_ids", [job, batch])
  | .queryResultChunk job batch result => ("query_result_chunk", [job, batch, result])
  | .batchResults job batch => ("batch_results", [job, batch])

def batchOf (a : ServiceAnswer) : Except TransportError BatchInfo :=
  match BatchState.ofText? a.state with
  | some state => .ok { id := a.id, state, message := a.message }
  | none => .error (.unexpected s!"unknown batch state '{a.state}'")

def answerTo {α : Type} (a : ServiceAnswer) : Call α → Except TransportError α
  | .createJob .. | .closeJob _ => .ok ⟨a.id, a.state⟩
  | .addBatch .. | .batchInfo .. => batchOf a
  | .queryResultIds .. => .ok a.ids
  | .queryResultChunk .. | .batchResults .. => .ok a.text

structure Listened where
  script : ServiceScript
  events : List RehearsalEvent

namespace Listened

/-- Records an event and takes the next reply. -/
def take (event : RehearsalEvent) (name : String) : Act Listened TransportError ServiceAnswer :=
  Act.ofFun fun l =>
  let rest : Listened := ⟨{ l.script with replies := l.script.replies.tail }, l.events ++ [event]⟩
  (l.script.replies.head?.getD (.error (.unexpected s!"no reply scripted for {name}")), rest)

end Listened

def transport (endpoint : Endpoint) : Transport Listened where
  login := do
    let a ← Listened.take (.login endpoint) "login"
    return ⟨"", a.session⟩
  perform session c := do
    let (name, arguments) := method c
    let a ← Listened.take (.call endpoint name session.sessionId arguments) name
    Act.ofExcept (answerTo a c)
  pause ms l := { l with script.waited := l.script.waited + ms }
  clock l := l.script.waited
  answersLeft l := l.script.replies.length

def connection (endpoint : Endpoint) (r : Rehearsal) : Connection Listened :=
  let c := match endpoint with
    | .src => r.src
    | .dst => r.dst
  ⟨c.session, ⟨c.service, r.events⟩⟩

def withConnection (endpoint : Endpoint) (c : Connection Listened) (r : Rehearsal) : Rehearsal :=
  let held : Connection ServiceScript := ⟨c.session, c.service.script⟩
  match endpoint with
  | .src => { r with src := held, events := c.service.events }
  | .dst => { r with dst := held, events := c.service.events }

def remoteExecutor (endpoint : Endpoint) (settings : Settings) : Executor Rehearsal :=
  (Bulk.executor endpoint (transport endpoint) settings).focus (connection endpoint)
    (withConnection endpoint)

end TableFlow.Rehearsal
