import TableFlow.Backend.Executor

namespace TableFlow.Bulk

structure Transport (τ : Type) where
  login : Act τ TransportError Session
  perform {α : Type} : Session → Call α → Act τ TransportError α
  pause : Nat → τ → τ
  clock : τ → Nat
  /-- A bound on the number of calls that will still be answered with success. -/
  answersLeft : τ → Nat

structure Settings where
  maxBatchRows : Nat := 10000
  pollInterval : Nat := 2000
  /-- Seconds; without it polling goes on until every batch has ended. -/
  pollTimeout : Option Nat := some 3600
  reloginDelay : Nat := 120000
  deriving DecidableEq, Repr

structure Connection (τ : Type) where
  session : Option Session := none
  service : τ

namespace Connection

variable {τ α : Type} (t : Transport τ) (settings : Settings)

def onService (a : Act τ TransportError α) : Act (Connection τ) TransportError α :=
  a.focus Connection.service fun service c => { c with service }

def obtainSession : Act (Connection τ) ExecutionFault Session := do
  match (← get).session with
  | some session => return session
  | none =>
    let session ← (onService t.login).mapError .loginFailed
    modify fun c => { c with session := some session }
    return session

def renewSession : Act (Connection τ) ExecutionFault Session := do
  modify fun c => { session := none, service := t.pause settings.reloginDelay c.service }
  obtainSession t

/-- A call whose session has expired is made once more after a new login; no other failure is
tried again. -/
def call (c : Call α) : Act (Connection τ) ExecutionFault α := do
  let attempt (session : Session) := (onService (t.perform session c)).attempt
  match ← attempt (← obtainSession t) with
  | .ok answer => return answer
  | .error .sessionExpired =>
    match ← attempt (← renewSession t settings) with
    | .ok answer => return answer
    | .error .sessionExpired => throw (.expiredAgain c.title)
    | .error e => throw (.callFailed c.title e)
  | .error e => throw (.callFailed c.title e)

end Connection
end TableFlow.Bulk
