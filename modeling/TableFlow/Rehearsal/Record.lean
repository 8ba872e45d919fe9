import TableFlow.Bulk.Executor
import TableFlow.Local.Engine

namespace TableFlow

inductive EngineReply
  | output (output : EngineOutput)
  | cannotStart (message : String)
  | echo
  | dump (table : String)

/-- The parts of a service's answer; a call takes those that it needs. -/
structure ServiceAnswer where
  session : String := ""
  id : String := ""
  state : String := ""
  message : Option String := none
  ids : List String := []
  text : String := ""

abbrev ServiceReply := Except Bulk.TransportError ServiceAnswer

inductive RehearsalEvent
  | engine (script : String)
  | login (endpoint : Endpoint)
  | call (endpoint : Endpoint) (method session : String) (arguments : List String)
  deriving DecidableEq, Repr

structure ServiceScript where
  replies : List ServiceReply := []
  waited : Nat := 0

structure Rehearsal where
  engine : List EngineReply := []
  src : Bulk.Connection ServiceScript := { service := {} }
  dst : Bulk.Connection ServiceScript := { service := {} }
  events : List RehearsalEvent := []

namespace Rehearsal

def record (r : Rehearsal) (e : RehearsalEvent) : Rehearsal := { r with events := r.events ++ [e] }

def cleared (r : Rehearsal) : Rehearsal := { r with events := [] }

end Rehearsal
end TableFlow
