namespace TableFlow

inductive Endpoint
  | src
  | dst
  deriving DecidableEq, Repr

def Endpoint.name : Endpoint → String
  | .src => "src"
  | .dst => "dst"

inductive MutationOp
  | insert
  | update
  deriving DecidableEq, Repr

def MutationOp.name : MutationOp → String
  | .insert => "insert"
  | .update => "update"

inductive Sink
  | localTable (name : String) (cached : Bool)
  | variable (name : String)
  | remoteObject (object : String) (op : MutationOp) (idsTable : Option String)
  deriving DecidableEq, Repr

/-- What a query reads: local tables in the order of their first mention, or one remote object. -/
inductive Source
  | localTables (names : List String)
  | remoteObject (endpoint : Endpoint) (object : String)
  deriving DecidableEq, Repr

inductive LoopMarker
  | plain
  | opens (param loopId : String)
  | closes (loopId : String)
  deriving DecidableEq, Repr

structure Step where
  line : Nat
  /-- Query without source qualifiers; empty on a line that only carries a marker. -/
  query : String := ""
  sinks : List Sink := []
  source : Option Source := none
  marker : LoopMarker := .plain
  text : String := ""
  deriving DecidableEq, Repr

namespace Sink

def isLocalTable : Sink → Bool
  | .localTable .. => true
  | _ => false

def isRemote : Sink → Bool
  | .remoteObject .. => true
  | _ => false

def sameKind : Sink → Sink → Bool
  | .localTable .., .localTable .. => true
  | .variable _, .variable _ => true
  | .remoteObject .., .remoteObject .. => true
  | _, _ => false

end Sink

namespace Step

def hasQuery (s : Step) : Bool := !s.query.isEmpty

def localSources (s : Step) : List String :=
  match s.source with
  | some (.localTables names) => names
  | _ => []

def remoteSource (s : Step) : Option (Endpoint × String) :=
  match s.source with
  | some (.remoteObject endpoint object) => some (endpoint, object)
  | _ => none

def hasRemoteSink (s : Step) : Bool := s.sinks.any Sink.isRemote

/-- A step whose only sink is a variable needs one value and no table, unless its rows drive a
loop. -/
def wantsScalar (s : Step) : Bool :=
  match s.sinks, s.marker with
  | [.variable _], .opens _ _ => false
  | [.variable _], _ => true
  | _, _ => false

end Step
end TableFlow
