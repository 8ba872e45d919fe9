namespace TableFlow

/-- What the line grammar could go on with. -/
inductive Expected
  | kind
  | field
  | endOfLine
  deriving DecidableEq, Repr

def Expected.name : Expected → String
  | .kind => "kind"
  | .field => "field"
  | .endOfLine => "EOI"

inductive SyntaxFault
  | unexpected (expected : Expected) (column : Nat)
  | invalidName (name kind : String)
  | secondMarker
  | notOpen (loopId : String)
  | malformedSegment (kind : String) (fields : List String)
  | unknownKind (kind : String)
  | unknownOperation (op : String)
  | repeatedSink
  | sinkWithoutQuery
  | manyRemotes (count : Nat)
  | mixedSources
  | other (message : String)
  deriving DecidableEq, Repr

def SyntaxFault.message : SyntaxFault → String
  | .unexpected expected column => s!"expected {expected.name} at column {column}"
  | .invalidName name kind => s!"invalid name '{name}' in '{kind}' segment"
  | .secondMarker => "a line may carry only one loop marker"
  | .notOpen loopId => s!"batch_end:{loopId} has no open batch_begin"
  | .malformedSegment kind fields =>
      let segment := ":".intercalate (kind :: fields)
      s!"malformed '{kind}' segment '{segment}'"
  | .unknownKind kind => s!"unrecognized sink kind '{kind}'"
  | .unknownOperation op => s!"unrecognized dst operation '{op}'"
  | .repeatedSink => "a line may carry at most one sink of each kind"
  | .sinkWithoutQuery => "sink has no query to take rows from"
  | .manyRemotes count => s!"query reads {count} remote objects; only one is allowed per step"
  | .mixedSources => "query mixes local tables with a remote object"
  | .other message => message

inductive StructureFault
  | reusedId (loopId : String)
  | unfitDriver (loopId : String)
  | noDriver (loopId : String)
  | neverOpened (loopId : String)
  | crosses (loopId innermost : String) (line : Nat)
  | neverClosed (loopId : String)
  | other (message : String)
  deriving DecidableEq, Repr

def StructureFault.message : StructureFault → String
  | .reusedId loopId => s!"batch_begin:{loopId} reuses the id of a loop that is still open"
  | .unfitDriver loopId => s!"batch_begin:{loopId} must follow a plain query step to drive it"
  | .noDriver loopId => s!"batch_begin:{loopId} has no preceding step to drive it"
  | .neverOpened loopId => s!"batch_end:{loopId} closes a loop that was never opened"
  | .crosses loopId innermost line =>
      s!"batch_end:{loopId} crosses open loop '{innermost}' opened at line {line}"
  | .neverClosed loopId => s!"batch_begin:{loopId} is never closed"
  | .other message => message

inductive ScriptError
  | malformed (line : Nat) (text : String) (fault : SyntaxFault)
  | misnested (line : Nat) (fault : StructureFault)
  deriving DecidableEq, Repr

def ScriptError.line : ScriptError → Nat
  | .malformed line _ _ => line
  | .misnested line _ => line

def ScriptError.message : ScriptError → String
  | .malformed line text fault =>
      let why := fault.message
      s!"syntax error at line {line}: {why} (" ++ "\x60" ++ text ++ "\x60)"
  | .misnested line fault =>
      let why := fault.message
      s!"structure error at line {line}: {why}"

end TableFlow
