import TableFlow.Script.LogicalLine
import TableFlow.Script.Reference
import TableFlow.Script.Segment

namespace TableFlow

inductive Directive
  | sink (sink : Sink)
  | opens (param loopId : String)
  | closes (loopId : String)
  deriving DecidableEq, Repr

namespace Directive

def isName (s : String) : Bool := !s.isEmpty && s.toList.all Text.isNameChar

def mutationOp? : String → Option MutationOp
  | "insert" => some .insert
  | "update" => some .update
  | _ => none

def remoteSink (op object : String) (idsTable : Option String) : Except SyntaxFault Directive :=
  match mutationOp? op with
  | some op => .ok (.sink (.remoteObject object op idsTable))
  | none => .error (.unknownOperation op)

def isKnownKind (kind : String) : Bool :=
  ["batch_begin", "batch_end", "csv", "var", "dst"].contains kind

def isMarkerKind (kind : String) : Bool := kind == "batch_begin" || kind == "batch_end"

def ofSegment (s : Segment) : Except SyntaxFault Directive :=
  match s.kind, s.fields with
  | "batch_begin", [param, loopId] => .ok (.opens param loopId)
  | "batch_end", [loopId] => .ok (.closes loopId)
  | "csv", [name] => .ok (.sink (.localTable name false))
  | "csv", [name, "cache"] => .ok (.sink (.localTable name true))
  | "var", [name] => .ok (.sink (.variable name))
  | "dst", [op, object] => remoteSink op object none
  | "dst", [op, object, idsTable] => remoteSink op object (some idsTable)
  | kind, fields =>
      .error (if isKnownKind kind then .malformedSegment kind fields else .unknownKind kind)

end Directive

structure Draft where
  sinks : List Sink := []
  marker : LoopMarker := .plain
  /-- Ids of the loops that earlier lines and segments have opened and not closed, innermost
  first. -/
  opened : List String
  deriving DecidableEq, Repr

namespace Draft

def apply (d : Draft) : Directive → Except SyntaxFault Draft
  | .sink sink =>
      if d.sinks.any sink.sameKind then .error .repeatedSink
      else .ok { d with sinks := d.sinks ++ [sink] }
  | .opens param loopId =>
      .ok { d with marker := .opens param loopId, opened := loopId :: d.opened }
  | .closes loopId =>
    if loopId ∈ d.opened then .ok { d with marker := .closes loopId,
                                           opened := d.opened.erase loopId }
    else .error (.notOpen loopId)

/-- One more segment. Names are checked first, and a second marker is refused whatever its form. -/
def add (d : Draft) (s : Segment) : Except SyntaxFault Draft :=
  match s.fields.find? (!Directive.isName ·) with
  | some bad => .error (.invalidName bad s.kind)
  | none =>
    if Directive.isMarkerKind s.kind && d.marker != .plain then .error .secondMarker
    else do d.apply (← Directive.ofSegment s)

end Draft

namespace Step

def isComment (text : List Char) : Bool := ['-', '-'].isPrefixOf text

def isLoopSegment (s : Segment) : Bool := "batch_".toList.isPrefixOf s.kind.toList

def ofComment (line : Nat) (text : List Char) (opened : List String) :
    Except SyntaxFault (Option Step × List String) :=
  match Segment.splitLine text with
  | .error _ => .ok (none, opened)
  | .ok (_, segments) => do
    let d ← (segments.filter isLoopSegment).foldlM Draft.add { opened }
    let step : Step := { line, marker := d.marker, text := String.ofList text }
    .ok (if d.marker = .plain then none else some step, d.opened)

def ofStatement (line : Nat) (text : List Char) (opened : List String) :
    Except SyntaxFault (Option Step × List String) := do
  let (query, segments) ← Segment.splitLine text
  let d ← segments.foldlM Draft.add { opened }
  if query.isEmpty && !d.sinks.isEmpty then .error .sinkWithoutQuery
  else
    let (bare, source) ← Source.infer (String.ofList query) d.sinks
    .ok (some { line, query := bare, sinks := d.sinks, source, marker := d.marker,
                text := String.ofList text }, d.opened)

def ofLine (line : LogicalLine) (opened : List String) :
    Except ScriptError (Option Step × List String) :=
  let text := Text.trim line.text.toList
  if text.isEmpty then .ok (none, opened)
  else
    let result :=
      if isComment text then ofComment line.number text opened
      else ofStatement line.number text opened
    result.mapError (.malformed line.number (String.ofList text))

def ofLogicalLines (opened : List String) : List LogicalLine → Except ScriptError (List Step)
  | [] => .ok []
  | line :: rest => do
    let (step, opened) ← ofLine line opened
    let steps ← ofLogicalLines opened rest
    .ok (step.toList ++ steps)

/-- The steps of script lines, in order. A loop that is closed must be open; crossed and
unclosed loops are found later, when the steps are put into a tree. -/
def ofLines (lines : List String) : Except ScriptError (List Step) :=
  ofLogicalLines [] (LogicalLine.ofLines lines)

end Step
end TableFlow
