import TableFlow.Script.Job
import TableFlow.Script.Segment

namespace TableFlow

def Sink.segment : Sink → Segment
  | .localTable name true => ⟨"csv", [name, "cache"]⟩
  | .localTable name false => ⟨"csv", [name]⟩
  | .variable name => ⟨"var", [name]⟩
  | .remoteObject object op (some idsTable) => ⟨"dst", [op.name, object, idsTable]⟩
  | .remoteObject object op none => ⟨"dst", [op.name, object]⟩

def Step.sinkText (s : Step) : String :=
  String.join (s.sinks.map fun sink => " => " ++ sink.segment.text)

def Step.describe (s : Step) : String := s!"line {s.line}: " ++ s.query ++ s.sinkText

namespace StepNode

def indent (depth : Nat) : String := String.ofList (List.replicate (2 * depth) ' ')

mutual

/-- The lines of a node that stands inside `depth` loops. -/
def listing (depth : Nat) : StepNode → List String
  | .leaf step => if step.hasQuery then [indent depth ++ step.describe] else []
  | .loop param loopId driver body =>
    (indent depth ++ s!"loop {loopId} over {param} (line {driver.line})") ::
      (indent (depth + 1) ++ "driver " ++ driver.describe) :: listingOf (depth + 1) body

def listingOf (depth : Nat) : List StepNode → List String
  | [] => []
  | node :: rest => node.listing depth ++ listingOf depth rest

end

end StepNode

namespace Job

def listing (j : Job) : List String := StepNode.listingOf 0 j.nodes

def stepCount (j : Job) : Nat := (j.steps.filter Step.hasQuery).length

end Job
end TableFlow
