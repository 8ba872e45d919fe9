import TableFlow.Script.Fault
import TableFlow.Script.Step

namespace TableFlow

/-- A loop runs its body once for each row of its driver: the step that opens it or, if that
line has no query, the step just before it. The step that closes a loop is the last leaf of its
body. -/
inductive StepNode
  | leaf (step : Step)
  | loop (param loopId : String) (driver : Step) (body : List StepNode)

namespace StepNode

mutual

def steps : StepNode → List Step
  | .leaf step => [step]
  | .loop _ _ driver body => driver :: stepsOf body

def stepsOf : List StepNode → List Step
  | [] => []
  | node :: rest => node.steps ++ stepsOf rest

end

end StepNode

structure OpenLoop where
  line : Nat
  param : String
  loopId : String
  driver : Step
  body : List StepNode

/-- Nodes outside all open loops, and the open loops, innermost first. -/
structure TreeBuilder where
  root : List StepNode := []
  loops : List OpenLoop := []

namespace TreeBuilder

def current (b : TreeBuilder) : List StepNode :=
  match b.loops with
  | [] => b.root
  | l :: _ => l.body

def withCurrent (b : TreeBuilder) (nodes : List StepNode) : TreeBuilder :=
  match b.loops with
  | [] => { b with root := nodes }
  | l :: outer => { b with loops := { l with body := nodes } :: outer }

def push (b : TreeBuilder) (node : StepNode) : TreeBuilder := b.withCurrent (b.current ++ [node])

def detachDriver (loopId : String) (nodes : List StepNode) :
    Except StructureFault (List StepNode × Step) :=
  match nodes.getLast? with
  | none => .error (.noDriver loopId)
  | some (.leaf step) =>
    if step.hasQuery && step.marker == .plain then .ok (nodes.dropLast, step)
    else .error (.unfitDriver loopId)
  | some (.loop ..) => .error (.unfitDriver loopId)

def openLoop (b : TreeBuilder) (step : Step) (param loopId : String) :
    Except StructureFault TreeBuilder :=
  if b.loops.any (·.loopId == loopId) then .error (.reusedId loopId)
  else if step.hasQuery then .ok { b with loops := ⟨step.line, param, loopId, step, []⟩ :: b.loops }
  else do
    let (nodes, driver) ← detachDriver loopId b.current
    let rest := b.withCurrent nodes
    .ok { rest with loops := ⟨step.line, param, loopId, driver, []⟩ :: rest.loops }

def closeLoop (b : TreeBuilder) (step : Step) (loopId : String) :
    Except StructureFault TreeBuilder :=
  match b.loops with
  | [] => .error (.neverOpened loopId)
  | l :: outer =>
    if l.loopId = loopId then
      let closed := StepNode.loop l.param l.loopId l.driver (l.body ++ [.leaf step])
      .ok ({ b with loops := outer }.push closed)
    else .error (.crosses loopId l.loopId l.line)

def add (b : TreeBuilder) (step : Step) : Except ScriptError TreeBuilder :=
  match step.marker with
  | .plain => .ok (b.push (.leaf step))
  | .opens param loopId => (b.openLoop step param loopId).mapError (.misnested step.line)
  | .closes loopId => (b.closeLoop step loopId).mapError (.misnested step.line)

def finish (b : TreeBuilder) : Except ScriptError (List StepNode) :=
  match b.loops with
  | [] => .ok b.root
  | l :: _ => .error (.misnested l.line (.neverClosed l.loopId))

end TreeBuilder

def StepNode.ofSteps (steps : List Step) : Except ScriptError (List StepNode) := do
  (← steps.foldlM TreeBuilder.add {}).finish

end TableFlow
