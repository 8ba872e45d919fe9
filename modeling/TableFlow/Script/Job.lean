import TableFlow.Digest.Sha256
import TableFlow.Script.Parse
import TableFlow.Script.Tree
import TableFlow.Text.Lines

namespace TableFlow

structure Job where
  nodes : List StepNode
  /-- SHA-256 of the script's lines, each with a line feed after it. -/
  digest : String

namespace Job

def ofLines (lines : List String) : Except ScriptError Job := do
  let steps ← Step.ofLines lines
  let nodes ← StepNode.ofSteps steps
  .ok ⟨nodes, Sha256.hex (String.join (lines.map (· ++ "\n")))⟩

def parse (script : String) : Except ScriptError Job := ofLines (Text.lines script)

def steps (j : Job) : List Step := StepNode.stepsOf j.nodes

end Job
end TableFlow
