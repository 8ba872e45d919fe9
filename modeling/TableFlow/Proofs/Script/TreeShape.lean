import TableFlow.Proofs.Script.TreeBuilder

namespace TableFlow

namespace StepNode

theorem stepsOf_append (front back : List StepNode) :
    stepsOf (front ++ back) = stepsOf front ++ stepsOf back := by
  induction front with
  | nil => rfl
  | cons node rest ih => simp only [List.cons_append, stepsOf, ih, List.append_assoc]

theorem stepsOf_singleton (node : StepNode) : stepsOf [node] = node.steps := List.append_nil _

/-- Nodes as they may stand inside loops with the ids `outer`. A loop has a driver with a query
and an id of its own. The step that closes it is the last node of its body, and no other step
there carries a marker. -/
inductive WellFormed : List String → StepNode → Prop
  | leaf {outer step} : step.marker = .plain → WellFormed outer (.leaf step)
  | loop {outer param loopId driver inner closing} : driver.hasQuery = true → loopId ∉ outer →
      (∀ node ∈ inner, WellFormed (loopId :: outer) node) → closing.marker = .closes loopId →
      WellFormed outer (.loop param loopId driver (inner ++ [.leaf closing]))

end StepNode

namespace TreeBuilder

open StepNode

def stepsIn (root : List StepNode) : List OpenLoop → List Step
  | [] => stepsOf root
  | l :: outer => stepsIn root outer ++ l.driver :: stepsOf l.body

def steps (b : TreeBuilder) : List Step := stepsIn b.root b.loops

def stepsBefore (b : TreeBuilder) : List Step :=
  match b.loops with
  | [] => []
  | l :: outer => stepsIn b.root outer ++ [l.driver]

theorem steps_eq (b : TreeBuilder) : b.steps = b.stepsBefore ++ stepsOf b.current := by
  rcases b with ⟨root, _ | ⟨l, outer⟩⟩
  · rfl
  · simp [steps, stepsBefore, stepsIn, current]

theorem steps_withCurrent (b : TreeBuilder) (nodes : List StepNode) :
    (b.withCurrent nodes).steps = b.stepsBefore ++ stepsOf nodes := by
  have h : (b.withCurrent nodes).stepsBefore = b.stepsBefore := by
    rcases b with ⟨root, _ | ⟨l, outer⟩⟩ <;> rfl
  rw [steps_eq, h, current_withCurrent]

theorem steps_push (b : TreeBuilder) (node : StepNode) :
    (b.push node).steps = b.steps ++ node.steps := by
  rw [push, steps_withCurrent, stepsOf_append, ← List.append_assoc, ← steps_eq, stepsOf_singleton]

theorem steps_enter (b : TreeBuilder) (line : Nat) (param loopId : String) (driver : Step) :
    (b.enter ⟨line, param, loopId, driver, []⟩).steps = b.steps ++ [driver] := rfl

theorem steps_of_loops {b : TreeBuilder} {l : OpenLoop} {outer : List OpenLoop}
    (h : b.loops = l :: outer) :
    b.steps = (b.leave outer).steps ++ l.driver :: stepsOf l.body := by
  rw [steps, h, stepsIn]
  rfl

theorem steps_of_adds {b b' : TreeBuilder} {step : Step} (h : Adds b step b') :
    b'.steps = b.steps ++ [step].filter (!·.opensBare) := by
  cases h with
  | leaf hm => simp [steps_push, StepNode.steps, Step.opensBare, hm]
  | opens hm _ hq => simp [steps_enter, Step.opensBare, hm, hq]
  | opensBare hm _ hq hc =>
      simp [steps_enter, steps_withCurrent, steps_eq b, hc, stepsOf_append, stepsOf_singleton,
        StepNode.steps, Step.opensBare, hm, hq]
  | closes hl hm =>
      simp [steps_push, steps_of_loops hl, StepNode.steps, stepsOf_append, stepsOf_singleton,
        Step.opensBare, hm]

/-- Open loops, innermost first, whose bodies are well formed as far as they go. -/
def WellFormedLoops : List OpenLoop → Prop
  | [] => True
  | l :: outer => l.driver.hasQuery = true ∧ l.loopId ∉ outer.map (·.loopId) ∧
      (∀ node ∈ l.body, node.WellFormed (l.loopId :: outer.map (·.loopId))) ∧ WellFormedLoops outer

def WellFormed (b : TreeBuilder) : Prop :=
  (∀ node ∈ b.root, node.WellFormed []) ∧ WellFormedLoops b.loops

theorem WellFormed.current {b : TreeBuilder} (h : b.WellFormed) :
    ∀ node ∈ b.current, node.WellFormed b.ids := by
  rcases b with ⟨root, _ | ⟨l, outer⟩⟩
  · exact h.1
  · exact h.2.2.2.1

theorem WellFormed.withCurrent {b : TreeBuilder} {nodes : List StepNode} (h : b.WellFormed)
    (hn : ∀ node ∈ nodes, node.WellFormed b.ids) : (b.withCurrent nodes).WellFormed := by
  rcases b with ⟨root, _ | ⟨l, outer⟩⟩
  · exact ⟨hn, trivial⟩
  · exact ⟨h.1, h.2.1, h.2.2.1, hn, h.2.2.2.2⟩

theorem WellFormed.push {b : TreeBuilder} {node : StepNode} (h : b.WellFormed)
    (hn : node.WellFormed b.ids) :
    (b.push node).WellFormed := by
  apply h.withCurrent
  intro other ho
  rcases List.mem_append.mp ho with ho | ho
  · exact h.current other ho
  · rwa [List.mem_singleton.mp ho]

theorem WellFormed.enter {b : TreeBuilder} {line : Nat} {param loopId : String} {driver : Step}
    (h : b.WellFormed) (hid : loopId ∉ b.ids) (hq : driver.hasQuery = true) :
    (b.enter ⟨line, param, loopId, driver, []⟩).WellFormed :=
  ⟨h.1, hq, hid, by simp, h.2⟩

theorem WellFormed.close {b : TreeBuilder} {l : OpenLoop} {outer : List OpenLoop} {closing : Step}
    (h : b.WellFormed) (hl : b.loops = l :: outer) (hm : closing.marker = .closes l.loopId) :
    ((b.leave outer).push
      (.loop l.param l.loopId l.driver (l.body ++ [.leaf closing]))).WellFormed := by
  obtain ⟨hroot, hloops⟩ := h
  rw [hl] at hloops
  obtain ⟨hq, hid, hbody, houter⟩ := hloops
  have hrest : (b.leave outer).WellFormed := ⟨hroot, houter⟩
  exact hrest.push (.loop hq hid hbody hm)

theorem wellFormed_of_adds {b b' : TreeBuilder} {step : Step} (hb : b.WellFormed)
    (h : Adds b step b') :
    b'.WellFormed := by
  cases h with
  | leaf hm => exact hb.push (.leaf hm)
  | opens hm hid hq => exact hb.enter hid hq
  | @opensBare param loopId nodes driver hm hid hq hc hd =>
      have hnodes : ∀ node ∈ nodes, node.WellFormed b.ids := by
        intro node hn
        apply hb.current
        rw [hc]
        exact List.mem_append_left _ hn
      rw [Step.canDrive_iff] at hd
      exact (hb.withCurrent hnodes).enter (by rwa [ids_withCurrent]) hd.1
  | closes hl hm => exact hb.close hl hm

end TreeBuilder

theorem stepsOf_ofSteps {steps : List Step} {nodes : List StepNode}
    (h : StepNode.ofSteps steps = .ok nodes) :
    StepNode.stepsOf nodes = steps.filter (!·.opensBare) :=
  TreeBuilder.invariant_of_ofSteps (I := fun done b => b.steps = done.filter (!·.opensBare))
    (fun hb ha => by rw [TreeBuilder.steps_of_adds ha, hb, List.filter_append]) rfl h

theorem wellFormed_of_ofSteps {steps : List Step} {nodes : List StepNode}
    (h : StepNode.ofSteps steps = .ok nodes) :
    ∀ node ∈ nodes, node.WellFormed [] :=
  (TreeBuilder.invariant_of_ofSteps (I := fun _ b => b.WellFormed) TreeBuilder.wellFormed_of_adds
    ⟨by simp, trivial⟩ h).1

/-- The tree of a list of steps holds all of them in their order, but for the lines that open a
loop and have no query, and its nodes are well formed. -/
theorem ofSteps_keeps_steps {steps : List Step} {nodes : List StepNode}
    (h : StepNode.ofSteps steps = .ok nodes) :
    StepNode.stepsOf nodes = steps.filter (!·.opensBare) ∧ ∀ node ∈ nodes, node.WellFormed [] :=
  ⟨stepsOf_ofSteps h, wellFormed_of_ofSteps h⟩

theorem ofSteps_keeps_steps_of_two_loops :
    let driver : Step := { line := 1, query := "SELECT 1 AS p" }
    let outer : Step := { line := 2, marker := .opens "p" "L" }
    let inner : Step := { line := 3, query := "SELECT 2 AS q", marker := .opens "q" "M" }
    let endInner : Step := { line := 4, query := "SELECT {q}", marker := .closes "M" }
    let endOuter : Step := { line := 5, marker := .closes "L" }
    let nodes : List StepNode :=
      [.loop "p" "L" driver [.loop "q" "M" inner [.leaf endInner], .leaf endOuter]]
    StepNode.ofSteps [driver, outer, inner, endInner, endOuter] = .ok nodes ∧
      StepNode.stepsOf nodes = [driver, inner, endInner, endOuter] ∧
        ∀ node ∈ nodes, node.WellFormed [] := by
  intro driver outer inner endInner endOuter nodes
  have h : StepNode.ofSteps [driver, outer, inner, endInner, endOuter] = .ok nodes := rfl
  have hk := ofSteps_keeps_steps h
  exact ⟨h, hk.1.trans (by decide), hk.2⟩

end TableFlow
