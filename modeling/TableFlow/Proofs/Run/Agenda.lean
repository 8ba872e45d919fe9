import TableFlow.Proofs.Run.Loop
import TableFlow.Proofs.Run.Performance

namespace TableFlow

namespace StepNode

def first : StepNode → Step
  | .leaf step => step
  | .loop _ _ driver _ => driver

def shape : StepNode → Shape
  | .leaf step => if step.wantsScalar then .scalar else .table
  | .loop .. => .table

end StepNode

namespace Run

/-- What a walk has still to do. After the body of an iteration, the scope around the loop is
taken up again. -/
inductive Task
  | node (node : StepNode)
  | iteration (param loopId : String) (body : List StepNode) (value : String)
  | rejoin (outer : Scope)

def iterations (outcome : Outcome) : StepNode → List Task
  | .leaf _ => []
  | .loop param loopId _ body =>
      (driverValues param (some outcome)).map (.iteration param loopId body)

def outermost : List Task → Scope → Scope
  | [], scope => scope
  | .rejoin outer :: rest, _ => outermost rest outer
  | .node _ :: rest, scope | .iteration .. :: rest, scope => outermost rest scope

variable {σ : Type}

/-- The walk through an agenda, up to its end or to the first step that fails. One relation over
agendas serves nodes and iterations alike, and its derivations are as linear as the walk is. -/
inductive Walks (b : Backends σ) (o : RunOptions) :
    List Task → RunState σ → List Visit → Except JobError Unit → RunState σ → Prop
  | done (s) : Walks b o [] s [] (.ok ()) s
  | skipped {node rest s visits r t} : node.first.hasQuery = false → Walks b o rest s visits r t →
      Walks b o (.node node :: rest) s visits r t
  | failed {node rest s visit e t} : node.first.hasQuery = true →
      Performs b o node.first node.shape s visit (.error e) t →
      Walks b o (.node node :: rest) s [visit] (.error e) { t with scope := outermost rest t.scope }
  | executed {node rest s visit outcome u visits r t} : node.first.hasQuery = true →
      Performs b o node.first node.shape s visit (.ok outcome) u →
      Walks b o (iterations outcome node ++ rest) u visits r t →
      Walks b o (.node node :: rest) s (visit :: visits) r t
  | iteration {param loopId body value rest s visits r t} :
      Walks b o (body.map .node ++ .rejoin s.scope :: rest)
        { s with scope := iterationScope o.accumulator param loopId value s.scope } visits r t →
      Walks b o (.iteration param loopId body value :: rest) s visits r t
  | rejoin {outer rest s visits r t} :
      Walks b o rest { s with scope := outer.absorb s.scope o.accumulator,
                              iterations := s.iterations + 1 } visits r t →
      Walks b o (.rejoin outer :: rest) s visits r t

/-- A walk that has come as far as to the tasks that are left. All its steps have succeeded. -/
inductive Reaches (b : Backends σ) (o : RunOptions) :
    List Task → RunState σ → List Visit → List Task → RunState σ → Prop
  | here (tasks s) : Reaches b o tasks s [] tasks s
  | skipped {node rest s visits left t} : node.first.hasQuery = false →
      Reaches b o rest s visits left t →
      Reaches b o (.node node :: rest) s visits left t
  | executed {node rest s visit outcome u visits left t} : node.first.hasQuery = true →
      Performs b o node.first node.shape s visit (.ok outcome) u →
      Reaches b o (iterations outcome node ++ rest) u visits left t →
      Reaches b o (.node node :: rest) s (visit :: visits) left t
  | iteration {param loopId body value rest s visits left t} :
      Reaches b o (body.map .node ++ .rejoin s.scope :: rest)
        { s with scope := iterationScope o.accumulator param loopId value s.scope } visits left t →
      Reaches b o (.iteration param loopId body value :: rest) s visits left t
  | rejoin {outer rest s visits left t} :
      Reaches b o rest { s with scope := outer.absorb s.scope o.accumulator,
                                iterations := s.iterations + 1 } visits left t →
      Reaches b o (.rejoin outer :: rest) s visits left t

variable {b : Backends σ} {o : RunOptions} {s t : RunState σ}

theorem outermost_nodes (nodes : List StepNode) (rest : List Task) (scope : Scope) :
    outermost (nodes.map .node ++ rest) scope = outermost rest scope := by
  induction nodes with
  | nil => rfl
  | cons node nodes ih => exact ih

theorem outermost_iterations (param loopId : String) (body : List StepNode) (values : List String)
    (rest : List Task) (scope : Scope) :
    outermost (values.map (.iteration param loopId body) ++ rest) scope = outermost rest scope := by
  induction values with
  | nil => rfl
  | cons value values ih => exact ih

/-- The walk goes through the front of an agenda from `s` to where the run ends, or fails on the
way as the run does. -/
def Passes (b : Backends σ) (o : RunOptions) (front : List Task) (s : RunState σ) :
    Except JobError Unit × RunState σ → Prop
  | (.ok (), t) => ∀ rest visits r u, Walks b o rest t visits r u →
      ∃ before, Walks b o (front ++ rest) s (before ++ visits) r u
  | (.error e, t) => ∀ rest, ∃ visits,
      Walks b o (front ++ rest) s visits (.error e) { t with scope := outermost rest t.scope }

theorem Passes.nil (s : RunState σ) : Passes b o [] s (.ok (), s) := fun _ _ _ _ hw => ⟨[], hw⟩

theorem Passes.append {front back : List Task} {p : Except JobError Unit × RunState σ}
    (hfront : Passes b o front s (.ok (), t)) (hback : Passes b o back t p) :
    Passes b o (front ++ back) s p := by
  obtain ⟨_ | _, u⟩ := p
  · intro rest
    obtain ⟨middle, hm⟩ := hback rest
    obtain ⟨before, hb⟩ := hfront _ _ _ _ hm
    refine ⟨before ++ middle, ?_⟩
    rwa [List.append_assoc]
  · intro rest visits r v hw
    obtain ⟨middle, hm⟩ := hback _ _ _ _ hw
    obtain ⟨before, hb⟩ := hfront _ _ _ _ hm
    refine ⟨before ++ middle, ?_⟩
    rwa [List.append_assoc, List.append_assoc]

theorem Passes.of_error {front back : List Task} {e : JobError}
    (h : Passes b o front s (.error e, t)) (hback : ∀ rest scope, outermost (back ++ rest) scope =
      outermost rest scope) :
    Passes b o (front ++ back) s (.error e, t) := by
  intro rest
  obtain ⟨visits, hw⟩ := h (back ++ rest)
  rw [hback] at hw
  exact ⟨visits, by rwa [List.append_assoc]⟩

theorem passes_iteration {param loopId value : String} {body : List StepNode}
    (hbody : ∀ s, Passes b o (body.map .node) s (Act.runFrom s (runNodes b o body)))
    (s : RunState σ) :
    Passes b o [.iteration param loopId body value] s
      (Act.runFrom s (iterate o param loopId (runNodes b o body) value)) := by
  have hinner := hbody { s with scope := iterationScope o.accumulator param loopId value s.scope }
  rw [runFrom_iterate]
  generalize Act.runFrom { s with scope := iterationScope o.accumulator param loopId value s.scope }
    (runNodes b o body) = p
    at hinner ⊢
  obtain ⟨_ | _, inner⟩ := p
  · intro rest
    obtain ⟨visits, hw⟩ := hinner (.rejoin s.scope :: rest)
    exact ⟨visits, .iteration hw⟩
  · intro rest visits r u hw
    obtain ⟨before, hb⟩ := hinner (.rejoin s.scope :: rest) _ _ _ (.rejoin hw)
    exact ⟨before, .iteration hb⟩

theorem passes_iterations {param loopId : String} {body : List StepNode}
    (hbody : ∀ s, Passes b o (body.map .node) s (Act.runFrom s (runNodes b o body)))
    (values : List String) (s : RunState σ) :
    Passes b o (values.map (.iteration param loopId body)) s
      (Act.runFrom s (forM values (iterate o param loopId (runNodes b o body)))) := by
  induction values generalizing s with
  | nil => exact .nil s
  | cons value values ih =>
      have hfirst : Passes b o [.iteration param loopId body value] s _ := passes_iteration hbody s
      rw [List.forM_cons, Act.runFrom_bind]
      generalize Act.runFrom s (iterate o param loopId (runNodes b o body) value) = p at hfirst ⊢
      obtain ⟨_ | _, u⟩ := p
      · exact hfirst.of_error (outermost_iterations param loopId body values)
      · exact hfirst.append (ih u)

theorem passes_node (node : StepNode) (next : Option Outcome → Run σ Unit)
    (hskip : next none = pure ())
    (hnext : ∀ outcome u,
      Passes b o (iterations outcome node) u (Act.runFrom u (next (some outcome))))
    (s : RunState σ) :
    Passes b o [.node node] s (Act.runFrom s (runStep b o node.first node.shape >>= next)) := by
  rw [Act.runFrom_bind, runStep]
  by_cases hq : node.first.hasQuery = true
  · rw [if_pos hq, map_eq_pure_bind, Act.runFrom_bind]
    obtain ⟨visit, r, u, hp⟩ := exists_performs b o node.first node.shape s
    rw [hp.runFrom_runQuery]
    cases r with
    | error e => exact fun rest => ⟨[visit], .failed hq hp⟩
    | ok outcome =>
        have hrest := hnext outcome u
        dsimp only [Act.runFrom_pure]
        generalize Act.runFrom u (next (some outcome)) = p at hrest ⊢
        obtain ⟨_ | _, v⟩ := p
        · intro rest
          obtain ⟨visits, hw⟩ := hrest rest
          exact ⟨visit :: visits, .executed hq hp hw⟩
        · intro rest visits r w hw
          obtain ⟨before, hb⟩ := hrest _ _ _ _ hw
          exact ⟨visit :: before, .executed hq hp hb⟩
  · rw [if_neg hq]
    dsimp only [Act.runFrom_pure]
    rw [hskip, Act.runFrom_pure]
    exact fun rest visits r u hw => ⟨[], .skipped (Bool.eq_false_iff.mpr hq) hw⟩

mutual

theorem passes_runNode (b : Backends σ) (o : RunOptions) (s : RunState σ) : (node : StepNode) →
    Passes b o [.node node] s (Act.runFrom s (runNode b o node))
  | .leaf step => by
    rw [runNode]
    exact passes_node (.leaf step) _ rfl (fun _ u => .nil u) s
  | .loop param loopId driver body => by
    have hbody (s : RunState σ) := passes_runNodes b o s body
    rw [runNode]
    refine passes_node (.loop param loopId driver body) _ rfl (fun outcome u => ?_) s
    have hvalues : Passes b o
        ((driverValues param (some outcome)).map (.iteration param loopId body)) u _ :=
      passes_iterations hbody _ u
    rw [driverValues, List.forM_map] at hvalues
    exact hvalues

theorem passes_runNodes (b : Backends σ) (o : RunOptions) (s : RunState σ) :
    (nodes : List StepNode) → Passes b o (nodes.map .node) s (Act.runFrom s (runNodes b o nodes))
  | [] => Passes.nil s
  | node :: rest => by
    have hnode := passes_runNode b o s node
    have hrest (s : RunState σ) := passes_runNodes b o s rest
    rw [runNodes, Act.runFrom_bind]
    generalize Act.runFrom s (runNode b o node) = p at hnode ⊢
    obtain ⟨_ | _, u⟩ := p
    · exact hnode.of_error (outermost_nodes rest)
    · exact hnode.append (hrest u)

end

/-- Every walk through a tree is one through its nodes as an agenda. -/
theorem exists_walks (b : Backends σ) (o : RunOptions) (nodes : List StepNode) (s : RunState σ) :
    ∃ visits, Walks b o (nodes.map .node) s visits (Act.runFrom s (runNodes b o nodes)).1
      (Act.runFrom s (runNodes b o nodes)).2 := by
  have hp := passes_runNodes b o s nodes
  generalize Act.runFrom s (runNodes b o nodes) = p at hp ⊢
  obtain ⟨_ | _, t⟩ := p
  · obtain ⟨visits, hw⟩ := hp []
    exact ⟨visits, by rwa [List.append_nil] at hw⟩
  · obtain ⟨visits, hw⟩ := hp _ _ _ _ (.done t)
    exact ⟨visits, by rwa [List.append_nil, List.append_nil] at hw⟩

end Run
end TableFlow
