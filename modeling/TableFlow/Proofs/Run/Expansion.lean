import Mathlib.Data.List.Forall2
import TableFlow.Proofs.Run.Course
import TableFlow.Rehearsal.Engine
import TableFlow.Rehearsal.Service

namespace TableFlow.Run

/-- The visits that nodes come to, with the number of body copies among them and the nodes that
are left. A leaf with a query is itself and one without is nothing; a loop is its driver and
then its body once for each row of the driver. -/
inductive Expands : List StepNode → List Visit → Nat → List StepNode → Prop
  | rest (nodes) : Expands nodes [] 0 nodes
  | silent {step rest visits copies left} : step.hasQuery = false →
      Expands rest visits copies left →
      Expands (.leaf step :: rest) visits copies left
  | leaf {step rest visit outcome visits copies left} : step.hasQuery = true → visit.step = step →
      visit.result = some outcome → Expands rest visits copies left →
      Expands (.leaf step :: rest) (visit :: visits) copies left
  | undriven {param loopId driver body rest visits copies left} : driver.hasQuery = false →
      Expands rest visits copies left →
      Expands (.loop param loopId driver body :: rest) visits copies left
  | loop {param loopId driver body rest visit outcome visits copies left} :
      driver.hasQuery = true → visit.step = driver → visit.result = some outcome →
      Expands ((outcome.toTable.rows.flatMap fun _ => body) ++ rest) visits copies left →
      Expands (.loop param loopId driver body :: rest) (visit :: visits)
        (outcome.toTable.rows.length + copies) left

inductive Answers (o : RunOptions) (step : Step) : Outcome → Event → Prop
  | engine {sql imports shape files outcome} : step.remoteSource = none →
      Answers o step outcome (.request none (.query sql none imports shape) files (.ok outcome))
  | service {endpoint object sql shape files outcome} :
      step.remoteSource = some (endpoint, object) →
      Answers o step outcome
        (.request (some endpoint) (.query sql (some object) [] shape) files (.ok outcome))
  | reused {name data} : o.reuseCached = true → .localTable name true ∈ step.sinks →
      Answers o step (.table data) (.load name (.ok data))

inductive Takes (outcome : Outcome) : Sink → List Event → Prop
  | stored {name cached path} : Takes outcome (.localTable name cached)
      [.store name outcome.toTable cached (.ok path)]
  | bound {name} : Takes outcome (.variable name) [.bind name (outcome.toScalar?.getD "")]
  | mutated {object op files answers} : Takes outcome (.remoteObject object op none)
      [.request (some .dst) (.mutate op object outcome.toTable) files (.ok answers)]
  | keptIds {object op table files answers path} : Takes outcome
      (.remoteObject object op (some table))
      [.request (some .dst) (.mutate op object outcome.toTable) files (.ok answers),
        .store table answers.toTable false (.ok path)]

/-- A step is answered once, and its sinks take the one result in their order. -/
def Visit.Served (o : RunOptions) (visit : Visit) : Prop :=
  ∃ outcome answer parts, visit.result = some outcome ∧ visit.events = answer :: parts.flatten ∧
    Answers o visit.step outcome answer ∧ List.Forall₂ (Takes outcome) visit.step.sinks parts

/-- A step that fails: it is not answered, or one of its sinks does not come to its end and
those after it are not begun. -/
inductive Visit.Broken (o : RunOptions) (visit : Visit) : Prop
  | unanswered : visit.result = none → visit.events.length ≤ 1 →
      (∀ outcome event, event ∈ visit.events → ¬ Answers o visit.step outcome event) →
        Broken o visit
  | atSink {outcome answer taken parts sink rest events} : visit.result = some outcome →
      visit.events = answer :: (parts.flatten ++ events) → Answers o visit.step outcome answer →
      visit.step.sinks = taken ++ sink :: rest → List.Forall₂ (Takes outcome) taken parts →
        ¬ Takes outcome sink events →
      Broken o visit

/-- How far an expansion has come when a walk ends: to its end, or to a node whose first step
fails. -/
inductive Expanded (o : RunOptions) (nodes : List StepNode) (copies : Nat) :
    List Visit → Except JobError Unit → Prop
  | whole {visits} : Expands nodes visits copies [] → (∀ visit ∈ visits, visit.Served o) →
      Expanded o nodes copies visits (.ok ())
  | upTo {done last node left e} : Expands nodes done copies (node :: left) →
      (∀ visit ∈ done, visit.Served o) →
      node.first.hasQuery = true → last.step = node.first → last.Broken o →
      Expanded o nodes copies (done ++ [last]) (.error e)

def Task.nodes : Task → List StepNode
  | .node n => [n]
  | .iteration _ _ body _ => body
  | .rejoin _ => []

/-- At the end of the task one more iteration will have been counted, besides those of its
nodes. -/
def Task.isOpen : Task → Bool
  | .node _ => false
  | .iteration .. | .rejoin _ => true

variable {σ : Type} {b : Backends σ} {o : RunOptions} {step : Step} {shape : Shape}
  {s t : RunState σ} {outcome : Outcome} {events : List Event} {visit : Visit} {tasks : List Task}
  {visits : List Visit}

theorem Asks.eq_of_ok {endpoint : Option Endpoint} {request : Request} {answers : Outcome}
    (h : Asks b s endpoint request events (.ok answers) t) :
    ∃ files, events = [.request endpoint request files (.ok answers)] := by
  generalize hr : (Except.ok answers : Except JobError Outcome) = r at h
  cases h with
  | unconfigured => cases hr
  | @answered _ answer _ _ _ =>
      cases answer <;> cases hr
      exact ⟨_, rfl⟩

theorem Obtains.answers (h : Obtains b o step shape s events (.ok outcome) t) :
    ∃ answer, events = [answer] ∧ Answers o step outcome answer := by
  generalize hr : (Except.ok outcome : Except JobError Outcome) = r at h
  cases h with
  | @reused _ answer _ hname _ =>
      obtain ⟨ho, hsink, _⟩ := mem_sinks_of_reused? hname
      cases answer <;> cases hr
      exact ⟨_, rfl, .reused ho hsink⟩
  | missing => cases hr
  | engine _ hs _ ha =>
      subst hr
      obtain ⟨files, rfl⟩ := ha.eq_of_ok
      exact ⟨_, rfl, .engine hs⟩
  | service _ hs ha =>
      subst hr
      obtain ⟨files, rfl⟩ := ha.eq_of_ok
      exact ⟨_, rfl, .service hs⟩

theorem Applies.takes {sink : Sink} (h : Applies b outcome s sink events (.ok ()) t) :
    Takes outcome sink events := by
  generalize hr : (Except.ok () : Except JobError Unit) = r at h
  cases h with
  | @stored _ _ answer _ _ =>
      cases answer <;> cases hr
      exact .stored
  | bound => exact .bound
  | refused => cases hr
  | mutated ha =>
      obtain ⟨files, rfl⟩ := ha.eq_of_ok
      exact .mutated
  | @keptIds _ _ _ _ _ _ answer _ ha _ =>
      obtain ⟨files, rfl⟩ := ha.eq_of_ok
      cases answer <;> cases hr
      exact .keptIds

theorem Pours.takes {sinks : List Sink} (h : Pours b outcome s sinks events (.ok ()) t) :
    ∃ parts, events = parts.flatten ∧ List.Forall₂ (Takes outcome) sinks parts := by
  generalize hr : (Except.ok () : Except JobError Unit) = r at h
  induction h with
  | done => exact ⟨[], rfl, .nil⟩
  | failed => cases hr
  | next ha _ ih =>
      obtain ⟨parts, rfl, hparts⟩ := ih hr
      exact ⟨_ :: parts, rfl, .cons ha.takes hparts⟩

theorem Performs.served (h : Performs b o step shape s visit (.ok outcome) t) :
    visit.Served o ∧ visit.result = some outcome := by
  generalize hr : (Except.ok outcome : Except JobError Outcome) = r at h
  cases h with
  | withoutResult => cases hr
  | @withResult events _ _ _ r _ ho hp =>
      obtain ⟨answer, rfl, ha⟩ := ho.answers
      cases r <;> cases hr
      obtain ⟨parts, rfl, hparts⟩ := hp.takes
      exact ⟨⟨_, answer, parts, rfl, rfl, ha, hparts⟩, rfl⟩

theorem Asks.of_error {endpoint : Option Endpoint} {request : Request} {e : JobError}
    (h : Asks b s endpoint request events (.error e) t) :
    events = [] ∨ ∃ files fault, events = [.request endpoint request files (.error fault)] := by
  generalize hr : (Except.error e : Except JobError Outcome) = r at h
  cases h with
  | unconfigured => exact .inl rfl
  | @answered _ answer _ _ _ =>
      cases answer <;> cases hr
      exact .inr ⟨_, _, rfl⟩

theorem Asks.unanswered {endpoint : Option Endpoint} {request : Request} {e : JobError}
    (h : Asks b s endpoint request events (.error e) t) :
    events.length ≤ 1 ∧ ∀ outcome event, event ∈ events → ¬ Answers o step outcome event := by
  obtain rfl | ⟨files, fault, rfl⟩ := h.of_error
  · exact ⟨Nat.zero_le _, fun _ _ he => absurd he List.not_mem_nil⟩
  · refine ⟨Nat.le_refl _, fun outcome event he ha => ?_⟩
    rw [List.mem_singleton.mp he] at ha
    cases ha

theorem Obtains.unanswered {e : JobError} (h : Obtains b o step shape s events (.error e) t) :
    events.length ≤ 1 ∧ ∀ outcome event, event ∈ events → ¬ Answers o step outcome event := by
  generalize hr : (Except.error e : Except JobError Outcome) = r at h
  cases h with
  | @reused _ answer _ _ _ =>
      cases answer <;> cases hr
      refine ⟨Nat.le_refl _, fun outcome event he ha => ?_⟩
      rw [List.mem_singleton.mp he] at ha
      cases ha
  | missing => exact ⟨Nat.zero_le _, fun _ _ he => absurd he List.not_mem_nil⟩
  | engine _ _ _ ha | service _ _ ha =>
      subst hr
      exact ha.unanswered

theorem Applies.not_takes {sink : Sink} {e : JobError}
    (h : Applies b outcome s sink events (.error e) t) :
    ¬ Takes outcome sink events := by
  generalize hr : (Except.error e : Except JobError Unit) = r at h
  intro ht
  cases h with
  | @stored _ _ answer _ _ =>
      cases answer <;> cases hr
      cases ht
  | bound | mutated => cases hr
  | refused ha =>
      obtain rfl | ⟨files, fault, rfl⟩ := ha.of_error <;> cases ht
  | @keptIds _ _ _ _ _ _ answer _ ha _ =>
      obtain ⟨files, rfl⟩ := ha.eq_of_ok
      cases answer <;> cases hr
      cases ht

theorem Pours.breaks {sinks : List Sink} {e : JobError}
    (h : Pours b outcome s sinks events (.error e) t) :
    ∃ taken parts sink rest broken u e v, sinks = taken ++ sink :: rest ∧
      events = parts.flatten ++ broken ∧
      List.Forall₂ (Takes outcome) taken parts ∧ Applies b outcome u sink broken (.error e) v := by
  generalize hr : (Except.error e : Except JobError Unit) = r at h
  induction h with
  | done => cases hr
  | @failed _ sink rest events _ _ ha =>
      exact ⟨[], [], sink, rest, events, _, _, _, rfl, rfl, .nil, ha⟩
  | @next _ sink _ events _ _ _ _ ha _ ih =>
      obtain ⟨taken, parts, other, rest, broken, u, e, v, rfl, rfl, hparts, hbroken⟩ := ih hr
      refine ⟨sink :: taken, events :: parts, other, rest, broken, u, e, v, rfl, ?_,
        .cons ha.takes hparts, hbroken⟩
      rw [List.flatten_cons, List.append_assoc]

theorem Performs.broken {e : JobError} (h : Performs b o step shape s visit (.error e) t) :
    visit.Broken o := by
  generalize hr : (Except.error e : Except JobError Outcome) = r at h
  cases h with
  | withoutResult ho => exact .unanswered rfl ho.unanswered.1 ho.unanswered.2
  | @withResult _ _ _ _ r _ ho hp =>
      obtain ⟨answer, rfl, ha⟩ := ho.answers
      cases r <;> cases hr
      obtain ⟨taken, parts, sink, rest, broken, _, _, _, hsinks, rfl, hparts, hbroken⟩ := hp.breaks
      exact .atSink rfl rfl ha hsinks hparts hbroken.not_takes

theorem Asks.counts {endpoint : Option Endpoint} {request : Request} {r : Except JobError Outcome}
    (h : Asks b s endpoint request events r t) :
    t.steps = s.steps ∧ t.iterations = s.iterations := by
  cases h <;> exact ⟨rfl, rfl⟩

theorem Obtains.counts {r : Except JobError Outcome} (h : Obtains b o step shape s events r t) :
    t.steps = s.steps ∧ t.iterations = s.iterations := by
  cases h with
  | reused | missing => exact ⟨rfl, rfl⟩
  | engine _ _ _ ha | service _ _ ha => exact ha.counts

theorem Applies.counts {sink : Sink} {r : Except JobError Unit}
    (h : Applies b outcome s sink events r t) :
    t.steps = s.steps ∧ t.iterations = s.iterations := by
  cases h with
  | stored | bound => exact ⟨rfl, rfl⟩
  | refused ha | mutated ha | keptIds ha => exact ha.counts

theorem Pours.counts {sinks : List Sink} {r : Except JobError Unit}
    (h : Pours b outcome s sinks events r t) :
    t.steps = s.steps ∧ t.iterations = s.iterations := by
  induction h with
  | done => exact ⟨rfl, rfl⟩
  | failed ha => exact ha.counts
  | next ha _ ih => exact ⟨ih.1.trans ha.counts.1, ih.2.trans ha.counts.2⟩

theorem Performs.counts {r : Except JobError Outcome} (h : Performs b o step shape s visit r t) :
    t.steps = s.steps + visit.result.toList.length ∧ t.iterations = s.iterations := by
  cases h with
  | withoutResult ho => exact ho.counts
  | withResult ho hp =>
      exact ⟨hp.counts.1.trans (congrArg (· + 1) ho.counts.1), hp.counts.2.trans ho.counts.2⟩

def answered (visits : List Visit) : List Visit := visits.filter (·.result.isSome)

theorem length_answered_cons (visit : Visit) (visits : List Visit) :
    (answered (visit :: visits)).length = visit.result.toList.length +
      (answered visits).length := by
  rw [answered, List.filter_cons]
  cases visit.result with
  | none => simp [answered]
  | some outcome => simp [answered, Nat.add_comm]

theorem answered_of_served (h : ∀ visit ∈ visits, visit.Served o) : answered visits = visits := by
  refine List.filter_eq_self.mpr fun visit hv => ?_
  obtain ⟨outcome, _, _, hr, _⟩ := h visit hv
  rw [hr]
  rfl

theorem Walks.steps_eq {r : Except JobError Unit} (h : Walks b o tasks s visits r t) :
    t.steps = s.steps + (answered visits).length := by
  induction h with
  | done => rfl
  | skipped _ _ ih | iteration _ ih | rejoin _ ih => exact ih
  | failed _ hp => exact hp.counts.1.trans (by rw [length_answered_cons]; rfl)
  | executed _ hp _ ih => rw [ih, hp.counts.1, length_answered_cons, Nat.add_assoc]

theorem nodes_map_node (nodes : List StepNode) :
    (nodes.map Task.node).flatMap Task.nodes = nodes := by
  rw [List.flatMap_map]
  exact List.flatMap_singleton' nodes

theorem countP_isOpen_map_node (nodes : List StepNode) :
    (nodes.map Task.node).countP Task.isOpen = 0 := by
  rw [List.countP_map]
  exact List.countP_eq_zero.mpr fun _ _ h => nomatch h

theorem nodes_iterations (outcome : Outcome) (param loopId : String) (driver : Step)
    (body : List StepNode) :
    (iterations outcome (.loop param loopId driver body)).flatMap Task.nodes =
      outcome.toTable.rows.flatMap fun _ => body := by
  rw [iterations, driverValues, List.flatMap_map, List.flatMap_map]
  rfl

theorem countP_isOpen_iterations (outcome : Outcome) (param loopId : String) (driver : Step)
    (body : List StepNode) :
    (iterations outcome (.loop param loopId driver body)).countP Task.isOpen =
      outcome.toTable.rows.length := by
  rw [iterations, driverValues, List.countP_map, List.countP_map]
  exact List.countP_eq_length.mpr fun _ _ => rfl

theorem Expanded.after {nodes nodes' : List StepNode} {copies copies' : Nat}
    {first visits : List Visit} {r : Except JobError Unit} (h : Expanded o nodes copies visits r)
    (hfirst : ∀ visit ∈ first, visit.Served o)
    (hnodes : ∀ {visits left}, Expands nodes visits copies left →
      Expands nodes' (first ++ visits) copies' left) :
    Expanded o nodes' copies' (first ++ visits) r := by
  have hboth {visits : List Visit} (hv : ∀ visit ∈ visits, visit.Served o) :
      ∀ visit ∈ first ++ visits, visit.Served o := by
    intro visit hm
    rcases List.mem_append.mp hm with hm | hm
    · exact hfirst visit hm
    · exact hv visit hm
  cases h with
  | whole he hv => exact .whole (hnodes he) (hboth hv)
  | upTo he hv hq hs hb =>
      rw [← List.append_assoc]
      exact .upTo (hnodes he) (hboth hv) hq hs hb

/-- A walk follows the expansion of its tasks. Iterations are counted as they end, so those
still open count at once. -/
theorem Walks.expanded {r : Except JobError Unit} (h : Walks b o tasks s visits r t) :
    ∃ copies, Expanded o (tasks.flatMap Task.nodes) copies visits r ∧
      (r = .ok () → t.iterations = s.iterations + tasks.countP Task.isOpen + copies) := by
  induction h with
  | done s => exact ⟨0, .whole (.rest _) (List.forall_mem_nil _), fun _ => rfl⟩
  | @skipped node rest s visits r t hq _ ih =>
      obtain ⟨copies, he, hi⟩ := ih
      refine ⟨copies, ?_, fun hr => ?_⟩
      · have hnone : ∀ visit ∈ [], Visit.Served o visit := List.forall_mem_nil _
        cases node with
        | leaf => exact he.after hnone (.silent hq)
        | loop => exact he.after hnone (.undriven hq)
      · exact hi hr
  | @failed node rest s visit e t hq hp =>
      exact ⟨0, .upTo (.rest _) (List.forall_mem_nil _) hq hp.step_eq hp.broken,
        fun hr => nomatch hr⟩
  | @executed node rest s visit outcome u visits r t hq hp hw ih =>
      obtain ⟨copies, he, hi⟩ := ih
      obtain ⟨hserved, hresult⟩ := hp.served
      have hfirst : ∀ v ∈ [visit], v.Served o := fun v hv => by rwa [List.mem_singleton.mp hv]
      rw [hp.counts.2] at hi
      cases node with
      | leaf step =>
          refine ⟨copies, he.after hfirst (.leaf hq hp.step_eq hresult), fun hr => ?_⟩
          simpa [iterations, Task.isOpen] using hi hr
      | loop param loopId driver body =>
          refine ⟨outcome.toTable.rows.length + copies, he.after hfirst fun he =>
            .loop hq hp.step_eq hresult ?_, fun hr => ?_⟩
          · rwa [List.flatMap_append, nodes_iterations] at he
          · rw [hi hr, List.countP_append, countP_isOpen_iterations,
              List.countP_cons_of_neg Bool.false_ne_true]
            omega
  | @iteration param loopId body value rest s visits r t _ ih =>
      obtain ⟨copies, he, hi⟩ := ih
      refine ⟨copies, ?_, fun hr => ?_⟩
      · rwa [List.flatMap_append, nodes_map_node] at he
      · rw [hi hr, List.countP_append, countP_isOpen_map_node, Nat.zero_add]
        rfl
  | @rejoin outer rest s visits r t _ ih =>
      obtain ⟨copies, he, hi⟩ := ih
      refine ⟨copies, he, fun hr => ?_⟩
      have hcount : t.iterations = s.iterations + 1 + rest.countP Task.isOpen + copies := hi hr
      rw [List.countP_cons_of_pos rfl]
      omega

theorem opening_counts (job : Job) (b : Backends σ) (o : RunOptions) (s : RunState σ) :
    (Act.runFrom s (opening job b o)).2.steps = s.steps ∧
      (Act.runFrom s (opening job b o)).2.iterations = s.iterations := by
  simp only [opening, Act.runFrom_bind]
  cases Controller.preflight b job.steps with
  | error fault => exact ⟨rfl, rfl⟩
  | ok =>
      dsimp only [Except.mapError, Act.ofExcept, Act.runFrom_pure]
      rw [runFrom_onStore]
      cases (Act.runFrom s.store (TableStore.discover o.inputs)).1 <;> exact ⟨rfl, rfl⟩

theorem closing_counts (o : RunOptions) (s : RunState σ) :
    (Act.runFrom s (closing o)).2.steps = s.steps ∧
      (Act.runFrom s (closing o)).2.iterations = s.iterations := by
  rw [closing]
  split
  · rw [Act.runFrom_bind, runFrom_onStore]
    cases (Act.runFrom s.store TableStore.cleanup).1 <;> exact ⟨rfl, rfl⟩
  · exact ⟨rfl, rfl⟩

theorem Course.steps_eq {job : Job} {r : Except JobError Unit} (h : Course job b o s visits r t) :
    t.steps = s.steps + (answered visits).length := by
  have hopening := (opening_counts job b o s).1
  cases h with
  | unopened ho =>
      rw [ho] at hopening
      exact hopening
  | failed ho _ hw =>
      rw [ho] at hopening
      rw [hw.steps_eq, hopening]
  | @walked _ _ v _ _ ho _ hw hc =>
      have hclosing := (closing_counts o v).1
      rw [ho] at hopening
      rw [hc] at hclosing
      rw [hclosing, hw.steps_eq, hopening]

theorem Course.iterations_eq {job : Job} (h : Course job b o s visits (.ok ()) t) :
    ∃ copies, Expanded o job.nodes copies visits (.ok ()) ∧
      t.iterations = s.iterations + copies := by
  have hopening := (opening_counts job b o s).2
  generalize hr : (Except.ok () : Except JobError Unit) = r at h
  cases h with
  | unopened | failed => cases hr
  | @walked _ _ v _ _ ho _ hw hc =>
      subst hr
      have hclosing := (closing_counts o v).2
      obtain ⟨copies, he, hi⟩ := hw.expanded
      rw [ho] at hopening
      rw [hc, hi rfl, countP_isOpen_map_node, hopening] at hclosing
      rw [nodes_map_node] at he
      exact ⟨copies, he, hclosing⟩

theorem Course.of_failed_walk {job : Job} {r : Except JobError Unit} {u v : RunState σ}
    {e : JobError} (h : Course job b o s visits r t)
    (ho : Act.runFrom s (opening job b o) = (.ok (), u))
    (hn : Act.runFrom u (runNodes b o job.nodes) = (.error e, v)) :
    r = .error e ∧ ∃ copies, Expanded o job.nodes copies visits (.error e) := by
  cases h with
  | unopened ho' =>
      rw [ho] at ho'
      cases ho'
  | failed ho' hn' hw =>
      rw [ho] at ho'
      cases ho'
      rw [hn] at hn'
      cases hn'
      obtain ⟨copies, he, _⟩ := hw.expanded
      rw [nodes_map_node] at he
      exact ⟨rfl, copies, he⟩
  | walked ho' hn' =>
      rw [ho] at ho'
      cases ho'
      rw [hn] at hn'
      cases hn'

/-- A run that completes has done the whole expansion of its tree, and one that fails on its
walk has done the expansion up to the step that fails. -/
theorem run_follows_expansion (job : Job) (b : Backends σ) (o : RunOptions) (bindings : Scope)
    (store : TableStore) (outside : σ) (runId : Nat) :
    let start : RunState σ := { store, scope := bindings, outside }
    let c := (Controller.new job b o bindings store outside runId).run
    ∃ visits, Course job b o start visits c.1 c.2.current ∧
      c.2.report.stepsExecuted = (answered visits).length ∧
      (c.1 = .ok () → ∃ copies, Expands job.nodes visits copies [] ∧
        (∀ visit ∈ visits, visit.Served o) ∧
        c.2.report.stepsExecuted = visits.length ∧ c.2.report.loopIterations = copies) ∧
      (∀ u e t, Act.runFrom start (opening job b o) = (.ok (), u) →
        Act.runFrom u (runNodes b o job.nodes) = (.error e, t) →
        c.1 = .error e ∧ ∃ done last node left copies, visits = done ++ [last] ∧
          Expands job.nodes done copies (node :: left) ∧
          (∀ visit ∈ done, visit.Served o) ∧ node.first.hasQuery = true ∧ last.step = node.first ∧
            last.Broken o ∧
          c.2.report.stepsExecuted = done.length + last.result.toList.length) := by
  intro start c
  obtain ⟨_, hcurrent, hsteps, hiterations⟩ :=
    Controller.run_new job b o bindings store outside runId
  obtain ⟨visits, hcourse⟩ := Controller.exists_course job b o bindings store outside runId
  have hanswered : c.2.report.stepsExecuted = (answered visits).length := by
    rw [hsteps, ← hcurrent, hcourse.steps_eq, Nat.zero_add]
  refine ⟨visits, hcourse, hanswered, fun hok => ?_, fun u e t ho hn => ?_⟩
  · rw [hok] at hcourse
    obtain ⟨copies, he, hi⟩ := hcourse.iterations_eq
    cases he with
    | whole he hserved =>
        refine ⟨copies, he, hserved, ?_, ?_⟩
        · rw [hanswered, answered_of_served hserved]
        · rw [hiterations, ← hcurrent, hi, Nat.zero_add]
  · obtain ⟨hr, copies, he⟩ := hcourse.of_failed_walk ho hn
    cases he with
    | @upTo done last node left _ he hserved hq hs hb =>
        refine ⟨hr, done, last, node, left, copies, rfl, he, hserved, hq, hs, hb, ?_⟩
        have happend : answered (done ++ [last]) = answered done ++ answered [last] :=
          List.filter_append ..
        rw [hanswered, happend, answered_of_served hserved, List.length_append,
          length_answered_cons]
        rfl

def transferring : List String :=
  ["SELECT Id FROM src.Account => batch_begin:Id:A",
    "SELECT Name FROM src.Contact WHERE AccountId = '\x7bId\x7d' => dst:insert:Person",
    "=> batch_end:A"]

def transferringSteps : List Step :=
  [{ line := 1, query := "SELECT Id FROM Account", source := some (.remoteObject .src "Account"),
     marker := .opens "Id" "A", text := "SELECT Id FROM src.Account => batch_begin:Id:A" },
   { line := 2, query := "SELECT Name FROM Contact WHERE AccountId = '\x7bId\x7d'",
     sinks := [.remoteObject "Person" .insert none], source := some (.remoteObject .src "Contact"),
     text := "SELECT Name FROM src.Contact WHERE AccountId = '\x7bId\x7d' => dst:insert:Person" },
   { line := 3, marker := .closes "A", text := "=> batch_end:A" }]

def transferringJob : Job where
  nodes :=
    [.loop "Id" "A" transferringSteps[0] [.leaf transferringSteps[1], .leaf transferringSteps[2]]]
  digest := Sha256.hex (String.join (transferring.map (· ++ "\n")))

theorem ofLines_transferring : Job.ofLines transferring = .ok transferringJob := by
  have hsteps : Step.ofLines transferring = .ok transferringSteps :=
    eq_ok_of_toOption (by decide +kernel)
  have hnodes : StepNode.ofSteps transferringSteps = .ok transferringJob.nodes := rfl
  simp [Job.ofLines, hsteps, hnodes, bind, Except.bind]
  rfl

def bothServices : Backends Rehearsal where
  engine := Rehearsal.localEngine.executor
  src := some (Rehearsal.remoteExecutor .src {})
  dst := some (Rehearsal.remoteExecutor .dst {})

def jobReplies (results : List ServiceAnswer) : List ServiceReply :=
  .ok { id := "j" } :: .ok { id := "b", state := "Completed" } :: .ok { id := "j" } ::
    results.map .ok

def transferringReplies : Rehearsal where
  src :=
    { service := { replies := .ok { session := "s" } ::
      (jobReplies [{ ids := ["r"] }, { text := "Id\n1\n2\n" }] ++
        jobReplies [{ ids := ["r"] }, { text := "Name\nAnn\n" }] ++
        jobReplies [{ ids := ["r"] }, { text := "Name\nBob\nCat\n" }]) } }
  dst :=
    { service := { replies := .ok { session := "d" } ::
      (jobReplies [{ text := "Id\n7\n" }] ++ jobReplies [{ text := "Id\n8\n9\n" }]) } }

def transferringStart : RunState Rehearsal :=
  { store := { files := .empty, dir := .ofString "data" }, scope := .empty,
    outside := transferringReplies }

def transferringRun : Except JobError Unit × Controller Rehearsal :=
  (Controller.new transferringJob bothServices {} .empty
    { files := .empty, dir := .ofString "data" } transferringReplies 0).run

def payloads (endpoint : Endpoint) (events : List RehearsalEvent) : List String :=
  events.filterMap fun
    | .call e "add_batch" _ [_, payload] => if e = endpoint then some payload else none
    | _ => none

theorem report_transferringRun :
    transferringRun.1.toOption = some () ∧ transferringRun.2.report.stepsExecuted = 3 ∧
      transferringRun.2.report.loopIterations = 2 ∧
      payloads .src transferringRun.2.current.outside.events = ["SELECT Id FROM Account",
        "SELECT Name FROM Contact WHERE AccountId = '1'",
        "SELECT Name FROM Contact WHERE AccountId = '2'"] ∧
      payloads .dst transferringRun.2.current.outside.events =
        ["Name\nAnn\n", "Name\nBob\nCat\n"] := by
  decide +kernel

theorem run_follows_expansion_transferring :
    Job.ofLines transferring = .ok transferringJob ∧
      payloads .src transferringRun.2.current.outside.events = ["SELECT Id FROM Account",
        "SELECT Name FROM Contact WHERE AccountId = '1'",
        "SELECT Name FROM Contact WHERE AccountId = '2'"] ∧
      payloads .dst transferringRun.2.current.outside.events = ["Name\nAnn\n", "Name\nBob\nCat\n"] ∧
      ∃ visits, Course transferringJob bothServices {} transferringStart visits (.ok ())
        transferringRun.2.current ∧
        visits.length = 3 ∧ Expands transferringJob.nodes visits 2 [] ∧
          ∀ visit ∈ visits, visit.Served {} := by
  obtain ⟨hrun, hsteps, hiterations, hsrc, hdst⟩ := report_transferringRun
  refine ⟨ofLines_transferring, hsrc, hdst, ?_⟩
  rw [transferringRun] at hrun hsteps hiterations ⊢
  have hok := eq_ok_of_toOption hrun
  obtain ⟨visits, hcourse, -, hwhole, -⟩ :=
    run_follows_expansion transferringJob bothServices {} .empty
      { files := .empty, dir := .ofString "data" } transferringReplies 0
  obtain ⟨copies, hexpands, hserved, hlength, hcopies⟩ := hwhole hok
  obtain rfl : 2 = copies := hiterations.symm.trans hcopies
  rw [hok] at hcourse
  exact ⟨visits, hcourse, hlength.symm.trans hsteps, hexpands, hserved⟩

end TableFlow.Run
