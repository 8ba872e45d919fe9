import TableFlow.Proofs.Run.Failure
import TableFlow.Proofs.Run.Record

namespace TableFlow

/-- A step of a tree: a leaf or the driver of a loop, at the top or in a loop's body. -/
inductive Step.Within (step : Step) : List StepNode → Prop
  | leaf {rest} : Within step (.leaf step :: rest)
  | driver {param loopId body rest} : Within step (.loop param loopId step body :: rest)
  | body {param loopId driver body rest} : Within step body →
      Within step (.loop param loopId driver body :: rest)
  | rest {node rest} : Within step rest → Within step (node :: rest)

theorem Step.Within.mem_stepsOf {step : Step} {nodes : List StepNode} (h : step.Within nodes) :
    step ∈ StepNode.stepsOf nodes := by
  induction h with
  | leaf | driver => simp [StepNode.stepsOf, StepNode.steps]
  | body _ ih | rest _ ih => simp [StepNode.stepsOf, StepNode.steps, ih]

mutual

theorem Step.within_of_mem_steps {step : Step} {rest : List StepNode} :
    (node : StepNode) → step ∈ node.steps →
    step.Within (node :: rest)
  | .leaf other, h => by
    rw [StepNode.steps, List.mem_singleton] at h
    subst h
    exact .leaf
  | .loop param loopId driver body, h => by
    rcases List.mem_cons.mp h with rfl | h
    · exact .driver
    · exact .body (Step.within_of_mem_stepsOf body h)

theorem Step.within_of_mem_stepsOf {step : Step} :
    (nodes : List StepNode) → step ∈ StepNode.stepsOf nodes →
    step.Within nodes
  | [], h => nomatch h
  | node :: rest, h => by
    rcases List.mem_append.mp h with h | h
    · exact Step.within_of_mem_steps node h
    · exact .rest (Step.within_of_mem_stepsOf rest h)

end

/-- The list of all steps leaves none of the tree out. -/
theorem Step.within_iff {step : Step} {job : Job} : step.Within job.nodes ↔ step ∈ job.steps :=
  ⟨fun h => h.mem_stepsOf, Step.within_of_mem_stepsOf job.nodes⟩

theorem Step.hasRemoteSink_iff {step : Step} :
    step.hasRemoteSink = true ↔ ∃ object op idsTable,
      .remoteObject object op idsTable ∈ step.sinks := by
  rw [Step.hasRemoteSink, List.any_eq_true]
  constructor
  · rintro ⟨_ | _ | ⟨object, op, idsTable⟩, hmem, hremote⟩
    · cases hremote
    · cases hremote
    · exact ⟨object, op, idsTable, hmem⟩
  · rintro ⟨object, op, idsTable, hmem⟩
    exact ⟨_, hmem, rfl⟩

theorem Step.endpoints_of_source {step : Step} {endpoint : Endpoint} {object : String}
    (h : step.source = some (.remoteObject endpoint object)) :
    step.endpoints = endpoint :: if step.hasRemoteSink then [.dst] else [] := by
  rw [Step.endpoints, Step.remoteSource, h]
  rfl

theorem Step.mem_endpoints {step : Step} {endpoint : Endpoint} : endpoint ∈ step.endpoints ↔
    step.Needs endpoint := by
  constructor
  · intro h
    rcases List.mem_append.mp h with h | h
    · obtain ⟨⟨_, object⟩, hs, rfl⟩ : ∃ source, step.remoteSource = some source ∧
          source.1 = endpoint := by simpa using h
      exact .source (Run.source_of_remoteSource hs)
    · split at h
      · rename_i hsink
        obtain ⟨_, _, _, hmem⟩ := Step.hasRemoteSink_iff.mp hsink
        rw [List.mem_singleton.mp h]
        exact .sink hmem
      · cases h
  · rintro (hs | hmem)
    · rw [Step.endpoints_of_source hs]
      exact List.mem_cons_self
    · refine List.mem_append_right _ ?_
      rw [if_pos (Step.hasRemoteSink_iff.mpr ⟨_, _, _, hmem⟩)]
      exact List.mem_singleton_self _

section Checks

variable {α ε : Type}

theorem forM_cons_eq (f : α → Except ε Unit) (x : α) (l : List α) :
    (x :: l).forM f = match f x with
      | .ok () => l.forM f
      | .error e => .error e := by
  rw [List.forM_eq_forM, List.forM_cons]
  cases f x <;> rfl

theorem forM_cases (f : α → Except ε Unit) (l : List α) :
    (l.forM f = .ok () ∧ ∀ x ∈ l, f x = .ok ()) ∨
      ∃ front x back e, l = front ++ x :: back ∧ (∀ y ∈ front, f y = .ok ()) ∧ f x = .error e ∧
        l.forM f = .error e := by
  induction l with
  | nil => exact .inl ⟨rfl, List.forall_mem_nil _⟩
  | cons x l ih =>
      rw [forM_cons_eq]
      cases hx : f x with
      | error e => exact .inr ⟨[], x, l, e, rfl, List.forall_mem_nil _, hx, rfl⟩
      | ok =>
          obtain ⟨hl, hall⟩ | ⟨front, y, back, e, rfl, hfront, hy, hl⟩ := ih
          · exact .inl ⟨hl, List.forall_mem_cons.mpr ⟨hx, hall⟩⟩
          · exact .inr ⟨x :: front, y, back, e, rfl, List.forall_mem_cons.mpr ⟨hx, hfront⟩, hy, hl⟩

end Checks

namespace Controller

variable {σ : Type} (b : Backends σ)

def checkEndpoint (step : Step) (endpoint : Endpoint) : Except ConfigFault Unit :=
  if (b.remote endpoint).isSome then .ok () else .error (.missingEndpoint step.line endpoint)

def checkStep (step : Step) : Except ConfigFault Unit := step.endpoints.forM (checkEndpoint b step)

theorem preflight_eq (steps : List Step) : preflight b steps = steps.forM (checkStep b) := rfl

theorem checkEndpoint_eq_ok_iff {step : Step} {endpoint : Endpoint} :
    checkEndpoint b step endpoint = .ok () ↔ ¬ b.Misses endpoint := by
  rw [checkEndpoint, ← Backends.remote_eq_none_iff]
  cases b.remote endpoint <;> simp

theorem misses_of_checkEndpoint {step : Step} {endpoint : Endpoint} {fault : ConfigFault}
    (h : checkEndpoint b step endpoint = .error fault) :
    fault = .missingEndpoint step.line endpoint ∧ b.Misses endpoint := by
  rw [checkEndpoint] at h
  split at h
  · cases h
  · rename_i hnone
    cases h
    exact ⟨rfl, Backends.remote_eq_none_iff.mp (by simpa using hnone)⟩

theorem checkStep_cases (step : Step) :
    (checkStep b step = .ok () ∧ ∀ endpoint, ¬ step.Lacks b endpoint) ∨
      ∃ endpoint, checkStep b step = .error (.missingEndpoint step.line endpoint) ∧
        step.Lacks b endpoint ∧
        ∀ service object, step.source = some (.remoteObject service object) → b.Misses service →
          endpoint = service := by
  obtain ⟨hok, hall⟩ | ⟨front, endpoint, back, fault, hsplit, hfront, hfails, herror⟩ :=
    forM_cases (checkEndpoint b step) step.endpoints
  · refine .inl ⟨hok, fun endpoint hlacks => ?_⟩
    have hpasses := hall endpoint (Step.mem_endpoints.mpr hlacks.1)
    exact (checkEndpoint_eq_ok_iff b).mp hpasses hlacks.2
  · obtain ⟨rfl, hb⟩ := misses_of_checkEndpoint b hfails
    have hneeds : step.Needs endpoint := Step.mem_endpoints.mp (by simp [hsplit])
    refine .inr ⟨endpoint, herror, ⟨hneeds, hb⟩, fun service object hs hservice => ?_⟩
    -- The service of the query comes first, so that nothing can have been checked before it.
    rw [Step.endpoints_of_source hs] at hsplit
    cases front with
    | nil => exact (List.cons.inj hsplit).1.symm
    | cons first front =>
        obtain rfl := (List.cons.inj hsplit).1
        have hpasses := hfront service List.mem_cons_self
        exact absurd hservice ((checkEndpoint_eq_ok_iff b).mp hpasses)

theorem not_lacks_of_checkStep {step : Step} (h : checkStep b step = .ok ()) (endpoint : Endpoint) :
    ¬ step.Lacks b endpoint := by
  obtain ⟨_, hnone⟩ | ⟨_, he, _⟩ := checkStep_cases b step
  · exact hnone endpoint
  · rw [h] at he
    cases he

/-- The check passes if no step lacks a service, and otherwise names the first step that does. -/
theorem preflight_cases (steps : List Step) :
    (preflight b steps = .ok () ∧ ∀ step ∈ steps, ∀ endpoint, ¬ step.Lacks b endpoint) ∨
      ∃ earlier step later endpoint, steps = earlier ++ step :: later ∧
        (∀ other ∈ earlier, ∀ endpoint, ¬ other.Lacks b endpoint) ∧ step.Lacks b endpoint ∧
        (∀ service object, step.source = some (.remoteObject service object) → b.Misses service →
          endpoint = service) ∧
        preflight b steps = .error (.missingEndpoint step.line endpoint) := by
  rw [preflight_eq]
  obtain ⟨hok, hall⟩ | ⟨earlier, step, later, fault, hsplit, hearlier, hfails, herror⟩ :=
    forM_cases (checkStep b) steps
  · exact .inl ⟨hok, fun step hs => not_lacks_of_checkStep b (hall step hs)⟩
  · obtain ⟨he, _⟩ | ⟨endpoint, he, hlacks, hfirst⟩ :=
      checkStep_cases b step <;> rw [hfails] at he <;> cases he
    exact .inr ⟨earlier, step, later, endpoint, hsplit,
      fun other ho => not_lacks_of_checkStep b (hearlier other ho), hlacks, hfirst, herror⟩

theorem runFrom_execute_of_preflight (job : Job) {fault : ConfigFault}
    (h : preflight b job.steps = .error fault) (o : RunOptions) (s : RunState σ) :
    Act.runFrom s (execute job b o) = (.error (.config fault), s) := by
  rw [execute, h]
  rfl

end Controller

namespace Run

variable {σ : Type} {b : Backends σ} {o : RunOptions} {job : Job} {step : Step} {shape : Shape}
  {s t : RunState σ} {visits : List Visit} {r : Except JobError Unit} {e : JobError}

theorem opening_of_preflight (h : Controller.preflight b job.steps = .ok ())
    (ho : Act.runFrom s (opening job b o) = (.error e, t)) : ∃ err, e = .ofStore err := by
  rw [opening, h] at ho
  simp only [Except.mapError, Act.ofExcept, Act.runFrom_bind, Act.runFrom_pure,
    runFrom_onStore] at ho
  generalize (Act.runFrom s.store (TableStore.discover o.inputs)) = p at ho
  obtain ⟨err | _, store⟩ := p
  · cases ho
    exact ⟨err, rfl⟩
  · cases ho

theorem closing_error (h : Act.runFrom s (closing o) = (.error e, t)) :
    ∃ err, e = .ofStore err := by
  rw [closing] at h
  split at h
  · simp only [Act.runFrom_bind, runFrom_onStore] at h
    generalize (Act.runFrom s.store TableStore.cleanup) = p at h
    obtain ⟨err | _, store⟩ := p
    · cases h
      exact ⟨err, rfl⟩
    · cases h
  · cases h

theorem not_wantsEndpoint_of_runStep (h : ∀ endpoint, ¬ step.Lacks b endpoint)
    (hr : (Act.runFrom s (runStep b o step shape)).1 = .error e) : ¬ e.WantsEndpoint := by
  intro he
  rw [runStep] at hr
  split at hr
  · obtain ⟨visit, r, t, hp⟩ := exists_performs b o step shape s
    rw [map_eq_pure_bind, Act.runFrom_bind, hp.runFrom_runQuery] at hr
    cases r <;> cases hr
    obtain ⟨endpoint, hlacks⟩ := hp.lacks he
    exact h endpoint hlacks
  · cases hr

theorem Course.not_wantsEndpoint (h : Course job b o s visits r t) (hr : r = .error e)
    (hnone : ∀ step ∈ job.steps, ∀ endpoint, ¬ step.Lacks b endpoint)
    (hpreflight : Controller.preflight b job.steps = .ok ()) : ¬ e.WantsEndpoint := by
  subst hr
  cases h with
  | unopened ho =>
      obtain ⟨err, rfl⟩ := opening_of_preflight hpreflight ho
      exact not_wantsEndpoint_ofStore err
  | failed _ _ hw =>
      intro he
      obtain ⟨done, visit, node, rest, u, v, rfl, _, _, hp, _⟩ := hw.stops
      obtain ⟨endpoint, hlacks⟩ := hp.lacks he
      have hmem := hw.step_mem visit (by simp)
      rw [steps_nodes, hp.step_eq] at hmem
      exact hnone _ hmem endpoint hlacks
  | walked _ _ _ hc =>
      obtain ⟨err, rfl⟩ := closing_error hc
      exact not_wantsEndpoint_ofStore err

/-- If some step of the tree lacks a service, the run is refused at the first one that does,
before it has asked or changed anything; and if none does, no step and no run fails for want of
a service. -/
theorem endpoints_checked_before_run (job : Job) (b : Backends σ) (o : RunOptions)
    (bindings : Scope) (store : TableStore) (outside : σ) (runId : Nat) :
    let c := (Controller.new job b o bindings store outside runId).run
    let c' := (Controller.new job b.recorded o bindings store (outside, []) runId).run
    ((∃ (step : Step) (endpoint : Endpoint), step.Within job.nodes ∧ step.Lacks b endpoint) →
      ∃ earlier step later endpoint, job.steps = earlier ++ step :: later ∧
        (∀ other ∈ earlier, ∀ endpoint, ¬ other.Lacks b endpoint) ∧ step.Lacks b endpoint ∧
        (∀ service object, step.source = some (.remoteObject service object) → b.Misses service →
          endpoint = service) ∧
        c.1 = .error (.config (.missingEndpoint step.line endpoint)) ∧
        c.2.report.error = some (JobError.config (.missingEndpoint step.line endpoint)).message ∧
        c.2.current = { store, scope := bindings, outside } ∧ c'.2.current.outside = (outside, []) ∧
        c.2.report.bindings = bindings ∧ c.2.report.stepsExecuted = 0) ∧
    ((∀ (step : Step) (endpoint : Endpoint), step.Within job.nodes → ¬ step.Lacks b endpoint) →
      (∀ step : Step, step.Within job.nodes → ∀ shape (s : RunState σ) e,
        (Act.runFrom s (runStep b o step shape)).1 = .error e → ¬ e.WantsEndpoint) ∧
      ∀ e, c.1 = .error e → ¬ e.WantsEndpoint) := by
  intro c c'
  obtain ⟨hpreflight, hnone⟩ | ⟨earlier, step, later, endpoint, hsplit, hearlier, hlacks, hfirst,
      hpreflight⟩ := Controller.preflight_cases b job.steps
  · refine ⟨fun ⟨step, endpoint, hwithin, hlacks⟩ => ?_,
      fun _ => ⟨fun step hwithin shape s e he => ?_, fun e he => ?_⟩⟩
    · exact absurd hlacks (hnone step (Step.within_iff.mp hwithin) endpoint)
    · exact not_wantsEndpoint_of_runStep (hnone step (Step.within_iff.mp hwithin)) he
    · obtain ⟨visits, hcourse⟩ := Controller.exists_course job b o bindings store outside runId
      exact hcourse.not_wantsEndpoint he hnone hpreflight
  · have hrecorded : Controller.preflight b.recorded job.steps =
        .error (.missingEndpoint step.line endpoint) := by
      rw [Controller.preflight_recorded, hpreflight]
    obtain ⟨hresult, hcurrent, hsteps, _⟩ := Controller.run_new job b o bindings store outside runId
    obtain ⟨_, hcurrent', _⟩ :=
      Controller.run_new job b.recorded o bindings store (outside, []) runId
    rw [Controller.runFrom_execute_of_preflight b job hpreflight] at hresult hcurrent hsteps
    rw [Controller.runFrom_execute_of_preflight b.recorded job hrecorded] at hcurrent'
    obtain ⟨_, herror, _, hbindings⟩ :=
      Controller.report_of_error job b o bindings store outside runId hresult
    refine ⟨fun _ => ⟨earlier, step, later, endpoint, hsplit, hearlier, hlacks, hfirst, hresult,
      herror, hcurrent, ?_, ?_, hsteps⟩, fun hnone => ?_⟩
    · exact congrArg RunState.outside hcurrent'
    · exact hbindings.trans (congrArg RunState.scope hcurrent)
    · exact absurd hlacks (hnone step endpoint (Step.within_iff.mpr (by simp [hsplit])))

def sourceOnly : Backends Rehearsal := { bothServices with dst := none }

theorem endpoints_checked_before_run_sourceOnly :
    let c :=
      (Controller.new transferringJob sourceOnly {} .empty
        { files := .empty, dir := .ofString "data" } transferringReplies 0).run
    transferringSteps[1].Lacks sourceOnly .dst ∧ c.1 = .error (.config (.missingEndpoint 2 .dst)) ∧
      c.2.current = transferringStart ∧ c.2.report.stepsExecuted = 0 := by
  intro c
  have hlacks : transferringSteps[1].Lacks sourceOnly .dst :=
    ⟨.sink (List.mem_singleton_self _), rfl⟩
  have hwithin : transferringSteps[1].Within transferringJob.nodes := .body .leaf
  obtain ⟨_, _, _, _, -, -, -, -, -, -, hcurrent, -, -, hsteps⟩ :=
    (endpoints_checked_before_run transferringJob sourceOnly {} .empty
      { files := .empty, dir := .ofString "data" } transferringReplies 0).1 ⟨_, _, hwithin, hlacks⟩
  exact ⟨hlacks, rfl, hcurrent, hsteps⟩

end Run
end TableFlow
