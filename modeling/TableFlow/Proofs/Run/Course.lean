import TableFlow.Proofs.Run.Agenda
import TableFlow.Proofs.Run.Journal
import TableFlow.Run.Controller

namespace TableFlow.Run

def Task.steps : Task → List Step
  | .node n => n.steps
  | .iteration _ _ body _ => StepNode.stepsOf body
  | .rejoin _ => []

/-- What comes before the walk: the check that all services are there, and the search for
tables. -/
def opening {σ : Type} (job : Job) (b : Backends σ) (o : RunOptions) : Run σ Unit := do
  Act.ofExcept ((Controller.preflight b job.steps).mapError .config)
  let _ ← onStore (TableStore.discover o.inputs)

def closing {σ : Type} (o : RunOptions) : Run σ Unit := do
  if o.cleanupScratch then
    let _ ← onStore TableStore.cleanup

/-- One run of a job with all that its steps have done. -/
inductive Course {σ : Type} (job : Job) (b : Backends σ) (o : RunOptions) (s : RunState σ) :
    List Visit → Except JobError Unit → RunState σ → Prop
  | unopened {e t} : Act.runFrom s (opening job b o) = (.error e, t) →
      Course job b o s [] (.error e) t
  | failed {u visits e t} : Act.runFrom s (opening job b o) = (.ok (), u) →
      Act.runFrom u (runNodes b o job.nodes) = (.error e, t) →
        Walks b o (job.nodes.map .node) u visits (.error e) t →
      Course job b o s visits (.error e) t
  | walked {u visits v r t} : Act.runFrom s (opening job b o) = (.ok (), u) →
      Act.runFrom u (runNodes b o job.nodes) = (.ok (), v) →
        Walks b o (job.nodes.map .node) u visits (.ok ()) v →
      Act.runFrom v (closing o) = (r, t) → Course job b o s visits r t

variable {σ : Type} {b : Backends σ} {o : RunOptions} {s t : RunState σ} {tasks : List Task}
  {visits earlier later : List Visit} {visit : Visit} {r : Except JobError Unit}

theorem Performs.step_eq {step : Step} {shape : Shape} {r : Except JobError Outcome}
    (h : Performs b o step shape s visit r t) :
    visit.step = step := by
  cases h <;> rfl

theorem steps_nodes (nodes : List StepNode) :
    (nodes.map Task.node).flatMap Task.steps = StepNode.stepsOf nodes := by
  induction nodes with
  | nil => rfl
  | cons node rest ih => rw [List.map_cons, List.flatMap_cons, ih, StepNode.stepsOf, Task.steps]

theorem steps_iterations (outcome : Outcome) (node : StepNode) :
    ∀ step ∈ (iterations outcome node).flatMap Task.steps, step ∈ node.steps := by
  intro step hs
  obtain ⟨task, htask, hs⟩ := List.mem_flatMap.mp hs
  cases node with
  | leaf => cases htask
  | loop param loopId driver body =>
      obtain ⟨value, _, rfl⟩ := List.mem_map.mp htask
      exact List.mem_cons_of_mem driver hs

theorem Walks.step_mem (h : Walks b o tasks s visits r t) :
    ∀ visit ∈ visits, visit.step ∈ tasks.flatMap Task.steps := by
  have hfirst (node : StepNode) : node.first ∈ node.steps := by
    cases node <;> exact List.mem_cons_self
  induction h with
  | done => exact List.forall_mem_nil _
  | skipped _ _ ih =>
      intro visit hv
      exact List.mem_append_right _ (ih visit hv)
  | @failed node rest _ _ _ _ _ hp =>
      intro visit hv
      rw [List.mem_singleton.mp hv, hp.step_eq]
      exact List.mem_append_left _ (hfirst node)
  | @executed node rest _ _ outcome _ _ _ _ _ hp _ ih =>
      intro visit hv
      rcases List.mem_cons.mp hv with rfl | hv
      · rw [hp.step_eq]
        exact List.mem_append_left _ (hfirst node)
      · have hstep := ih visit hv
        rw [List.flatMap_append] at hstep
        rcases List.mem_append.mp hstep with hstep | hstep
        · exact List.mem_append_left _ (steps_iterations outcome node _ hstep)
        · exact List.mem_append_right _ hstep
  | iteration _ ih =>
      intro visit hv
      have hstep := ih visit hv
      rwa [List.flatMap_append, steps_nodes] at hstep
  | rejoin _ ih => exact ih

theorem Walks.journal (h : Walks b o tasks s visits r t) (hr : Unrefused r) :
    Journal s.store (visits.flatMap Visit.events) t.store := by
  induction h with
  | done s => exact .done _
  | skipped _ _ ih | iteration _ ih | rejoin _ ih => exact ih hr
  | failed _ hp =>
      rw [List.flatMap_singleton]
      exact hp.journal fun e he => hr e (by cases he; rfl)
  | executed _ hp _ ih => 
      rw [List.flatMap_cons]
      exact (hp.journal (unrefused_ok _)).append (ih hr)

theorem Reaches.journal {left : List Task} (h : Reaches b o tasks s visits left t) :
    Journal s.store (visits.flatMap Visit.events) t.store := by
  induction h with
  | here => exact .done _
  | skipped _ _ ih | iteration _ ih | rejoin _ ih => exact ih
  | executed _ hp _ ih =>
      rw [List.flatMap_cons]
      exact (hp.journal (unrefused_ok _)).append ih

/-- Where a walk stands before one of its visits. If the visit fails, the walk ends with it. -/
theorem Walks.reaches (h : Walks b o tasks s visits r t) (hv : visits = earlier ++ visit :: later) :
    ∃ node rest u r' v, Reaches b o tasks s earlier (.node node :: rest) u ∧
      Performs b o node.first node.shape u visit r' v ∧
      ∀ e, r' = .error e → later = [] ∧ r = .error e := by
  induction h generalizing earlier with
  | done s => simp at hv
  | skipped hq _ ih =>
      obtain ⟨node, rest, u, r', v, hreaches, hp⟩ := ih hv
      exact ⟨node, rest, u, r', v, .skipped hq hreaches, hp⟩
  | iteration _ ih =>
      obtain ⟨node, rest, u, r', v, hreaches, hp⟩ := ih hv
      exact ⟨node, rest, u, r', v, .iteration hreaches, hp⟩
  | rejoin _ ih =>
      obtain ⟨node, rest, u, r', v, hreaches, hp⟩ := ih hv
      exact ⟨node, rest, u, r', v, .rejoin hreaches, hp⟩
  | @failed _ _ _ _ e _ _ hp =>
      obtain ⟨rfl, hv⟩ | ⟨front, rfl, hv⟩ := List.cons_eq_append_iff.mp hv
      · obtain ⟨rfl, rfl⟩ := List.cons.inj hv
        exact ⟨_, _, _, _, _, .here _ _, hp, fun e he => ⟨rfl, by cases he; rfl⟩⟩
      · simp at hv
  | executed hq hp _ ih =>
      obtain ⟨rfl, hv⟩ | ⟨front, rfl, hrest⟩ := List.cons_eq_append_iff.mp hv
      · obtain ⟨rfl, rfl⟩ := List.cons.inj hv
        exact ⟨_, _, _, _, _, .here _ _, hp, fun _ he => nomatch he⟩
      · obtain ⟨node, rest, u, r', v, hreaches, hp'⟩ := ih hrest
        exact ⟨node, rest, u, r', v, .executed hq hp hreaches, hp'⟩

theorem Walks.at_visit (h : Walks b o tasks s visits r t)
    (hv : visits = earlier ++ visit :: later) :
    ∃ shape u r' v, Journal s.store (earlier.flatMap Visit.events) u.store ∧
      Performs b o visit.step shape u visit r' v ∧
      ∀ e, r' = .error e → later = [] ∧ r = .error e := by
  obtain ⟨node, rest, u, r', v, hreaches, hp, hr⟩ := h.reaches hv
  rw [hp.step_eq]
  exact ⟨_, _, _, _, hreaches.journal, hp, hr⟩

theorem Walks.named (h : Walks b o tasks s visits r t)
    (hn : ∀ step ∈ tasks.flatMap Task.steps, ∀ name ∈ step.tables, Directive.isName name = true)
    {events : List Event} (hsub : events ⊆ visits.flatMap Visit.events) :
    Named (lastStored events) := by
  intro name p hp
  obtain ⟨path, he⟩ := mem_of_lastStored hp
  obtain ⟨visit, hv, he⟩ := List.mem_flatMap.mp (hsub he)
  obtain ⟨earlier, later, hsplit⟩ := List.append_of_mem hv
  obtain ⟨_, _, _, _, _, hperforms, _⟩ := h.at_visit hsplit
  exact hn _ (h.step_mem visit hv) name (hperforms.stored_mem_tables he)

def ending (o : RunOptions) (r : Except JobError Unit) (s : RunState σ) :
    Except JobError Unit × RunState σ :=
  match r with
  | .ok () => Act.runFrom s (closing o)
  | .error e => (.error e, s)

theorem runFrom_execute (job : Job) (b : Backends σ) (o : RunOptions) (s : RunState σ) :
    Act.runFrom s (Controller.execute job b o) =
      match Act.runFrom s (opening job b o) with
      | (.ok (), u) =>
          ending o (Act.runFrom u (runNodes b o job.nodes)).1
            (Act.runFrom u (runNodes b o job.nodes)).2
      | (.error e, u) => (.error e, u) := by
  simp only [Controller.execute, opening, Act.runFrom_bind]
  generalize Act.runFrom s
    (Act.ofExcept ((Controller.preflight b job.steps).mapError .config) : Run σ Unit) = p
  obtain ⟨_ | _, u⟩ := p
  · rfl
  · dsimp only
    generalize Act.runFrom u (onStore (TableStore.discover o.inputs)) = p
    obtain ⟨_ | _, u⟩ := p
    · rfl
    · dsimp only [Act.runFrom_pure]
      generalize Act.runFrom u (runNodes b o job.nodes) = p
      obtain ⟨_ | _, v⟩ := p <;> rfl

theorem exists_course (job : Job) (b : Backends σ) (o : RunOptions) (s : RunState σ) :
    ∃ visits, Course job b o s visits (Act.runFrom s (Controller.execute job b o)).1
      (Act.runFrom s (Controller.execute job b o)).2 := by
  rw [runFrom_execute]
  cases ho : Act.runFrom s (opening job b o) with
  | mk r u =>
      cases r with
      | error e => exact ⟨[], .unopened ho⟩
      | ok =>
          obtain ⟨visits, hw⟩ := exists_walks b o job.nodes u
          dsimp only
          generalize hn : Act.runFrom u (runNodes b o job.nodes) = p at hw ⊢
          obtain ⟨_ | _, v⟩ := p
          · exact ⟨visits, .failed ho hn hw⟩
          · exact ⟨visits, .walked ho hn hw rfl⟩

theorem runFrom_opening {files : FileTree} {dir : Path} (job : Job) (b : Backends σ)
    (o : RunOptions) (hs : s.store = { files, dir }) :
    (∃ fault, Controller.preflight b job.steps = .error fault ∧
        Act.runFrom s (opening job b o) = (.error (.config fault), s)) ∨
      ∃ answer store, TableStore.Discovers files dir o.inputs answer store ∧
        Act.runFrom s (opening job b o) = ((answer.map fun _ => ()).mapError .ofStore,
          { s with store }) := by
  simp only [opening, Act.runFrom_bind]
  cases Controller.preflight b job.steps with
  | error fault => exact .inl ⟨fault, rfl, rfl⟩
  | ok =>
      refine .inr ⟨_, _, TableStore.discovers_discover files dir o.inputs, ?_⟩
      dsimp only [Except.mapError, Act.ofExcept, Act.runFrom_pure]
      rw [runFrom_onStore, hs]
      generalize Act.runFrom { files, dir } (TableStore.discover o.inputs) = p
      obtain ⟨_ | _, store⟩ := p <;> rfl

theorem file?_of_opening {files : FileTree} {dir : Path} {job : Job} {r : Except JobError Unit}
    (hs : s.store = { files, dir }) (h : Act.runFrom s (opening job b o) = (r, t))
    (place : List String) :
    t.store.files.file? place = files.file? place := by
  obtain ⟨fault, _, hopening⟩ | ⟨answer, store, hdiscovers, hopening⟩ := runFrom_opening job b o hs
  · rw [hopening] at h
    cases h
    rw [hs]
  · rw [hopening] at h
    cases h
    exact TableStore.file?_of_discovers hdiscovers place

/-- What comes after a walk takes away the tables that are not to last, and no other file. -/
theorem file?_of_closing {place : List String}
    (hplace : ∀ name ∈ s.store.scratch, place ≠ (s.store.path name).resolve) :
    (Act.runFrom s (closing o)).2.store.files.file? place = s.store.files.file? place := by
  rw [closing]
  split
  · have hcleanup := TableStore.file?_cleanup hplace
    rw [Act.runFrom_bind, runFrom_onStore]
    cases (Act.runFrom s.store TableStore.cleanup).1 <;> exact hcleanup
  · rfl

theorem file?_of_ending {place : List String}
    (hplace : r = .ok () → ∀ name ∈ s.store.scratch, place ≠ (s.store.path name).resolve) :
    (ending o r s).2.store.files.file? place = s.store.files.file? place := by
  cases r with
  | error e => rfl
  | ok => exact file?_of_closing (hplace rfl)

theorem discovers_of_opening {files : FileTree} {dir : Path} {job : Job}
    (hs : s.store = { files, dir }) (ho : Act.runFrom s (opening job b o) = (.ok (), t)) :
    ∃ n found, TableStore.Discovers files dir o.inputs (.ok n) found ∧
      t = { s with store := found } := by
  obtain ⟨fault, _, hf⟩ | ⟨answer, found, hd, hf⟩ := runFrom_opening job b o hs <;> rw [hf] at ho
  · cases ho
  · cases answer <;> cases ho
    exact ⟨_, found, hd, rfl⟩

theorem Course.unopened_or_walks {job : Job} (h : Course job b o s visits r t) :
    (∃ e, Act.runFrom s (opening job b o) = (.error e, t) ∧ visits = [] ∧ r = .error e) ∨
      ∃ u r' v, Act.runFrom s (opening job b o) = (.ok (), u) ∧
        Walks b o (job.nodes.map .node) u visits r' v ∧
        ending o r' v = (r, t) := by
  cases h with
  | unopened ho => exact .inl ⟨_, ho, rfl, rfl⟩
  | failed ho _ hw => exact .inr ⟨_, _, _, ho, hw, rfl⟩
  | walked ho _ hw hc => exact .inr ⟨_, _, _, ho, hw, hc⟩

theorem Course.exists_walks {job : Job} (h : Course job b o s visits r t) (hv : visits ≠ []) :
    ∃ w r' v, Act.runFrom s (opening job b o) = (.ok (), w) ∧
      Walks b o (job.nodes.map .node) w visits r' v ∧
      ∀ e, r' = .error e → r = .error e := by
  cases h with
  | unopened => exact absurd rfl hv
  | failed ho _ hw => exact ⟨_, _, _, ho, hw, fun e he => he⟩
  | walked ho _ hw => exact ⟨_, _, _, ho, hw, fun _ he => nomatch he⟩

/-- The tables before a visit, told by those that the run found and what it has stored since. -/
theorem Course.at_visit {files : FileTree} {dir : Path} {job : Job}
    (h : Course job b o s visits r t) (hs : s.store = { files, dir })
    (hv : visits = earlier ++ visit :: later) :
    ∃ n found shape u r' v, TableStore.Discovers files dir o.inputs (.ok n) found ∧
      Follows found (lastStored (earlier.flatMap Visit.events)) u.store ∧
        Performs b o visit.step shape u visit r' v ∧
      ∀ e, r' = .error e → later = [] ∧ r = .error e := by
  obtain ⟨w, r', v, ho, hw, hr⟩ := h.exists_walks (by simp [hv])
  obtain ⟨n, found, hd, rfl⟩ := discovers_of_opening hs ho
  obtain ⟨shape, u, r'', v, hj, hp, hlast⟩ := hw.at_visit hv
  exact ⟨n, found, shape, u, r'', v, hd, hj.follows, hp, fun e he =>
    ⟨(hlast e he).1, hr e (hlast e he).2⟩⟩

theorem isName_of_mem_tasks {lines : List String} {job : Job} (hjob : Job.ofLines lines = .ok job) :
    ∀ step ∈ (job.nodes.map Task.node).flatMap Task.steps, ∀ name ∈ step.tables,
      Directive.isName name = true := by
  rw [steps_nodes]
  exact isName_of_ofLines hjob

theorem Course.named {lines : List String} {job : Job} (h : Course job b o s visits r t)
    (hjob : Job.ofLines lines = .ok job) (hv : visits = earlier ++ visit :: later) :
    Named (lastStored (earlier.flatMap Visit.events)) ∧
      ∀ name ∈ visit.step.tables, Directive.isName name = true := by
  obtain ⟨w, r', v, _, hw, _⟩ := h.exists_walks (by simp [hv])
  have hnames := isName_of_mem_tasks hjob
  have hearlier : earlier.flatMap Visit.events ⊆ visits.flatMap Visit.events := by
    rw [hv, List.flatMap_append]
    exact List.subset_append_left _ _
  exact ⟨hw.named hnames hearlier, hnames _ (hw.step_mem visit (by simp [hv]))⟩

end TableFlow.Run

namespace TableFlow.Controller

variable {σ : Type} (job : Job) (b : Backends σ) (o : RunOptions) (bindings : Scope)
  (store : TableStore) (outside : σ) (runId : Nat)

theorem run_new :
    let ended := Act.runFrom { store, scope := bindings, outside } (execute job b o)
    let c := (new job b o bindings store outside runId).run
    c.1 = ended.1 ∧ c.2.current = ended.2 ∧ c.2.report.stepsExecuted = ended.2.steps ∧
      c.2.report.loopIterations = ended.2.iterations := by
  intro ended c
  have hended : Act.runFrom (new job b o bindings store outside runId).current
      (execute job b o) = ended := rfl
  simp only [c, run, new] at hended ⊢
  rw [hended]
  obtain ⟨_ | _, t⟩ := ended
  · exact ⟨rfl, rfl, rfl, rfl⟩
  · exact ⟨rfl, rfl, rfl, rfl⟩

theorem report_of_error
    {e : JobError} (h : (new job b o bindings store outside runId).run.1 = .error e) :
    let c := (new job b o bindings store outside runId).run
    c.2.report.state = .failed ∧ c.2.report.error = some e.message ∧
      c.2.report.finishedAt = some ⟨b.clock c.2.current.outside⟩ ∧
        c.2.report.bindings = c.2.current.scope := by
  obtain ⟨hresult, _⟩ := run_new job b o bindings store outside runId
  rw [h] at hresult
  have hended : (Act.runFrom (new job b o bindings store outside runId).current
      (execute job b o)).1 = .error e :=
    hresult.symm
  simp only [run, new] at hended ⊢
  generalize Act.runFrom { store, scope := bindings, outside } (execute job b o) = ended at hended
  obtain ⟨_, t⟩ := ended
  subst hended
  exact ⟨rfl, rfl, rfl, rfl⟩

theorem exists_course :
    ∃ visits, Run.Course job b o { store, scope := bindings, outside } visits
      (new job b o bindings store outside runId).run.1
        (new job b o bindings store outside runId).run.2.current := by
  obtain ⟨hresult, hcurrent, _⟩ := run_new job b o bindings store outside runId
  rw [hresult, hcurrent]
  exact Run.exists_course job b o _

theorem report_congr {o o' : RunOptions}
    (hresult : (new job b o bindings store outside runId).run.1 =
      (new job b o' bindings store outside runId).run.1)
    (hcurrent : (new job b o bindings store outside runId).run.2.current =
      (new job b o' bindings store outside runId).run.2.current) :
    (new job b o bindings store outside runId).run.2.report =
      (new job b o' bindings store outside runId).run.2.report := by
  obtain ⟨hr, hc, _⟩ := run_new job b o bindings store outside runId
  obtain ⟨hr', hc', _⟩ := run_new job b o' bindings store outside runId
  rw [hr, hr'] at hresult
  rw [hc, hc'] at hcurrent
  have hended : Act.runFrom (new job b o bindings store outside runId).current (execute job b o) =
      Act.runFrom (new job b o' bindings store outside runId).current (execute job b o') :=
        Prod.ext hresult hcurrent
  simp only [run, new] at hended ⊢
  rw [hended]
  generalize Act.runFrom { store, scope := bindings, outside } (execute job b o') = ended
  obtain ⟨_ | _, t⟩ := ended
  · rfl
  · rfl

end TableFlow.Controller
