import TableFlow.Proofs.Run.Compare

namespace TableFlow

variable {σ : Type}

def Executor.recorded (endpoint : Option Endpoint) (e : Executor σ) :
    Executor (σ × List Run.Event) where
  backend := e.backend
  execute request files := Act.ofFun fun p =>
    let r := Act.runFrom p.1 (e.execute request files)
    (r.1, r.2, p.2 ++ [.request endpoint request files r.1])

/-- The same backends with one record for all of them. -/
def Backends.recorded (b : Backends σ) : Backends (σ × List Run.Event) where
  engine := b.engine.recorded none
  src := b.src.map (·.recorded (some .src))
  dst := b.dst.map (·.recorded (some .dst))
  clock p := b.clock p.1

theorem Backends.remote_recorded (b : Backends σ) (endpoint : Endpoint) :
    b.recorded.remote endpoint = (b.remote endpoint).map (·.recorded (some endpoint)) := by
  cases endpoint <;> rfl

theorem Backends.executor?_recorded (b : Backends σ) (endpoint : Option Endpoint) :
    b.recorded.executor? endpoint = (b.executor? endpoint).map (·.recorded endpoint) := by
  cases endpoint with
  | none => rfl
  | some endpoint => exact b.remote_recorded endpoint

theorem Controller.preflight_recorded (b : Backends σ) (steps : List Step) :
    preflight b.recorded steps = preflight b steps := by
  simp only [preflight, Backends.remote_recorded, Option.isSome_map]

def RunState.recorded (s : RunState σ) (record : List Run.Event) : RunState (σ × List Run.Event) :=
  { store := s.store, scope := s.scope, outside := (s.outside, record), steps := s.steps,
    iterations := s.iterations }

namespace Run

def requests (events : List Event) : List Event := events.filter fun
  | .request .. => true
  | _ => false

theorem requests_append (events events' : List Event) :
    requests (events ++ events') = requests events ++ requests events' :=
  List.filter_append ..

theorem recorded_of_silent {s : RunState σ} {events : List Event} (h : requests events = [])
    (record : List Event) :
    s.recorded (record ++ requests events) = s.recorded record := by
  rw [h, List.append_nil]

variable {b : Backends σ} {o : RunOptions} {step : Step} {shape : Shape} {s t : RunState σ}
  {outcome : Outcome} {events : List Event} {visit : Visit} {tasks : List Task}
  {visits : List Visit}

theorem Asks.recorded {endpoint : Option Endpoint} {request : Request} {r : Except JobError Outcome}
    (h : Asks b s endpoint request events r t) (record : List Event) :
    Asks b.recorded (s.recorded record) endpoint request events r
      (t.recorded (record ++ requests events)) := by
  cases h with
  | @unconfigured service he hn =>
      have hn' : b.recorded.remote service = none := by
        rw [b.remote_recorded, hn]
        rfl
      rw [recorded_of_silent rfl]
      exact .unconfigured he hn'
  | @answered e answer outside he ha =>
      have he' : b.recorded.executor? endpoint = some (e.recorded endpoint) := by
        rw [b.executor?_recorded, he]
        rfl
      have ha' : Act.runFrom (s.recorded record).outside
          ((e.recorded endpoint).execute request s.store.files) =
          (answer, outside, record ++ [.request endpoint request s.store.files answer]) := by
        simp only [Executor.recorded, RunState.recorded, Act.runFrom_ofFun, ha]
      exact .answered he' ha'

theorem Obtains.recorded {r : Except JobError Outcome} (h : Obtains b o step shape s events r t)
    (record : List Event) :
    Obtains b.recorded o step shape (s.recorded record) events r
      (t.recorded (record ++ requests events)) := by
  cases h with
  | reused hr ha =>
      rw [recorded_of_silent rfl]
      exact .reused hr ha
  | missing hr hs hi =>
      rw [recorded_of_silent rfl]
      exact .missing hr hs hi
  | engine hr hs hi ha => exact .engine hr hs hi (ha.recorded record)
  | service hr hs ha => exact .service hr hs (ha.recorded record)

theorem Applies.recorded {sink : Sink} {r : Except JobError Unit}
    (h : Applies b outcome s sink events r t) (record : List Event) :
    Applies b.recorded outcome (s.recorded record) sink events r
      (t.recorded (record ++ requests events)) := by
  cases h with
  | stored ha =>
      rw [recorded_of_silent rfl]
      exact .stored ha
  | bound =>
      rw [recorded_of_silent rfl]
      exact .bound
  | refused ha => exact .refused (ha.recorded record)
  | mutated ha => exact .mutated (ha.recorded record)
  | keptIds ha hstore =>
      rw [requests_append, ← List.append_assoc, recorded_of_silent rfl]
      exact .keptIds (ha.recorded record) hstore

theorem Pours.recorded {sinks : List Sink} {r : Except JobError Unit}
    (h : Pours b outcome s sinks events r t) (record : List Event) :
    Pours b.recorded outcome (s.recorded record) sinks events r
      (t.recorded (record ++ requests events)) := by
  induction h generalizing record with
  | done s =>
      rw [recorded_of_silent rfl]
      exact .done _
  | failed ha => exact .failed (ha.recorded record)
  | next ha _ ih =>
      rw [requests_append, ← List.append_assoc]
      exact .next (ha.recorded record) (ih _)

theorem Performs.recorded {r : Except JobError Outcome} (h : Performs b o step shape s visit r t)
    (record : List Event) :
    Performs b.recorded o step shape (s.recorded record) visit r
      (t.recorded (record ++ requests visit.events)) := by
  cases h with
  | withoutResult ho => exact .withoutResult (ho.recorded record)
  | withResult ho hp =>
      rw [requests_append, ← List.append_assoc]
      exact .withResult (ho.recorded record) (hp.recorded _)

theorem Walks.recorded {r : Except JobError Unit} (h : Walks b o tasks s visits r t)
    (record : List Event) :
    Walks b.recorded o tasks (s.recorded record) visits r
      (t.recorded (record ++ requests (visits.flatMap Visit.events))) := by
  induction h generalizing record with
  | done s =>
      rw [List.flatMap_nil, recorded_of_silent rfl]
      exact .done _
  | skipped hq _ ih => exact .skipped hq (ih record)
  | failed hq hp =>
      rw [List.flatMap_singleton]
      exact .failed hq (hp.recorded record)
  | executed hq hp _ ih =>
      rw [List.flatMap_cons, requests_append, ← List.append_assoc]
      exact .executed hq (hp.recorded record) (ih _)
  | iteration _ ih => exact .iteration (ih record)
  | rejoin _ ih => exact .rejoin (ih record)

theorem runFrom_onStore_recorded {α : Type} (a : StoreAct α) (s : RunState σ)
    (record : List Event) :
    Act.runFrom (s.recorded record) (onStore a) =
      ((Act.runFrom s (onStore a)).1, (Act.runFrom s (onStore a)).2.recorded record) := rfl

theorem runFrom_opening_recorded (job : Job) (b : Backends σ) (o : RunOptions) (s : RunState σ)
    (record : List Event) :
    Act.runFrom (s.recorded record) (opening job b.recorded o) =
      ((Act.runFrom s (opening job b o)).1,
        (Act.runFrom s (opening job b o)).2.recorded record) := by
  simp only [opening, Controller.preflight_recorded, Act.runFrom_bind]
  cases Controller.preflight b job.steps with
  | error => rfl
  | ok =>
      dsimp only [Except.mapError, Act.ofExcept, Act.runFrom_pure]
      rw [runFrom_onStore_recorded]
      generalize Act.runFrom s (onStore (TableStore.discover o.inputs)) = p
      obtain ⟨_ | _, u⟩ := p <;> rfl

theorem runFrom_closing_recorded (o : RunOptions) (s : RunState σ) (record : List Event) :
    Act.runFrom (s.recorded record) (closing o) =
      ((Act.runFrom s (closing o)).1, (Act.runFrom s (closing o)).2.recorded record) := by
  rw [closing, closing]
  split
  · rw [Act.runFrom_bind, Act.runFrom_bind, runFrom_onStore_recorded]
    generalize Act.runFrom s (onStore TableStore.cleanup) = p
    obtain ⟨_ | _, u⟩ := p <;> rfl
  · rfl

theorem ending_recorded (o : RunOptions) (r : Except JobError Unit) (s : RunState σ)
    (record : List Event) :
    ending o r (s.recorded record) = ((ending o r s).1, (ending o r s).2.recorded record) := by
  cases r with
  | ok => exact runFrom_closing_recorded o s record
  | error => rfl

/-- The requests of a run are those that its backends receive, one after the other, and a record
of them changes nothing. -/
theorem Course.recorded {job : Job} {r : Except JobError Unit} (h : Course job b o s visits r t)
    (record : List Event) :
    Act.runFrom (s.recorded record) (Controller.execute job b.recorded o) =
      (r, t.recorded (record ++ requests (visits.flatMap Visit.events))) := by
  rw [runFrom_execute, runFrom_opening_recorded]
  obtain ⟨e, ho, rfl, rfl⟩ | ⟨u, r', v, ho, hw, hend⟩ := h.unopened_or_walks
  · rw [ho, List.flatMap_nil, recorded_of_silent rfl]
  · -- The recorded walk is the one that the run of the recorded backends goes.
    obtain ⟨visits', hw'⟩ := Run.exists_walks b.recorded o job.nodes (u.recorded record)
    obtain ⟨_, hr, ht⟩ := (hw.recorded record).unique hw'
    rw [ho]
    dsimp only
    rw [← hr, ← ht, ending_recorded, hend]

end Run

/-- Any account of the visits of a run has the requests that the backends of the run receive, in
their order. -/
theorem Controller.run_recorded (job : Job) (b : Backends σ) (o : RunOptions) (bindings : Scope)
    (store : TableStore) (outside : σ) (runId : Nat) {visits : List Run.Visit} :
    let c := (new job b o bindings store outside runId).run
    let c' := (new job b.recorded o bindings store (outside, []) runId).run
    Run.Course job b o { store, scope := bindings, outside } visits c.1 c.2.current →
      c'.1 = c.1 ∧
        c'.2.current = c.2.current.recorded (Run.requests (visits.flatMap Run.Visit.events)) := by
  intro c c' hcourse
  obtain ⟨hresult, hcurrent, _⟩ := run_new job b.recorded o bindings store (outside, []) runId
  have hended := hcourse.recorded []
  rw [List.nil_append] at hended
  exact ⟨hresult.trans (congrArg Prod.fst hended), hcurrent.trans (congrArg Prod.snd hended)⟩

end TableFlow
