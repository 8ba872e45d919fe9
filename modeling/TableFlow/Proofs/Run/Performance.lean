import TableFlow.Run.Walk

namespace TableFlow

variable {σ : Type}

def Backends.executor? (b : Backends σ) : Option Endpoint → Option (Executor σ)
  | none => some b.engine
  | some endpoint => b.remote endpoint

namespace Run

/-- One thing that a step does, and what comes of it. A request goes to a service or to the
engine, with the files as they are at that moment. -/
inductive Event
  | request (endpoint : Option Endpoint) (request : Request) (files : FileTree)
      (answer : Except ExecutionFault Outcome)
  | load (name : String) (answer : Except StoreError Table)
  | store (name : String) (data : Table) (cached : Bool) (answer : Except StoreError Path)
  | bind (name value : String)

structure Visit where
  step : Step
  result : Option Outcome
  events : List Event

/-- The table that a step is answered with, where tables are reused. -/
def reused? (o : RunOptions) (store : TableStore) (step : Step) : Option String :=
  if o.reuseCached then standIn store step else none

inductive Asks (b : Backends σ) (s : RunState σ) (endpoint : Option Endpoint) (request : Request) :
    List Event → Except JobError Outcome → RunState σ → Prop
  | unconfigured {service} : endpoint = some service → b.remote service = none →
      Asks b s endpoint request [] (.error (.config (.noEndpoint service))) s
  | answered {e answer outside} : b.executor? endpoint = some e →
      Act.runFrom s.outside (e.execute request s.store.files) = (answer, outside) →
      Asks b s endpoint request [.request endpoint request s.store.files answer]
        (answer.mapError fun fault => .execution e.backend fault none) { s with outside }

inductive Obtains (b : Backends σ) (o : RunOptions) (step : Step) (shape : Shape) (s : RunState σ) :
    List Event → Except JobError Outcome → RunState σ → Prop
  | reused {name answer store} : reused? o s.store step = some name →
      Act.runFrom s.store (TableStore.load name) = (answer, store) →
      Obtains b o step shape s [.load name answer] ((answer.map .table).mapError .ofStore)
        { s with store }
  | missing {table} : reused? o s.store step = none → step.remoteSource = none →
      s.store.resolve step.localSources = .error table →
      Obtains b o step shape s [] (.error (.dependency table step.ref)) s
  | engine {imports events r t} : reused? o s.store step = none → step.remoteSource = none →
      s.store.resolve step.localSources = .ok imports →
      Asks b s none (.query (s.scope.interpolate step.query) none imports shape) events r t →
      Obtains b o step shape s events r t
  | service {endpoint object events r t} : reused? o s.store step = none →
      step.remoteSource = some (endpoint, object) →
      Asks b s (some endpoint) (.query (s.scope.interpolate step.query) (some object) [] shape)
        events r t →
      Obtains b o step shape s events r t

inductive Applies (b : Backends σ) (outcome : Outcome) (s : RunState σ) :
    Sink → List Event → Except JobError Unit → RunState σ → Prop
  | stored {name cached answer store} : Act.runFrom s.store
      (TableStore.store name outcome.toTable cached) = (answer, store) →
      Applies b outcome s (.localTable name cached) [.store name outcome.toTable cached answer]
        ((answer.map fun _ => ()).mapError .ofStore) { s with store }
  | bound {name} :
      Applies b outcome s (.variable name) [.bind name (outcome.toScalar?.getD "")] (.ok ())
        { s with scope := s.scope.set name (.text (outcome.toScalar?.getD "")) }
  | refused {object op idsTable events e t} :
      Asks b s (some .dst) (.mutate op object outcome.toTable) events (.error e) t →
      Applies b outcome s (.remoteObject object op idsTable) events (.error e) t
  | mutated {object op events answers t} :
      Asks b s (some .dst) (.mutate op object outcome.toTable) events (.ok answers) t →
      Applies b outcome s (.remoteObject object op none) events (.ok ()) t
  | keptIds {object op table events answers t answer store} :
      Asks b s (some .dst) (.mutate op object outcome.toTable) events (.ok answers) t →
      Act.runFrom t.store (TableStore.store table answers.toTable false) = (answer, store) →
      Applies b outcome s (.remoteObject object op (some table))
        (events ++ [.store table answers.toTable false answer])
        ((answer.map fun _ => ()).mapError .ofStore) { t with store }

inductive Pours (b : Backends σ) (outcome : Outcome) :
    RunState σ → List Sink → List Event → Except JobError Unit → RunState σ → Prop
  | done (s) : Pours b outcome s [] [] (.ok ()) s
  | failed {s sink rest events e t} : Applies b outcome s sink events (.error e) t →
      Pours b outcome s (sink :: rest) events (.error e) t
  | next {s sink rest events u events' r t} : Applies b outcome s sink events (.ok ()) u →
      Pours b outcome u rest events' r t → Pours b outcome s (sink :: rest) (events ++ events') r t

inductive Event.OfSink : Event → Prop
  | mutated {op object data files answer} : OfSink
      (.request (some .dst) (.mutate op object data) files answer)
  | stored {name data cached answer} : OfSink (.store name data cached answer)
  | bound {name value} : OfSink (.bind name value)

/-- A step with a query: it comes by its result, is counted, and gives the result to its sinks. -/
inductive Performs (b : Backends σ) (o : RunOptions) (step : Step) (shape : Shape)
    (s : RunState σ) :
    Visit → Except JobError Outcome → RunState σ → Prop
  | withoutResult {events e t} : Obtains b o step shape s events (.error e) t →
      Performs b o step shape s ⟨step, none, events⟩ (.error (e.atStep step)) t
  | withResult {events outcome u events' r t} : Obtains b o step shape s events (.ok outcome) u →
      Pours b outcome { u with steps := u.steps + 1 } step.sinks events' r t →
      Performs b o step shape s ⟨step, some outcome, events ++ events'⟩
        ((r.map fun _ => outcome).mapError (JobError.atStep step)) t

variable {b : Backends σ} {o : RunOptions} {step : Step} {shape : Shape} {s t : RunState σ}
  {outcome : Outcome} {request : Request} {events : List Event} {visit : Visit}

theorem mem_sinks_of_reused? {store : TableStore} {name : String}
    (h : reused? o store step = some name) :
    o.reuseCached = true ∧ .localTable name true ∈ step.sinks ∧ store.reusable name = true := by
  unfold reused? standIn at h
  split at h
  · rename_i ho
    obtain ⟨sink, hsink, hname⟩ := List.exists_of_findSome?_eq_some h
    split at hname
    · split at hname
      · cases hname
        exact ⟨ho, hsink, ‹_›⟩
      · cases hname
    · cases hname
  · cases h

theorem runFrom_onStore {α : Type} (a : StoreAct α) (s : RunState σ) :
    Act.runFrom s (onStore a) =
      ((Act.runFrom s.store a).1.mapError .ofStore,
        { s with store := (Act.runFrom s.store a).2 }) := rfl

theorem runFrom_dispatch (e : Executor σ) (request : Request) (s : RunState σ) :
    Act.runFrom s (dispatch e request) =
      ((Act.runFrom s.outside (e.execute request s.store.files)).1.mapError fun fault =>
        .execution e.backend fault none,
        { s with outside := (Act.runFrom s.outside (e.execute request s.store.files)).2 }) := rfl

theorem Asks.runFrom_engine {r : Except JobError Outcome} (h : Asks b s none request events r t) :
    Act.runFrom s (dispatch b.engine request) = (r, t) := by
  cases h with
  | unconfigured hn => cases hn
  | answered he ha =>
      cases he
      rw [runFrom_dispatch, ha]

theorem Asks.runFrom_service {endpoint : Endpoint} {r : Except JobError Outcome}
    (h : Asks b s (some endpoint) request events r t) :
    Act.runFrom s (remote b endpoint >>= fun e => dispatch e request) = (r, t) := by
  cases h with
  | unconfigured hs hn =>
      cases hs
      rw [remote, hn]
      rfl
  | answered he ha =>
      rw [Backends.executor?] at he
      rw [remote, he, Act.runFrom_bind, Act.runFrom_pure]
      simp only [runFrom_dispatch, ha]

theorem Asks.runFrom_service_bind {α : Type} {endpoint : Endpoint} {r : Except JobError Outcome}
    (h : Asks b s (some endpoint) request events r t) (f : Outcome → Run σ α) :
    Act.runFrom s (remote b endpoint >>= fun e => dispatch e request >>= f) =
      match r with
      | .ok outcome => Act.runFrom t (f outcome)
      | .error e => (.error e, t) := by
  rw [← bind_assoc, Act.runFrom_bind, h.runFrom_service]
  cases r <;> rfl

theorem exists_asks (b : Backends σ) (s : RunState σ) (endpoint : Option Endpoint)
    (request : Request) :
    ∃ events r t, Asks b s endpoint request events r t := by
  cases he : b.executor? endpoint with
  | some e => exact ⟨_, _, _, .answered he rfl⟩
  | none =>
      cases endpoint with
      | none => cases he
      | some service => exact ⟨_, _, _, .unconfigured rfl he⟩

theorem runFrom_dispatchQuery (b : Backends σ) (step : Step) (shape : Shape) (s : RunState σ) :
    Act.runFrom s (dispatchQuery b step shape) =
      match step.remoteSource with
      | some (endpoint, object) => Act.runFrom s (remote b endpoint >>= fun e =>
          dispatch e (.query (s.scope.interpolate step.query) (some object) [] shape))
      | none =>
        match s.store.resolve step.localSources with
        | .ok imports =>
            Act.runFrom s
              (dispatch b.engine (.query (s.scope.interpolate step.query) none imports shape))
        | .error table => (.error (.dependency table step.ref), s) := by
  rw [dispatchQuery, Act.runFrom_bind, Act.runFrom_get]
  cases step.remoteSource with
  | some source => rfl
  | none => cases hi : s.store.resolve step.localSources <;> simp only [hi, Act.runFrom_throw]

theorem runFrom_produce (b : Backends σ) (o : RunOptions) (step : Step) (shape : Shape)
    (s : RunState σ) :
    Act.runFrom s (produce b o step shape) =
      match reused? o s.store step with
      | some name =>
          Act.runFrom s (onStore (TableStore.load name) >>= fun table => pure (.table table))
      | none => Act.runFrom s (dispatchQuery b step shape) := by
  rw [produce, Act.runFrom_bind, Act.runFrom_get, reused?]
  dsimp only
  cases (if o.reuseCached then standIn s.store step else none) <;> rfl

theorem Obtains.runFrom_produce {r : Except JobError Outcome}
    (h : Obtains b o step shape s events r t) :
    Act.runFrom s (produce b o step shape) = (r, t) := by
  rw [Run.runFrom_produce]
  cases h with
  | @reused name answer store hr ha =>
      simp only [hr, Act.runFrom_bind, runFrom_onStore, ha]
      cases answer <;> rfl
  | missing hr hs hm => simp only [hr, runFrom_dispatchQuery, hs, hm]
  | engine hr hs hi ha => simp only [hr, runFrom_dispatchQuery, hs, hi, ha.runFrom_engine]
  | service hr hs ha => simp only [hr, runFrom_dispatchQuery, hs, ha.runFrom_service]

theorem exists_obtains (b : Backends σ) (o : RunOptions) (step : Step) (shape : Shape)
    (s : RunState σ) :
    ∃ events r t, Obtains b o step shape s events r t := by
  cases hr : reused? o s.store step with
  | some name => exact ⟨_, _, _, .reused hr rfl⟩
  | none =>
      cases hs : step.remoteSource with
      | some source =>
          obtain ⟨events, r, t, ha⟩ := exists_asks b s (some source.1)
            (.query (s.scope.interpolate step.query) (some source.2) [] shape)
          exact ⟨events, r, t, .service hr hs ha⟩
      | none =>
          cases hi : s.store.resolve step.localSources with
          | error table => exact ⟨_, _, _, .missing hr hs hi⟩
          | ok imports =>
              obtain ⟨events, r, t, ha⟩ := exists_asks b s none
                (.query (s.scope.interpolate step.query) none imports shape)
              exact ⟨events, r, t, .engine hr hs hi ha⟩

theorem Applies.runFrom_applySink {sink : Sink} {r : Except JobError Unit}
    (h : Applies b outcome s sink events r t) :
    Act.runFrom s (applySink b outcome sink) = (r, t) := by
  cases h with
  | @stored name cached answer store ha =>
      simp only [applySink, Act.runFrom_bind, runFrom_onStore, ha]
      cases answer <;> rfl
  | bound => rfl
  | refused ha => rw [applySink, ha.runFrom_service_bind]
  | mutated ha =>
      rw [applySink, ha.runFrom_service_bind]
      rfl
  | @keptIds object op table events answers t answer store ha hstore =>
      rw [applySink, ha.runFrom_service_bind]
      simp only [Act.runFrom_bind, runFrom_onStore, hstore]
      cases answer <;> rfl

theorem exists_applies (b : Backends σ) (outcome : Outcome) (s : RunState σ) (sink : Sink) :
    ∃ events r t, Applies b outcome s sink events r t := by
  rcases sink with ⟨name, cached⟩ | name | ⟨object, op, idsTable⟩
  · exact ⟨_, _, _, .stored rfl⟩
  · exact ⟨_, _, _, .bound⟩
  · obtain ⟨events, r, t, ha⟩ := exists_asks b s (some .dst) (.mutate op object outcome.toTable)
    cases r with
    | error e => exact ⟨_, _, _, .refused ha⟩
    | ok answers =>
        cases idsTable with
        | none => exact ⟨_, _, _, .mutated ha⟩
        | some table => exact ⟨_, _, _, .keptIds ha rfl⟩

theorem Pours.runFrom_forM {sinks : List Sink} {r : Except JobError Unit}
    (h : Pours b outcome s sinks events r t) :
    Act.runFrom s (sinks.forM (applySink b outcome)) = (r, t) := by
  induction h with
  | done => rfl
  | failed ha => rw [List.forM_eq_forM, List.forM_cons, Act.runFrom_bind, ha.runFrom_applySink]
  | next ha _ ih =>
      rw [List.forM_eq_forM, List.forM_cons, Act.runFrom_bind, ha.runFrom_applySink]
      exact ih

theorem exists_pours (b : Backends σ) (outcome : Outcome) (s : RunState σ) (sinks : List Sink) :
    ∃ events r t, Pours b outcome s sinks events r t := by
  induction sinks generalizing s with
  | nil => exact ⟨_, _, _, .done s⟩
  | cons sink rest ih =>
      obtain ⟨events, r, u, ha⟩ := exists_applies b outcome s sink
      cases r with
      | error e => exact ⟨_, _, _, .failed ha⟩
      | ok =>
          obtain ⟨events', r, t, hp⟩ := ih u
          exact ⟨_, _, _, .next ha hp⟩

theorem Asks.ofSink {op : MutationOp} {object : String} {data : Table} {r : Except JobError Outcome}
    (h : Asks b s (some .dst) (.mutate op object data) events r t) :
    ∀ event ∈ events, event.OfSink := by
  cases h with
  | unconfigured => exact List.forall_mem_nil _
  | answered =>
      intro event he
      rw [List.mem_singleton.mp he]
      exact .mutated

theorem Applies.ofSink {sink : Sink} {r : Except JobError Unit}
    (h : Applies b outcome s sink events r t) :
    ∀ event ∈ events, event.OfSink := by
  intro event he
  cases h with
  | stored =>
      rw [List.mem_singleton.mp he]
      exact .stored
  | bound =>
      rw [List.mem_singleton.mp he]
      exact .bound
  | refused ha | mutated ha => exact ha.ofSink event he
  | keptIds ha =>
      rcases List.mem_append.mp he with he | he
      · exact ha.ofSink event he
      · rw [List.mem_singleton.mp he]
        exact .stored

theorem Pours.ofSink {sinks : List Sink} {r : Except JobError Unit}
    (h : Pours b outcome s sinks events r t) :
    ∀ event ∈ events, event.OfSink := by
  induction h with
  | done => exact List.forall_mem_nil _
  | failed ha => exact ha.ofSink
  | next ha _ ih =>
      intro event he
      rcases List.mem_append.mp he with he | he
      · exact ha.ofSink event he
      · exact ih event he

theorem Performs.runFrom_runQuery {r : Except JobError Outcome}
    (h : Performs b o step shape s visit r t) :
    Act.runFrom s (runQuery b o step shape) = (r, t) := by
  simp only [runQuery, Act.mapError, Act.runFrom_ofFun, Act.runFrom_bind]
  cases h with
  | withoutResult ho =>
    simp only [ho.runFrom_produce]
    rfl
  | @withResult _ outcome u _ r _ ho hp =>
      simp only [ho.runFrom_produce, Act.runFrom_modify, hp.runFrom_forM]
      cases r <;> rfl

theorem exists_performs (b : Backends σ) (o : RunOptions) (step : Step) (shape : Shape)
    (s : RunState σ) :
    ∃ visit r t, Performs b o step shape s visit r t := by
  obtain ⟨events, r, u, ho⟩ := exists_obtains b o step shape s
  cases r with
  | error e => exact ⟨_, _, _, .withoutResult ho⟩
  | ok outcome =>
      obtain ⟨events', r, t, hp⟩ :=
        exists_pours b outcome { u with steps := u.steps + 1 } step.sinks
      exact ⟨_, _, _, .withResult ho hp⟩

variable {o' : RunOptions} {t' : RunState σ} {events' : List Event} {visit' : Visit}

theorem Asks.unique {endpoint : Option Endpoint} {request : Request}
    {r r' : Except JobError Outcome} (h : Asks b s endpoint request events r t)
    (h' : Asks b s endpoint request events' r' t') :
    events = events' ∧ r = r' ∧ t = t' := by
  cases h with
  | unconfigured he hn =>
      cases h' with
      | unconfigured he' =>
          cases he.symm.trans he'
          exact ⟨rfl, rfl, rfl⟩
      | answered hx =>
          subst he
          rw [Backends.executor?, hn] at hx
          cases hx
  | answered hx ha =>
      cases h' with
      | unconfigured he hn =>
          subst he
          rw [Backends.executor?, hn] at hx
          cases hx
      | answered hx' ha' =>
          cases hx.symm.trans hx'
          cases ha.symm.trans ha'
          exact ⟨rfl, rfl, rfl⟩

theorem Obtains.unique {r r' : Except JobError Outcome} (h : Obtains b o step shape s events r t)
    (h' : Obtains b o' step shape s events' r' t')
    (hreuse : reused? o s.store step = reused? o' s.store step) :
    events = events' ∧ r = r' ∧ t = t' := by
  cases h with
  | reused hn ha =>
      rw [hn] at hreuse
      cases h' with
      | reused hn' ha' =>
          cases hreuse.trans hn'
          cases ha.symm.trans ha'
          exact ⟨rfl, rfl, rfl⟩
      | missing hn' | engine hn' | service hn' => cases hreuse.trans hn'
  | missing hn hs hi =>
      rw [hn] at hreuse
      cases h' with
      | reused hn' => cases hreuse.trans hn'
      | missing _ _ hi' =>
          cases hi.symm.trans hi'
          exact ⟨rfl, rfl, rfl⟩
      | engine _ _ hi' => cases hi.symm.trans hi'
      | service _ hs' => cases hs.symm.trans hs'
  | engine hn hs hi ha =>
      rw [hn] at hreuse
      cases h' with
      | reused hn' => cases hreuse.trans hn'
      | missing _ _ hi' => cases hi.symm.trans hi'
      | engine _ _ hi' ha' =>
          cases hi.symm.trans hi'
          exact ha.unique ha'
      | service _ hs' => cases hs.symm.trans hs'
  | service hn hs ha =>
      rw [hn] at hreuse
      cases h' with
      | reused hn' => cases hreuse.trans hn'
      | missing _ hs' | engine _ hs' => cases hs.symm.trans hs'
      | service _ hs' ha' =>
          cases hs.symm.trans hs'
          exact ha.unique ha'

theorem Applies.unique {sink : Sink} {r r' : Except JobError Unit}
    (h : Applies b outcome s sink events r t) (h' : Applies b outcome s sink events' r' t') :
    events = events' ∧ r = r' ∧ t = t' := by
  cases h with
  | stored ha =>
      cases h' with
      | stored ha' =>
          cases ha.symm.trans ha'
          exact ⟨rfl, rfl, rfl⟩
  | bound =>
      cases h'
      exact ⟨rfl, rfl, rfl⟩
  | refused ha =>
      cases h' with
      | refused ha' =>
          obtain ⟨rfl, he, rfl⟩ := ha.unique ha'
          cases he
          exact ⟨rfl, rfl, rfl⟩
      | mutated ha' | keptIds ha' => cases (ha.unique ha').2.1
  | mutated ha =>
      cases h' with
      | refused ha' => cases (ha.unique ha').2.1
      | mutated ha' =>
          obtain ⟨rfl, _, rfl⟩ := ha.unique ha'
          exact ⟨rfl, rfl, rfl⟩
  | keptIds ha hs =>
      cases h' with
      | refused ha' => cases (ha.unique ha').2.1
      | keptIds ha' hs' =>
          obtain ⟨rfl, he, rfl⟩ := ha.unique ha'
          cases he
          cases hs.symm.trans hs'
          exact ⟨rfl, rfl, rfl⟩

theorem Pours.unique {sinks : List Sink} {r r' : Except JobError Unit}
    (h : Pours b outcome s sinks events r t) (h' : Pours b outcome s sinks events' r' t') :
    events = events' ∧ r = r' ∧ t = t' := by
  induction h generalizing events' with
  | done =>
      cases h'
      exact ⟨rfl, rfl, rfl⟩
  | failed ha =>
      cases h' with
      | failed ha' =>
          obtain ⟨rfl, he, rfl⟩ := ha.unique ha'
          cases he
          exact ⟨rfl, rfl, rfl⟩
      | next ha' => cases (ha.unique ha').2.1
  | next ha _ ih =>
      cases h' with
      | failed ha' => cases (ha.unique ha').2.1
      | next ha' hp' =>
          obtain ⟨rfl, _, rfl⟩ := ha.unique ha'
          obtain ⟨rfl, rfl, rfl⟩ := ih hp'
          exact ⟨rfl, rfl, rfl⟩

theorem Performs.unique {r r' : Except JobError Outcome} (h : Performs b o step shape s visit r t)
    (h' : Performs b o' step shape s visit' r' t')
    (hreuse : reused? o s.store step = reused? o' s.store step) :
    visit = visit' ∧ r = r' ∧ t = t' := by
  cases h with
  | withoutResult ho =>
      cases h' with
      | withoutResult ho' =>
          obtain ⟨rfl, he, rfl⟩ := ho.unique ho' hreuse
          cases he
          exact ⟨rfl, rfl, rfl⟩
      | withResult ho' => cases (ho.unique ho' hreuse).2.1
  | withResult ho hp =>
      cases h' with
      | withoutResult ho' => cases (ho.unique ho' hreuse).2.1
      | withResult ho' hp' =>
          obtain ⟨rfl, he, rfl⟩ := ho.unique ho' hreuse
          cases he
          obtain ⟨rfl, rfl, rfl⟩ := hp.unique hp'
          exact ⟨rfl, rfl, rfl⟩

end Run
end TableFlow
