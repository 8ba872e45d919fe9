import TableFlow.Bulk.Executor
import TableFlow.Proofs.Run.Agenda
import TableFlow.Proofs.Run.Dependencies
import TableFlow.Rehearsal.Service

namespace TableFlow

/-- An executor answers a query with the same table in both shapes, with all of it or with its
first value. -/
structure Executor.Answers {σ : Type} (e : Executor σ) (s : σ) (sql : String)
    (object : Option String) (imports : List (String × Path)) (files : FileTree) (data : Table) :
    Prop where
  table : ∃ t, Act.runFrom s (e.execute (.query sql object imports .table) files) =
    (.ok (.table data), t)
  scalar : ∃ t, Act.runFrom s (e.execute (.query sql object imports .scalar) files) =
    (.ok (.scalar ((Outcome.table data).toScalar?.getD "")), t)

/-- An engine prints a table for a query, with its header or without it as the script wants it. -/
def Engine.Prints {σ : Type} (engine : Engine σ) (s : σ) (sql : String)
    (imports : List (String × Path)) (files : FileTree) (data : Table) : Prop :=
  ∀ headers, ∃ stderr t, Act.runFrom s (engine.run { imports, headers, query := sql } files) =
    (.ok { stdout := if headers then data.toCsv else data.rowsToCsv, stderr }, t)

variable {σ : Type} {sql : String} {object : Option String} {imports : List (String × Path)}
  {files : FileTree} {data : Table} {shape : Shape}

theorem Executor.Answers.ofTable {e : Executor σ} {s : σ}
    (h : e.Answers s sql object imports files data) (shape : Shape) :
    ∃ t, Act.runFrom s (e.execute (.query sql object imports shape) files) =
      (.ok (.ofTable shape data), t) := by
  cases shape with
  | table => exact h.table
  | scalar => exact h.scalar

theorem Executor.Answers.focus {τ : Type} {get : σ → τ} {set : τ → σ → σ} {e : Executor τ} {s : σ}
    (h : e.Answers (get s) sql object imports files data) :
    (e.focus get set).Answers s sql object imports files data := by
  have hfocus {request : Request} {outcome : Outcome}
      (hrun : ∃ t, Act.runFrom (get s) (e.execute request files) = (.ok outcome, t)) :
      ∃ t, Act.runFrom s ((e.focus get set).execute request files) = (.ok outcome, t) := by
    obtain ⟨t, hrun⟩ := hrun
    refine ⟨set t s, ?_⟩
    simp only [Executor.focus, Act.focus, Act.runFrom_ofFun, hrun]
  exact ⟨hfocus h.table, hfocus h.scalar⟩

theorem Engine.runFrom_execute {engine : Engine σ} {s t : σ} {output : EngineOutput}
    (h : Act.runFrom s (engine.run { imports, headers := shape == .table, query := sql } files) =
      (.ok output, t)) :
    Act.runFrom s (engine.executor.execute (.query sql object imports shape) files) =
      (Engine.readOutput shape output, t) := by
  have hrun : Act.runFrom s
      ((engine.run { imports, headers := shape == .table, query := sql } files).mapError
      (ExecutionFault.cannotStart engine.name)) = (.ok output, t) := by
    rw [Act.mapError, Act.runFrom_ofFun, h]
    rfl
  have hread : Act.runFrom t (Act.ofExcept (Engine.readOutput shape output)) =
      (Engine.readOutput shape output, t) := by
    cases Engine.readOutput shape output <;> rfl
  simp only [Engine.executor, Act.runFrom_bind, hrun, hread]

theorem Engine.readOutput_table (hcolumns : data.fields ≠ []) (stderr : String) :
    Engine.readOutput .table { stdout := data.toCsv, stderr } = .ok (.table data) := by
  simp only [Engine.readOutput, ne_eq, not_true_eq_false, if_false, Table.ofCsv_toCsv hcolumns]
  rfl

theorem Engine.readOutput_scalar (hcolumns : data.fields ≠ []) (stderr : String) :
    Engine.readOutput .scalar { stdout := data.rowsToCsv, stderr } =
      .ok (.scalar ((Outcome.table data).toScalar?.getD "")) := by
  simp only [Engine.readOutput, ne_eq, not_true_eq_false, if_false,
    Table.parseRecords_rowsToCsv hcolumns]
  rfl

theorem Engine.Prints.answers {engine : Engine σ} {s : σ}
    (h : engine.Prints s sql imports files data) (hcolumns : data.fields ≠ [])
    (object : Option String) : engine.executor.Answers s sql object imports files data := by
  constructor
  · obtain ⟨stderr, t, hrun⟩ := h true
    rw [Engine.runFrom_execute hrun]
    exact ⟨t, by rw [← Engine.readOutput_table hcolumns stderr]; rfl⟩
  · obtain ⟨stderr, t, hrun⟩ := h false
    rw [Engine.runFrom_execute hrun]
    exact ⟨t, by rw [← Engine.readOutput_scalar hcolumns stderr]; rfl⟩

namespace Bulk

variable {τ : Type} (t : Transport τ) (settings : Settings)

/-- A query is the same exchange in both shapes. They tell only what of its table is given. -/
theorem Connection.exists_runFrom_query (c : Connection τ) (sql object : String) :
    ∃ r c', ∀ shape, Act.runFrom c (Connection.query t settings sql object shape) =
      (Except.map (Outcome.ofTable shape) r, c') := by
  simp only [Connection.query, Act.runFrom_bind]
  cases Act.runFrom c (Connection.runJob t settings .query object [sql]) with
  | mk r c => 
    cases r with
    | error e => exact ⟨.error e, c, fun _ => rfl⟩
    | ok submitted =>
      dsimp only
      cases Act.runFrom c (submitted.2.mapM (Connection.fetchChunks t settings submitted.1)) with
      | mk r c =>
        cases r with
        | error e => exact ⟨.error e, c, fun _ => rfl⟩
        | ok parts =>
          dsimp only
          cases (Table.concat (parts.flatten.filterMap id)).mapError
            ExecutionFault.mixedResults with
          | error e => exact ⟨.error e, c, fun _ => rfl⟩
          | ok data => exact ⟨.ok data, c, fun _ => rfl⟩

theorem answers_of_execute {endpoint : Endpoint} {c c' : Connection τ} {outcome : Outcome}
    (h : Act.runFrom c
      ((executor endpoint t settings).execute (.query sql object imports shape) files) =
        (.ok outcome, c')) :
    ∃ data, outcome = .ofTable shape data ∧
      (executor endpoint t settings).Answers c sql object imports files data := by
  cases object with
  | none => cases h
  | some object =>
      obtain ⟨r, c'', hquery⟩ := Connection.exists_runFrom_query t settings c sql object
      have hexecute (shape : Shape) : Act.runFrom c
          ((executor endpoint t settings).execute (.query sql (some object) imports shape) files) =
          (r.map (Outcome.ofTable shape), c'') := hquery shape
      rw [hexecute] at h
      cases r with
      | error e => cases h
      | ok data =>
          cases h
          exact ⟨data, rfl, ⟨c', hexecute .table⟩, ⟨c', hexecute .scalar⟩⟩

end Bulk

namespace Run

inductive Sends (b : Backends σ) (s : RunState σ) (step : Step) :
    Executor σ → Option String → List (String × Path) → Prop
  | engine {tables} : step.remoteSource = none → s.store.resolve step.localSources = .ok tables →
      Sends b s step b.engine none tables
  | service {endpoint source e} : step.remoteSource = some (endpoint, source) →
      b.remote endpoint = some e →
      Sends b s step e (some source) []

/-- A step that only sets a variable, and another with the same query that sets it among other
sinks. -/
structure Widens (name : String) (step wider : Step) : Prop where
  query : wider.query = step.query
  remoteSource : wider.remoteSource = step.remoteSource
  localSources : wider.localSources = step.localSources
  sinks : step.sinks = [.variable name]
  wantsScalar : step.wantsScalar = true
  sets : .variable name ∈ wider.sinks
  wantsTable : wider.wantsScalar = false

variable {b : Backends σ} {o : RunOptions} {s t u : RunState σ} {step wider : Step}
  {outcome : Outcome} {sink : Sink} {sinks : List Sink} {events events' : List Event}
  {name : String} {e : Executor σ} {r : Except JobError Unit}

theorem Sends.obtains (h : Sends b s step e object imports) (hr : reused? o s.store step = none)
    (ha : e.Answers s.outside (s.scope.interpolate step.query) object imports s.store.files data)
    (shape : Shape) :
    ∃ events u, Obtains b o step shape s events (.ok (.ofTable shape data)) u ∧
      u.scope = s.scope := by
  obtain ⟨outside, hexecute⟩ := ha.ofTable shape
  cases h with
  | engine hs hi => exact ⟨_, { s with outside }, .engine hr hs hi (.answered rfl hexecute), rfl⟩
  | @service endpoint _ _ hs he =>
      have hexecutor : b.executor? (some endpoint) = some e := he
      exact ⟨_, { s with outside }, .service hr hs (.answered hexecutor hexecute), rfl⟩

theorem Widens.sends (h : Widens name step wider) (hsends : Sends b s step e object imports) :
    Sends b s wider e object imports := by
  cases hsends with
  | engine hs hi => exact .engine (h.remoteSource.trans hs) (by rw [h.localSources]; exact hi)
  | service hs he => exact .service (h.remoteSource.trans hs) he

theorem Asks.scope_eq {endpoint : Option Endpoint} {request : Request} {r : Except JobError Outcome}
    (h : Asks b s endpoint request events r t) : t.scope = s.scope := by
  cases h <;> rfl

theorem Applies.scope_cases (h : Applies b outcome s sink events r t) (name : String) :
    t.scope.get? name = some (.text (outcome.toScalar?.getD "")) ∨
      t.scope.get? name = s.scope.get? name ∧ sink ≠ .variable name := by
  cases h with
  | stored => exact .inr ⟨rfl, nofun⟩
  | @bound other =>
      rw [Scope.get?_set]
      by_cases hname : name = other
      · rw [if_pos hname]
        exact .inl rfl
      · rw [if_neg hname]
        exact .inr ⟨rfl, fun hsink => hname (Sink.variable.inj hsink).symm⟩
  | refused ha | mutated ha | keptIds ha =>
      exact .inr ⟨congrArg (Scope.get? · name) ha.scope_eq, nofun⟩

theorem Pours.scope_cases (h : Pours b outcome s sinks events r t) (name : String) :
    t.scope.get? name = some (.text (outcome.toScalar?.getD "")) ∨
      t.scope.get? name = s.scope.get? name ∧ (r = .ok () → .variable name ∉ sinks) := by
  induction h with
  | done => exact .inr ⟨rfl, fun _ => List.not_mem_nil⟩
  | failed ha =>
      obtain hset | ⟨hkept, _⟩ := ha.scope_cases name
      · exact .inl hset
      · exact .inr ⟨hkept, nofun⟩
  | next ha _ ih =>
      obtain hset | ⟨hkept, hnone⟩ := ih
      · exact .inl hset
      · obtain hset | ⟨hsame, hsink⟩ := ha.scope_cases name
        · exact .inl (hkept.trans hset)
        · exact .inr ⟨hkept.trans hsame, fun hr =>
            List.not_mem_cons_of_ne_of_not_mem hsink.symm (hnone hr)⟩

theorem pours_variable (b : Backends σ) (outcome : Outcome) (s : RunState σ) (name : String) :
    Pours b outcome s [.variable name] [.bind name (outcome.toScalar?.getD "")] (.ok ())
      { s with scope := s.scope.set name (.text (outcome.toScalar?.getD "")) } :=
        .next .bound (.done _)

theorem runFrom_leaf (hq : step.hasQuery = true)
    (ho : Obtains b o step (StepNode.leaf step).shape s events (.ok outcome) u)
    (hp : Pours b outcome { u with steps := u.steps + 1 } step.sinks events' r t) :
    Act.runFrom s (runNode b o (.leaf step)) = (r.mapError (JobError.atStep step), t) := by
  have hstep := (Performs.withResult ho hp).runFrom_runQuery
  rw [StepNode.shape] at hstep
  rw [runNode, Act.runFrom_bind, runStep, if_pos hq, map_eq_pure_bind, Act.runFrom_bind, hstep]
  cases r <;> rfl

/-- With an executor that answers in both shapes alike, a step sets its variable as it would
with more sinks beside it. -/
theorem Widens.binds (h : Widens name step wider) (hq : step.hasQuery = true)
    (hsends : Sends b s step e object imports) (hr : reused? o s.store wider = none)
    (ha : e.Answers s.outside (s.scope.interpolate step.query) object imports s.store.files data) :
    (∃ t, Act.runFrom s (runNode b o (.leaf step)) = (.ok (), t) ∧
        t.scope = s.scope.set name (.text ((Outcome.table data).toScalar?.getD ""))) ∧
      ∀ r t, Act.runFrom s (runNode b o (.leaf wider)) = (r, t) →
        t.scope.get? name = some (.text ((Outcome.table data).toScalar?.getD "")) ∨
          r ≠ .ok () ∧ t.scope.get? name = s.scope.get? name := by
  constructor
  · -- No table can stand in for a step that stores none.
    have hnone : reused? o s.store step = none := by
      cases hreused : reused? o s.store step with
      | none => rfl
      | some other =>
          have hother := (mem_sinks_of_reused? hreused).2.1
          rw [h.sinks] at hother
          simp at hother
    obtain ⟨events, u, hobtains, hscope⟩ := hsends.obtains hnone ha .scalar
    have hshape : (StepNode.leaf step).shape = .scalar := if_pos h.wantsScalar
    rw [← hshape] at hobtains
    have hpours :=
      pours_variable b (.ofTable (StepNode.leaf step).shape data)
        { u with steps := u.steps + 1 } name
    rw [← h.sinks] at hpours
    refine ⟨_, runFrom_leaf hq hobtains hpours, ?_⟩
    rw [hshape, ← hscope]
    rfl
  · intro r t hrun
    obtain ⟨events, u, hobtains, hscope⟩ :=
      (h.sends hsends).obtains hr (by rw [h.query]; exact ha) .table
    have hshape : (StepNode.leaf wider).shape = .table := if_neg (by simp [h.wantsTable])
    rw [← hshape] at hobtains
    obtain ⟨events', r', t', hpours⟩ := exists_pours b (.ofTable (StepNode.leaf wider).shape data)
      { u with steps := u.steps + 1 } wider.sinks
    rw [runFrom_leaf (by rw [Step.hasQuery, h.query]; exact hq) hobtains hpours] at hrun
    cases hrun
    rw [hshape] at hpours
    obtain hset | ⟨hkept, hnone⟩ := hpours.scope_cases name
    · exact .inl hset
    · refine .inr ⟨fun hok => ?_, hkept.trans (congrArg (Scope.get? · name) hscope)⟩
      cases r' with
      | ok => exact hnone rfl h.sets
      | error e => cases hok

/-- A query that is asked for one value alone gives the first value of its table. It does so
from an engine that prints what it is told to, from a service with whatever it replies, and in
the variable of a step. -/
theorem scalar_agrees_with_table :
    (∀ (σ : Type) (engine : Engine σ) (s : σ) (sql : String) (object : Option String)
        (imports : List (String × Path)) (files : FileTree) (data : Table),
        data.fields ≠ [] → engine.Prints s sql imports files data →
        engine.executor.Answers s sql object imports files data) ∧
      (∀ (τ : Type) (t : Bulk.Transport τ) (settings : Bulk.Settings) (endpoint : Endpoint)
        (c c' : Bulk.Connection τ) (sql : String) (object : Option String)
        (imports : List (String × Path)) (files : FileTree) (shape : Shape) (outcome : Outcome),
        Act.runFrom c ((Bulk.executor endpoint t settings).execute (.query sql object imports shape)
          files) = (.ok outcome, c') →
        ∃ data, outcome = .ofTable shape data ∧
          (Bulk.executor endpoint t settings).Answers c sql object imports files data ∧
          ∀ (σ : Type) (get : σ → Bulk.Connection τ) (set : Bulk.Connection τ → σ → σ) (s : σ),
            get s = c →
            ((Bulk.executor endpoint t settings).focus get set).Answers s sql object imports files
              data) ∧
      ∀ (σ : Type) (b : Backends σ) (o : RunOptions) (s : RunState σ) (step wider : Step)
        (name : String) (e : Executor σ) (object : Option String) (imports : List (String × Path))
        (data : Table),
        Widens name step wider → step.hasQuery = true → Sends b s step e object imports →
        reused? o s.store wider = none →
        e.Answers s.outside (s.scope.interpolate step.query) object imports s.store.files data →
        (∃ t, Act.runFrom s (runNode b o (.leaf step)) = (.ok (), t) ∧
            t.scope = s.scope.set name (.text ((Outcome.table data).toScalar?.getD ""))) ∧
          ∀ r t, Act.runFrom s (runNode b o (.leaf wider)) = (r, t) →
            t.scope.get? name = some (.text ((Outcome.table data).toScalar?.getD "")) ∨
              r ≠ .ok () ∧ t.scope.get? name = s.scope.get? name := by
  refine ⟨fun σ engine s sql object imports files data hcolumns hprints =>
    hprints.answers hcolumns object, ?_, ?_⟩
  · intro τ t settings endpoint c c' sql object imports files shape outcome h
    obtain ⟨data, houtcome, ha⟩ := Bulk.answers_of_execute t settings h
    refine ⟨data, houtcome, ha, fun σ get set s hs => ?_⟩
    subst hs
    exact ha.focus
  · intro σ b o s step wider name e object imports data hwidens hq hsends hr ha
    exact hwidens.binds hq hsends hr ha

def spreadTable : Table := ⟨["a"], [["x\r\n\"y\""], [""]], by decide, by decide⟩

def spreadFiles : FileTree :=
  FileTree.empty.place (.ofString "data/t.csv") (.text spreadTable.toCsv)

def spreadStart : RunState Rehearsal :=
  { store := { files := spreadFiles, dir := .ofString "data",
               tables := Std.ExtTreeMap.insert ∅ "t" { cached := true, produced := false } },
    scope := .empty, outside := { engine := [.dump "t"] } }

def spreadStep : Step :=
  { line := 1, query := "SELECT a FROM t", sinks := [.variable "x"],
    source := some (.localTables ["t"]) }

def spreadWider : Step := { spreadStep with sinks := [.localTable "u" false, .variable "x"] }

theorem widens_spread : Widens "x" spreadStep spreadWider where
  query := rfl
  remoteSource := rfl
  localSources := rfl
  sinks := rfl
  wantsScalar := rfl
  sets := List.mem_cons_of_mem _ List.mem_cons_self
  wantsTable := rfl

theorem prints_spread (sql : String) :
    Rehearsal.localEngine.Prints spreadStart.outside sql [("t", .ofString "data/t.csv")]
      spreadStart.store.files
      spreadTable := by
  have hread : spreadStart.store.files.read (.ofString "data/t.csv") = .ok spreadTable.toCsv :=
    eq_ok_of_toOption (by decide +kernel)
  have hcsv : Table.ofCsv spreadTable.toCsv = .ok spreadTable := Table.ofCsv_toCsv (by decide)
  intro headers
  have hdump : Rehearsal.dumpTable { imports := [("t", .ofString "data/t.csv")], headers,
                                     query := sql }
      spreadStart.store.files "t" =
      .ok { stdout := if headers then spreadTable.toCsv else spreadTable.rowsToCsv } := by
    simp [Rehearsal.dumpTable, hread, hcsv, Rehearsal.printed, bind, Except.bind]
  exact ⟨"", _, Prod.ext hdump rfl⟩

def oneAccount : Bulk.Connection Rehearsal.Listened :=
  { service := ⟨{ replies := [.ok { session := "s" }, .ok { id := "j" },
    .ok { id := "x", state := "Completed" }, .ok { id := "j" }, .ok { ids := ["r"] },
    .ok { text := "Id,Name\n1,a\n" }] }, []⟩ }

theorem scalar_agrees_with_table_spread :
    let imports := [("t", Path.ofString "data/t.csv")]
    let remote := Bulk.executor .src (Rehearsal.transport .src) {}
    let query := Request.query "SELECT Id FROM Account" (some "Account") [] .scalar
    spreadTable.fields ≠ [] ∧ Rehearsal.localEngine.Prints spreadStart.outside "SELECT a FROM t"
      imports spreadStart.store.files
        spreadTable ∧
      Rehearsal.localEngine.executor.Answers spreadStart.outside "SELECT a FROM t" none imports
        spreadStart.store.files
        spreadTable ∧
      (∃ c', Act.runFrom oneAccount (remote.execute query .empty) = (.ok (.scalar "1"), c')) ∧
      (∃ data, Outcome.scalar "1" = .ofTable .scalar data ∧
        remote.Answers oneAccount "SELECT Id FROM Account" (some "Account") [] .empty data) ∧
      Widens "x" spreadStep spreadWider ∧ spreadStep.hasQuery = true ∧
      Sends engineOnly spreadStart spreadStep engineOnly.engine none imports ∧
      reused? {} spreadStart.store spreadWider = none ∧
      (∃ t, Act.runFrom spreadStart (runNode engineOnly {} (.leaf spreadStep)) = (.ok (), t) ∧
        t.scope = Scope.empty.set "x" (.text "x\r\n\"y\"")) ∧
      (Act.runFrom spreadStart (runNode engineOnly {} (.leaf spreadWider))).1 = .ok () ∧
      (Act.runFrom spreadStart (runNode engineOnly {} (.leaf spreadWider))).2.scope.get? "x" =
        some (.text "x\r\n\"y\"") := by
  intro imports remote query
  obtain ⟨hlocal, hremote, hsteps⟩ := scalar_agrees_with_table
  have hcolumns : spreadTable.fields ≠ [] := by decide
  have hanswers (sql : String) : Rehearsal.localEngine.executor.Answers spreadStart.outside sql none
      imports spreadStart.store.files spreadTable :=
    hlocal _ _ _ _ _ _ _ _ hcolumns (prints_spread sql)
  have hquery : (Act.runFrom oneAccount (remote.execute query .empty)).1 = .ok (.scalar "1") :=
    eq_ok_of_toOption (by decide +kernel)
  have hrun : Act.runFrom oneAccount (remote.execute query .empty) = (.ok (.scalar "1"), _) :=
    Prod.ext hquery rfl
  obtain ⟨data, hdata, haccount, _⟩ := hremote _ _ _ _ _ _ _ _ _ _ _ _ hrun
  have hsends : Sends engineOnly spreadStart spreadStep engineOnly.engine none imports :=
    .engine rfl (eq_ok_of_toOption (by decide +kernel))
  have hwider : (Act.runFrom spreadStart (runNode engineOnly {} (.leaf spreadWider))).1 = .ok () :=
    eq_ok_of_toOption (by decide +kernel)
  have hengine : engineOnly.engine.Answers spreadStart.outside
      (spreadStart.scope.interpolate spreadStep.query) none imports
      spreadStart.store.files spreadTable := hanswers _
  obtain ⟨hstep, hbinds⟩ :=
    hsteps _ engineOnly {} spreadStart spreadStep spreadWider "x" _ none imports spreadTable
      widens_spread (by decide) hsends rfl hengine
  refine ⟨hcolumns, prints_spread _, hanswers _, ⟨_, hrun⟩, ⟨data, hdata, haccount⟩,
    widens_spread, by decide, hsends, rfl,
    hstep, hwider, ?_⟩
  generalize Act.runFrom spreadStart (runNode engineOnly {} (.leaf spreadWider)) =
    ended at hbinds hwider
  obtain hset | ⟨hfails, _⟩ := hbinds ended.1 ended.2 rfl
  · exact hset
  · exact absurd hwider hfails

end Run
end TableFlow
