import TableFlow.Proofs.Run.Dependencies
import TableFlow.Proofs.Run.Failure
import TableFlow.Proofs.Run.Record

namespace TableFlow.Run

open TableStore

/-- A walk that has failed. It was at the first step of a node, at any depth of loops, when that
step, after all that it and the steps before it have done, fails with one operation. The walk ends
in the state that this operation leaves, with the scope that is then around all iterations. -/
inductive Stops {σ : Type} (b : Backends σ) (o : RunOptions) (tasks : List Task) (s : RunState σ) :
    List Event → Step → List Event → JobError → List (String × Table) → RunState σ → Prop
  | intro {done node rest u result begun failing e written v} :
      Reaches b o tasks s done (.node node :: rest) u → node.first.hasQuery = true →
      Performs b o node.first node.shape u ⟨node.first, result, begun ++ failing⟩ (.error e) v →
      Ends b node.first s.store (done.flatMap Visit.events ++ begun) failing e written v.store →
      Stops b o tasks s (done.flatMap Visit.events ++ begun) node.first failing e written
        { v with scope := outermost rest v.scope }

variable {σ : Type} {b : Backends σ} {o : RunOptions} {tasks : List Task} {s t : RunState σ}
  {visits : List Visit} {past failing : List Event} {step : Step} {e : JobError}
  {written : List (String × Table)}

theorem Walks.exists_stops (h : Walks b o tasks s visits (.error e) t) :
    ∃ past step failing written, visits.flatMap Visit.events = past ++ failing ∧
      Stops b o tasks s past step failing e written t := by
  obtain ⟨done, visit, node, rest, u, v, rfl, hreaches, hquery, hp, rfl⟩ := h.stops
  obtain ⟨begun, failing, written, hevents, hends⟩ := hp.ends
  have hvisit : visit = ⟨node.first, visit.result, begun ++ failing⟩ := by
    rw [← hp.step_eq, ← hevents]
  rw [hvisit] at hp
  refine ⟨_, node.first, failing, written, ?_,
    .intro hreaches hquery hp (hends.prepend hreaches.journal hreaches.succeeded)⟩
  rw [List.flatMap_append, List.flatMap_singleton, hevents, List.append_assoc]

theorem Stops.ends (h : Stops b o tasks s past step failing e written t) :
    Ends b step s.store past failing e written t.store := by
  cases h with
  | intro _ _ _ hends => exact hends

/-- The first failure ends a run where it happens. No request and no write comes after the
operation that fails, the tables stored before it are in their files, and the report tells the
error and the scope around all loops. An error that names a step names the one that was being
executed. -/
theorem first_failure_ends_run (job : Job) (b : Backends σ) (o : RunOptions) (bindings : Scope)
    (files : FileTree) (dir : Path) (outside : σ) (runId : Nat) {u t : RunState σ} {e : JobError}
    (hopening : Act.runFrom { store := { files, dir }, scope := bindings,
                              outside } (opening job b o) = (.ok (), u))
    (hwalk : Act.runFrom u (runNodes b o job.nodes) = (.error e, t)) :
    let c := (Controller.new job b o bindings { files, dir } outside runId).run
    let c' := (Controller.new job b.recorded o bindings { files, dir } (outside, []) runId).run
    c.1 = .error e ∧
      (c.2.report.state = .failed ∧ c.2.report.error = some e.message ∧
        c.2.report.finishedAt = some ⟨b.clock c.2.current.outside⟩ ∧
        c.2.report.bindings = c.2.current.scope) ∧
      ∃ past step failing written,
        Stops b o (job.nodes.map .node) u past step failing e written c.2.current ∧
        c'.2.current.outside = (c.2.current.outside, requests (past ++ failing)) ∧
        (∀ name data cached path, .store name data cached (.ok path) ∈ past →
          ∃ last, lastWritten dir (past.filterMap Event.written? ++ written) name = some last ∧
            c.2.current.store.files.read (tablePath dir name) = .ok last.toCsv) ∧
        (∀ backend fault ref, e = .execution backend fault ref → ref = some step.ref) ∧
        ∀ table ref, e = .dependency table ref → ref = step.ref := by
  intro c c'
  obtain ⟨visits, hw⟩ := exists_walks b o job.nodes u
  rw [hwalk] at hw
  have hended : Act.runFrom { store := { files, dir }, scope := bindings,
                              outside } (Controller.execute job b o) =
      (.error e, t) := by
    rw [runFrom_execute, hopening]
    dsimp only
    rw [hwalk]
    rfl
  obtain ⟨hresult, hcurrent, _⟩ := Controller.run_new job b o bindings { files, dir } outside runId
  rw [hended] at hresult hcurrent
  have hcourse : Course job b o { store := { files, dir }, scope := bindings,
                                  outside } visits c.1 c.2.current := by
    rw [hresult, hcurrent]
    exact .failed hopening hwalk hw
  obtain ⟨_, hrecorded⟩ :=
    Controller.run_recorded job b o bindings { files, dir } outside runId hcourse
  have hdir : u.store.dir = dir := by
    obtain ⟨n, found, hd, rfl⟩ := discovers_of_opening rfl hopening
    exact dir_of_discovers hd
  obtain ⟨past, step, failing, written, hevents, hstops⟩ := hw.exists_stops
  have hwrites := hstops.ends.writes
  obtain ⟨_, _, hfails⟩ := hstops.ends.fails
  rw [← hcurrent] at hstops hwrites
  refine ⟨hresult, Controller.report_of_error job b o bindings _ outside runId hresult, past, step,
    failing, written, hstops, ?_, fun name data cached path he => ?_, hfails.names⟩
  · rw [hrecorded, RunState.recorded, hevents]
  · have hmem : (name, data) ∈ past.filterMap Event.written? ++ written :=
      List.mem_append_left _ (List.mem_filterMap.mpr ⟨_, he, rfl⟩)
    obtain ⟨last, hlast⟩ := exists_lastWritten hmem
    have hread := hwrites.read (by rw [hdir]; exact hlast)
    rw [hdir] at hread
    exact ⟨last, hlast, hread⟩

/-- A table is written at the top and in a loop, whose second iteration fails after it has
written the table once more. -/
def failingNodes : List StepNode :=
  [.leaf { line := 1, query := "SELECT 1 AS a", sinks := [.localTable "t" false],
           source := some (.localTables []),
           text := "SELECT 1 AS a => csv:t" },
   .loop "i" "L"
     { line := 2, query := "SELECT i FROM n", source := some (.localTables []),
       text := "SELECT i FROM n => batch_begin:i:L" }
     [.leaf { line := 3, query := "SELECT 2 AS a", sinks := [.localTable "t" false],
              source := some (.localTables []),
              text := "SELECT 2 AS a => csv:t" },
      .leaf { line := 4, query := "SELECT a FROM t", sinks := [.variable "x"],
              source := some (.localTables ["t"]),
              text := "SELECT a FROM csv.t => var:x" },
      .leaf { line := 5, marker := .closes "L", text := "=> batch_end:L" }]]

def failingJob : Job := ⟨failingNodes, ""⟩

def failingReplies : Rehearsal :=
  { engine := [.output { stdout := "a\n1\n" }, .output { stdout := "i\n7\n8\n" },
    .output { stdout := "a\n2\n" }, .dump "t",
      .output { stdout := "a\n3\n" }, .output { status := 1, stderr := "no memory" }] }

def failingOptions : RunOptions := { cleanupScratch := true }

def failingStart : RunState Rehearsal :=
  { store := { files := .empty, dir := .ofString "data" }, scope := .empty,
    outside := failingReplies }

def failingOpened : RunState Rehearsal :=
  (Act.runFrom failingStart (opening failingJob engineOnly failingOptions)).2

def failingError : JobError :=
  .execution .local (.exited 1 "no memory") (some ⟨4, "SELECT a FROM csv.t => var:x"⟩)

def failingRun : Except JobError Unit × Controller Rehearsal :=
  (Controller.new failingJob engineOnly failingOptions .empty
    { files := .empty, dir := .ofString "data" } failingReplies 0).run

theorem first_failure_ends_run_in_loop :
    (Act.runFrom failingStart (opening failingJob engineOnly failingOptions)).1 = .ok () ∧
      (Act.runFrom failingOpened (runNodes engineOnly failingOptions failingJob.nodes)).1 =
        .error failingError ∧
      failingRun.1 = .error failingError ∧ failingRun.2.report.error = some failingError.message ∧
      (failingRun.2.current.store.files.read (tablePath (.ofString "data") "t")).toOption =
        some "a\n3\n" ∧
      ∃ past step failing written,
        Stops engineOnly failingOptions (failingJob.nodes.map .node) failingOpened past step failing
          failingError written failingRun.2.current ∧
        step.ref = ⟨4, "SELECT a FROM csv.t => var:x"⟩ := by
  have hopens : (Act.runFrom failingStart (opening failingJob engineOnly failingOptions)).1 =
      .ok () := by decide +kernel
  have hfails :
      (Act.runFrom failingOpened (runNodes engineOnly failingOptions failingJob.nodes)).1 =
        .error failingError := by
    decide +kernel
  have hopening : Act.runFrom failingStart (opening failingJob engineOnly failingOptions) =
      (.ok (), failingOpened) := by
    rw [← hopens, failingOpened]
  have hwalk : Act.runFrom failingOpened (runNodes engineOnly failingOptions failingJob.nodes) =
      (.error failingError,
        (Act.runFrom failingOpened (runNodes engineOnly failingOptions failingJob.nodes)).2) := by
    rw [← hfails]
  have hread : (failingRun.2.current.store.files.read (tablePath (.ofString "data") "t")).toOption =
      some "a\n3\n" := by
    decide +kernel
  rw [failingRun] at hread ⊢
  rw [failingStart] at hopening
  obtain ⟨hresult, ⟨_, herror, _⟩, past, step, failing, written, hstops, _, _, hnames, _⟩ :=
    first_failure_ends_run failingJob engineOnly failingOptions .empty .empty (.ofString "data")
      failingReplies 0 hopening hwalk
  refine ⟨hopens, hfails, hresult, herror, hread, past, step, failing, written, hstops, ?_⟩
  exact (Option.some.inj (hnames _ _ _ rfl)).symm

end TableFlow.Run
