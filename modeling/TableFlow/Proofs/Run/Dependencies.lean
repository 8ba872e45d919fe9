import TableFlow.Proofs.Run.Course
import TableFlow.Proofs.Table.RoundTrip
import TableFlow.Rehearsal.Engine

namespace TableFlow

namespace Run

open TableStore

/-- A table that a run knows of: one that it has stored, or one that it found at its start. -/
def Known (files : FileTree) (dir : Path) (inputs : List String) (past : List Event)
    (name : String) : Prop :=
  (lastStored past name).isSome = true ∨ Offers files dir inputs name

/-- What a file holds from which the engine reads a table: what was stored last under the
table's name or, if nothing was, what it held at the start of the run. -/
def Holds (files : FileTree) (dir : Path) (past : List Event) (now : FileTree) (name : String) :
    Prop :=
  match lastStored past name with
  | some (data, _) => ∃ text, now.read (tablePath dir name) = .ok text ∧ Table.ofCsv text = .ok data
  | none => now.file? (tablePath dir name).resolve = files.file? (tablePath dir name).resolve

structure Depends (files : FileTree) (dir : Path) (inputs : List String) (past : List Event)
    (visit : Visit) (later : List Visit) (r : Except JobError Unit) : Prop where
  imports : ∀ request now answer, .request none request now answer ∈ visit.events →
    (∃ sql shape, request = .query sql none (visit.step.localSources.map fun name =>
      (name, tablePath dir name)) shape) ∧
      ∀ name ∈ visit.step.localSources, Known files dir inputs past name ∧
        now.isFile (tablePath dir name) = true ∧
        Holds files dir past now name
  missing : ∀ front name back, visit.step.localSources = front ++ name :: back →
    (∀ known ∈ front, Known files dir inputs past known) → ¬ Known files dir inputs past name →
    (∀ table answer, .load table answer ∉ visit.events) →
    visit.events = [] ∧ later = [] ∧ r = .error (.dependency name visit.step.ref)

variable {σ : Type} {b : Backends σ} {o : RunOptions} {step : Step} {shape : Shape}
  {s t : RunState σ} {outcome : Outcome} {events : List Event} {visit : Visit}

theorem remoteSource_of_localSources (h : step.localSources ≠ []) : step.remoteSource = none := by
  rcases hs : step.source with _ | names | ⟨endpoint, object⟩ <;>
    simp_all [Step.localSources, Step.remoteSource]

theorem Performs.engine_query {r : Except JobError Outcome} {request : Request} {files : FileTree}
    {answer : Except ExecutionFault Outcome} (h : Performs b o step shape s visit r t)
    (he : .request none request files answer ∈ visit.events) :
    ∃ sql imports wanted, request = .query sql none imports wanted ∧ files = s.store.files ∧
      s.store.resolve step.localSources = .ok imports := by
  have hobtains {events : List Event} {r : Except JobError Outcome} {t : RunState σ}
      (ho : Obtains b o step shape s events r t)
      (he : .request none request files answer ∈ events) :
      ∃ sql imports wanted, request = .query sql none imports wanted ∧ files = s.store.files ∧
        s.store.resolve step.localSources = .ok imports := by
    cases ho with
    | reused | missing => simp at he
    | engine _ _ hi ha =>
        cases ha with
        | unconfigured hn => cases hn
        | answered =>
            cases List.mem_singleton.mp he
            exact ⟨_, _, _, rfl, rfl, hi⟩
    | service _ _ ha => cases ha <;> simp at he
  cases h with
  | withoutResult ho => exact hobtains ho he
  | withResult ho hp =>
      rcases List.mem_append.mp he with he | he
      · exact hobtains ho he
      · cases hp.ofSink _ he

theorem Performs.dependency {r : Except JobError Outcome} {name : String}
    (h : Performs b o step shape s visit r t) (hs : step.remoteSource = none)
    (hi : s.store.resolve step.localSources = .error name)
    (hl : ∀ table answer, .load table answer ∉ visit.events) :
    visit.events = [] ∧ r = .error (.dependency name step.ref) := by
  have hobtains {events : List Event} {r : Except JobError Outcome} {t : RunState σ}
      (ho : Obtains b o step shape s events r t)
      (hl : ∀ table answer, .load table answer ∉ events) :
      events = [] ∧ r = .error (.dependency name step.ref) := by
    cases ho with
    | reused => exact absurd (List.mem_singleton_self _) (hl _ _)
    | missing _ _ hm =>
        rw [hm] at hi
        cases hi
        exact ⟨rfl, rfl⟩
    | engine _ _ hok =>
        rw [hok] at hi
        cases hi
    | service _ hr =>
        rw [hr] at hs
        cases hs
  cases h with
  | withoutResult ho =>
      obtain ⟨rfl, he⟩ := hobtains ho hl
      cases he
      exact ⟨rfl, rfl⟩
  | withResult ho =>
      obtain ⟨_, he⟩ :=
        hobtains ho fun table answer hm => hl table answer (List.mem_append_left _ hm)
      cases he

theorem contains_of_follows {files : FileTree} {dir : Path} {inputs : List String} {n : Nat}
    {found u : TableStore} {past : List Event} (hd : Discovers files dir inputs (.ok n) found)
    (hf : Follows found (lastStored past) u) (name : String) : u.contains name = true ↔
      Known files dir inputs past name := by
  rw [Known, contains, hf.entry, ← contains_of_discovers hd, contains]
  cases lastStored past name <;> simp

theorem holds_of_follows {files : FileTree} {dir : Path} {inputs : List String} {n : Nat}
    {found u : TableStore} {past : List Event} {name : String}
    (hd : Discovers files dir inputs (.ok n) found) (hf : Follows found (lastStored past) u)
    (hpast : Named (lastStored past)) (hn : Directive.isName name = true)
    (hk : Known files dir inputs past name) :
    u.files.isFile (tablePath dir name) = true ∧ Holds files dir past u.files name := by
  cases hd with
  | found hfiles hdir _ _ _ =>
      have hfile := hf.file hpast name hn
      rw [hdir, hfiles] at hfile
      rw [Holds]
      cases hl : lastStored past name with
      | some p =>
          rw [hl] at hfile
          have hread := FileTree.read_eq_ok_iff.mpr hfile
          have hcolumns := hf.columns name p hl
          rw [FileTree.isFile_eq, hfile]
          exact ⟨rfl, _, hread, Table.ofCsv_toCsv hcolumns⟩
      | none =>
          rw [hl] at hfile
          refine ⟨?_, hfile⟩
          rcases hk with hk | ⟨_, _, _, hk⟩
          · rw [hl] at hk
            cases hk
          · rwa [isFile_congr hfile]

/-- Queries of the engine find all their tables, each with what was stored last under its name;
a query that would not is never sent. -/
theorem local_imports_sound {lines : List String} {job : Job} (hjob : Job.ofLines lines = .ok job)
    (b : Backends σ) (o : RunOptions) (bindings : Scope) (files : FileTree) (dir : Path)
    (outside : σ) (runId : Nat) :
    let start : RunState σ := { store := { files, dir }, scope := bindings, outside }
    let c := (Controller.new job b o bindings { files, dir } outside runId).run
    ∃ visits, Course job b o start visits c.1 c.2.current ∧
      ∀ earlier visit later, visits = earlier ++ visit :: later →
        Depends files dir o.inputs (earlier.flatMap Visit.events) visit later c.1 := by
  intro start c
  obtain ⟨visits, hcourse⟩ := Controller.exists_course job b o bindings { files, dir } outside runId
  refine ⟨visits, hcourse, fun earlier visit later hv => ?_⟩
  obtain ⟨n, found, shape, u, r', v, hd, hf, hp, hr⟩ := hcourse.at_visit rfl hv
  obtain ⟨hpast, hnames⟩ := hcourse.named hjob hv
  have hknown := contains_of_follows hd hf
  have hdir : u.store.dir = dir := hf.dir.trans (dir_of_discovers hd)
  refine ⟨fun request now answer he => ?_, fun front name back hsources hfront hname hload => ?_⟩
  · obtain ⟨sql, imports, wanted, rfl, rfl, hi⟩ := hp.engine_query he
    obtain ⟨rfl, hall⟩ := resolve_eq_ok hi
    have hpath (name : String) : u.store.path name = tablePath dir name := by rw [path, hdir]
    refine ⟨⟨sql, wanted, by simp only [hpath]⟩, fun name hn => ?_⟩
    have hk := (hknown name).mp (hall name hn)
    exact ⟨hk, holds_of_follows hd hf hpast (hnames name (List.mem_append_right _ hn)) hk⟩
  · have hsource : visit.step.remoteSource = none :=
      remoteSource_of_localSources (by simp [hsources])
    have hmissing : u.store.resolve visit.step.localSources = .error name := by
      rw [hsources]
      apply resolve_eq_error
      · exact fun known hk => (hknown known).mpr (hfront known hk)
      · rw [← Bool.not_eq_true, hknown]
        exact hname
    obtain ⟨hevents, he⟩ := hp.dependency hsource hmissing hload
    exact ⟨hevents, hr _ he⟩

def overwriting : List String :=
  ["SELECT 1 AS a => csv:t", "SELECT a FROM csv.t => csv:t", "SELECT a FROM csv.t => var:x",
    "SELECT b FROM csv.u => var:y"]

def overwritingSteps : List Step :=
  [{ line := 1, query := "SELECT 1 AS a", sinks := [.localTable "t" false],
     source := some (.localTables []),
     text := "SELECT 1 AS a => csv:t" },
   { line := 2, query := "SELECT a FROM t", sinks := [.localTable "t" false],
     source := some (.localTables ["t"]),
     text := "SELECT a FROM csv.t => csv:t" },
   { line := 3, query := "SELECT a FROM t", sinks := [.variable "x"],
     source := some (.localTables ["t"]),
     text := "SELECT a FROM csv.t => var:x" },
   { line := 4, query := "SELECT b FROM u", sinks := [.variable "y"],
     source := some (.localTables ["u"]),
     text := "SELECT b FROM csv.u => var:y" }]

def overwritingJob : Job := .unlooped overwriting overwritingSteps

theorem ofLines_overwriting : Job.ofLines overwriting = .ok overwritingJob :=
  ofLines_unlooped (by decide +kernel) rfl

def engineOnly : Backends Rehearsal := { engine := Rehearsal.localEngine.executor }

def overwritingReplies : Rehearsal :=
  { engine := [.output { stdout := "a\n1\n" }, .output { stdout := "a\n2\n" }, .dump "t"] }

def overwritingRun : Except JobError Unit × Controller Rehearsal :=
  (Controller.new overwritingJob engineOnly {} .empty { files := .empty, dir := .ofString "data" }
    overwritingReplies 0).run

theorem report_overwritingRun :
    overwritingRun.2.report.stepsExecuted = 3 ∧
      overwritingRun.2.report.bindings.get? "x" = some (.text "2") ∧
      overwritingRun.2.report.error =
        some
          "dependency error at line 4: \x60SELECT b FROM csv.u => var:y\x60: local table 'u' has not been produced" := by
  decide +kernel

theorem local_imports_sound_overwriting :
    Job.ofLines overwriting = .ok overwritingJob ∧ overwritingRun.2.report.stepsExecuted = 3 ∧
      overwritingRun.2.report.bindings.get? "x" = some (.text "2") ∧
      ∃ visits, Course overwritingJob engineOnly {}
          { store := { files := .empty, dir := .ofString "data" }, scope := .empty,
            outside := overwritingReplies } visits
          overwritingRun.1 overwritingRun.2.current ∧
        ∀ earlier visit later, visits = earlier ++ visit :: later →
          Depends .empty (.ofString "data") [] (earlier.flatMap Visit.events) visit later
            overwritingRun.1 := by
  refine ⟨ofLines_overwriting, report_overwritingRun.1, report_overwritingRun.2.1, ?_⟩
  rw [overwritingRun]
  exact local_imports_sound ofLines_overwriting engineOnly {} .empty .empty (.ofString "data")
    overwritingReplies 0

end Run
end TableFlow
