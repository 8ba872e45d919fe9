import TableFlow.Proofs.Run.Dependencies
import TableFlow.Proofs.Run.Failure
import TableFlow.Proofs.Script.Sinks

namespace TableFlow

namespace TableStore

/-- A store keeps a table when its name is registered to last and its file is some writing of
it. -/
structure Keeps (s : TableStore) (name : String) (data : Table) : Prop where
  entry : (s.entry? name).any (·.cached) = true
  file : ∃ text, s.files.read (s.path name) = .ok text ∧ Table.ofCsv text = .ok data

variable {s t : TableStore} {name : String} {data : Table}

theorem Keeps.reusable (h : s.Keeps name data) : s.reusable name = true := by
  obtain ⟨text, hread, _⟩ := h.file
  rw [TableStore.reusable, h.entry, FileTree.isFile_eq, FileTree.read_eq_ok_iff.mp hread]
  rfl

theorem Keeps.runFrom_load (h : s.Keeps name data) : Act.runFrom s (load name) = (.ok data, s) := by
  obtain ⟨text, hread, hcsv⟩ := h.file
  rw [TableStore.runFrom_load, hread]
  dsimp only
  rw [hcsv]
  rfl

/-- What is stored to last is kept, in whatever writing it has come. -/
theorem keeps_of_stores {path : Path} (h : Stores s name data true (.ok path) t) :
    t.Keeps name data := by
  have hcolumns : data.fields ≠ [] := by
    cases h
    assumption
  refine ⟨?_, data.toCsv, FileTree.read_eq_ok_iff.mpr (file?_of_stores h),
    Table.ofCsv_toCsv hcolumns⟩
  rw [entry?_of_stores h]
  rfl

theorem listed_of_stores {path : Path} (h : Stores s name data true (.ok path) t)
    (hs : s.IsCurrent) :
    ∃ names, Lists t.files t.dir names ∧ name ∈ names := by
  obtain ⟨names, hnames, hlisted⟩ := isCurrent_of_stores h hs
  have hcontains := contains_of_stores h
  rw [hlisted, Std.ExtTreeSet.contains_ofList] at hcontains
  exact ⟨names, hnames, List.contains_iff_mem.mp hcontains⟩

end TableStore

namespace Run

open TableStore

variable {σ : Type}

/-- A table is handed to sinks in their order, and each takes it to its end, up to the last or
to the first that fails. -/
inductive Hands (b : Backends σ) (data : Table) (sinks : List Sink) :
    List Event → Except JobError Outcome → Prop
  | all {parts outcome} : List.Forall₂ (Takes (.table data)) sinks parts →
      Hands b data sinks parts.flatten (.ok outcome)
  | upTo {taken parts sink rest u events e v e'} : sinks = taken ++ sink :: rest →
      List.Forall₂ (Takes (.table data)) taken parts →
        Applies b (.table data) u sink events (.error e) v →
      Hands b data sinks (parts.flatten ++ events) (.error e')

structure Visit.PassesOn (b : Backends σ) (name : String) (data : Table) (visit : Visit)
    (r : Except JobError Outcome) :
    Prop where
  result : visit.result = some (.table data)
  events : ∃ events, visit.events = .load name (.ok data) :: events ∧
    Hands b data visit.step.sinks events r
  unasked : ∀ endpoint sql object imports shape files answer,
    .request endpoint (.query sql object imports shape) files answer ∉ visit.events

def Rewrites (name : String) (data : Table) : Except JobError Unit × RunState σ → Prop
  | (.ok (), t) =>
      t.store.Keeps name data ∧ ∃ names, Lists t.store.files t.store.dir names ∧ name ∈ names
  | (.error e, _) => ∃ fault, e = .system fault

variable {b : Backends σ} {o : RunOptions} {step : Step} {shape : Shape} {s t : RunState σ}
  {store : TableStore} {visit : Visit} {sinks : List Sink} {events : List Event} {name : String}
  {data : Table}

theorem reused?_eq_some (ho : o.reuseCached = true) (hd : Sink.Distinct step.sinks)
    (hsink : .localTable name true ∈ step.sinks) (hr : store.reusable name = true) :
    reused? o store step = some name := by
  rw [reused?, if_pos ho]
  cases hstand : standIn store step with
  | none =>
      rw [standIn, List.findSome?_eq_none_iff] at hstand
      have hnone := hstand _ hsink
      simp [hr] at hnone
  | some other =>
      have hreused : reused? o store step = some other := by rw [reused?, if_pos ho, hstand]
      obtain ⟨_, hother, _⟩ := mem_sinks_of_reused? hreused
      cases hd.eq_of_localTable hsink hother
      rfl

theorem Pours.hands {r : Except JobError Unit} (h : Pours b (.table data) s sinks events r t)
    (step : Step) :
    Hands b data sinks events
      ((r.map fun _ => Outcome.table data).mapError (JobError.atStep step)) := by
  cases r with
  | ok =>
      obtain ⟨parts, rfl, hparts⟩ := h.takes
      exact .all hparts
  | error e =>
      obtain ⟨taken, parts, sink, rest, broken, u, e, v, hsinks, rfl, hparts, hbroken⟩ := h.breaks
      exact .upTo hsinks hparts hbroken

theorem Performs.passesOn {r : Except JobError Outcome} (h : Performs b o step shape s visit r t)
    (hreused : reused? o s.store step = some name) (hk : s.store.Keeps name data) :
    visit.PassesOn b name data r := by
  -- A step comes by its result in one way, and the load of the table that is kept is one.
  have hobtains : Obtains b o step shape s [.load name (.ok data)] (.ok (.table data)) s :=
    .reused hreused hk.runFrom_load
  cases h with
  | withoutResult ho => cases (ho.unique hobtains rfl).2.1
  | withResult ho hp =>
      obtain ⟨rfl, hr, rfl⟩ := ho.unique hobtains rfl
      cases hr
      refine ⟨rfl, ⟨_, rfl, hp.hands step⟩, fun endpoint sql object imports shape files answer he =>
        ?_⟩
      rcases List.mem_cons.mp he with he | he
      · cases he
      · cases hp.ofSink _ he

/-- The sinks before it leave the manifest as the run knows it, and so does the sink itself. -/
theorem rewrites_of_runFrom {front : List Sink} {outcome : Outcome} {u : RunState σ}
    (hs : s.store.IsCurrent) (hcolumns : data.fields ≠ [])
    (hfront : Act.runFrom s (front.forM (applySink b outcome)) = (.ok (), u)) :
    Rewrites name data (Act.runFrom u (applySink b (.table data) (.localTable name true))) := by
  obtain ⟨events, r, v, hp⟩ := exists_pours b outcome s front
  rw [hp.runFrom_forM] at hfront
  cases hfront
  have hcurrent := (hp.journal (unrefused_ok ())).isCurrent hs
  obtain ⟨_, r, w, ha⟩ := exists_applies b (.table data) u (.localTable name true)
  rw [ha.runFrom_applySink]
  cases ha with
  | @stored _ _ answer store hstore =>
      have hstores := stores_store u.store name (Outcome.table data).toTable true
      rw [hstore] at hstores
      cases answer with
      | ok => exact ⟨keeps_of_stores hstores, listed_of_stores hstores hcurrent⟩
      | error e =>
          cases hstores with
          | noColumns hnone => exact absurd hnone hcolumns
          | @failed e => exact ⟨e, rfl⟩

theorem Walks.exists_of_leaf {visits : List Visit} {r : Except JobError Unit}
    (hq : step.hasQuery = true) (h : Walks b o [.node (.leaf step)] s visits r t) :
    ∃ visit, visits = [visit] := by
  cases h with
  | skipped hnone => exact absurd (hq.symm.trans hnone) nofun
  | failed => exact ⟨_, rfl⟩
  | executed _ _ hw =>
      cases hw
      exact ⟨_, rfl⟩

/-- Where tables are reused, a step that is to keep one hands on the one that is kept already,
however its file is written. The file that it leaves holds that table again, and the manifest
lists it. -/
theorem reused_table_passed_on {lines : List String} {job : Job}
    (hjob : Job.ofLines lines = .ok job) (b : Backends σ) {o : RunOptions}
    (ho : o.reuseCached = true) (bindings : Scope) (files : FileTree) (dir : Path) (outside : σ)
    (runId : Nat) :
    let start : RunState σ := { store := { files, dir }, scope := bindings, outside }
    let c := (Controller.new job b o bindings { files, dir } outside runId).run
    ∃ visits, Course job b o start visits c.1 c.2.current ∧
      ∀ earlier visit later, visits = earlier ++ visit :: later →
        ∃ opened node rest s r t, Act.runFrom start (opening job b o) = (.ok (), opened) ∧
          Reaches b o (job.nodes.map .node) opened earlier (.node node :: rest) s ∧
          Performs b o node.first node.shape s visit r t ∧
          ∀ name data, .localTable name true ∈ visit.step.sinks → s.store.Keeps name data →
            data.fields ≠ [] →
            visit.PassesOn b name data r ∧
              ∀ front back u, visit.step.sinks = front ++ .localTable name true :: back →
                Act.runFrom { s with steps := s.steps + 1 }
                  (front.forM (applySink b (.table data))) = (.ok (), u) →
                  Rewrites name data
                    (Act.runFrom u (applySink b (.table data) (.localTable name true))) := by
  intro start c
  obtain ⟨visits, hcourse⟩ := Controller.exists_course job b o bindings { files, dir } outside runId
  refine ⟨visits, hcourse, fun earlier visit later hv => ?_⟩
  obtain ⟨opened, _, _, hopening, hw, _⟩ := hcourse.exists_walks (by simp [hv])
  obtain ⟨node, rest, s, r, t, hreaches, hp, _⟩ := hw.reaches hv
  refine ⟨opened, node, rest, s, r, t, hopening, hreaches, hp,
    fun name data hsink hk hcolumns => ?_⟩
  have hdistinct : Sink.Distinct node.first.sinks := by
    have hstep := hw.step_mem visit (by simp [hv])
    rw [steps_nodes, hp.step_eq] at hstep
    exact distinct_of_ofLines hjob _ hstep
  have hcurrent : s.store.IsCurrent := by
    obtain ⟨_, found, hd, rfl⟩ := discovers_of_opening rfl hopening
    exact hreaches.journal.isCurrent (isCurrent_of_discovers hd)
  rw [hp.step_eq] at hsink
  refine ⟨hp.passesOn (reused?_eq_some ho hdistinct hsink hk.reusable) hk,
    fun front back u _ hfront => ?_⟩
  exact rewrites_of_runFrom (s := { s with steps := s.steps + 1 }) hcurrent hcolumns hfront

def refilling : List String := ["SELECT 9 AS a => csv:t:cache => var:x"]

def refillingStep : Step :=
  { line := 1, query := "SELECT 9 AS a", sinks := [.localTable "t" true, .variable "x"],
    source := some (.localTables []),
    text := "SELECT 9 AS a => csv:t:cache => var:x" }

def refillingJob : Job := .unlooped refilling [refillingStep]

def refillingText : String := "\"a\",b\r\n\"\",\"say \"\"x\"\"\"\r\n"

def refillingTable : Table := ⟨["a", "b"], [["", "say \"x\""]], by decide, by decide⟩

def refillingFiles : FileTree :=
  (FileTree.empty.place (.ofString "data/.sluice-cached.json") (.text "[\"t\"]")).place
    (.ofString "data/t.csv")
    (.text refillingText)

def refillingStart : RunState Rehearsal :=
  { store := { files := refillingFiles, dir := .ofString "data" }, scope := .empty, outside := {} }

def refillingOpened : RunState Rehearsal :=
  (Act.runFrom refillingStart (opening refillingJob engineOnly { reuseCached := true })).2

def refillingRun : Except JobError Unit × Controller Rehearsal :=
  (Controller.new refillingJob engineOnly { reuseCached := true } .empty
    { files := refillingFiles, dir := .ofString "data" }
    {} 0).run

theorem keeps_refilling : refillingOpened.store.Keeps "t" refillingTable :=
  ⟨by decide +kernel, refillingText, eq_ok_of_toOption (by decide +kernel),
    eq_ok_of_toOption (by decide +kernel)⟩

theorem reused_table_passed_on_refilling :
    Job.ofLines refilling = .ok refillingJob ∧
      ({ reuseCached := true } : RunOptions).reuseCached = true ∧
      refillingOpened.store.Keeps "t" refillingTable ∧ refillingTable.fields ≠ [] ∧
      (refillingRun.2.current.store.files.read (tablePath (.ofString "data") "t")).toOption =
        some "a,b\n,\"say \"\"x\"\"\"\n" ∧
      refillingRun.2.report.bindings.get? "x" = some (.text "") ∧
      ∃ visit r, Course refillingJob engineOnly { reuseCached := true } refillingStart [visit]
        refillingRun.1
          refillingRun.2.current ∧ visit.step = refillingStep ∧
            visit.PassesOn engineOnly "t" refillingTable r ∧
        Rewrites "t" refillingTable
          (Act.runFrom { refillingOpened with steps := refillingOpened.steps + 1 }
          (applySink engineOnly (.table refillingTable) (.localTable "t" true))) := by
  have hjob : Job.ofLines refilling = .ok refillingJob := ofLines_unlooped (by decide +kernel) rfl
  have hread : (refillingRun.2.current.store.files.read
      (tablePath (.ofString "data") "t")).toOption =
      some "a,b\n,\"say \"\"x\"\"\"\n" := by decide +kernel
  have hbound : refillingRun.2.report.bindings.get? "x" = some (.text "") := by decide +kernel
  have hopens :
      (Act.runFrom refillingStart (opening refillingJob engineOnly { reuseCached := true })).1 =
        .ok () :=
    eq_ok_of_toOption (by decide +kernel)
  have hkeeps := keeps_refilling
  have hcolumns : refillingTable.fields ≠ [] := by decide
  rw [refillingRun] at hread hbound ⊢
  refine ⟨hjob, rfl, hkeeps, hcolumns, hread, hbound, ?_⟩
  obtain ⟨visits, hcourse, hall⟩ :=
    reused_table_passed_on hjob engineOnly (o := { reuseCached := true }) rfl .empty
      refillingFiles (.ofString "data") {} 0
  have hopening : Act.runFrom refillingStart
      (opening refillingJob engineOnly { reuseCached := true }) =
      (.ok (), refillingOpened) := by rw [← hopens, refillingOpened]
  rw [refillingStart] at hopening ⊢
  have hvisits : ∃ visit, visits = [visit] := by
    obtain ⟨e, hfails, _⟩ | ⟨u, r, v, _, hw, _⟩ := hcourse.unopened_or_walks
    · rw [hopening] at hfails
      cases hfails
    · exact Walks.exists_of_leaf (by decide) hw
  obtain ⟨visit, rfl⟩ := hvisits
  obtain ⟨opened, node, rest, s, r, t, hopened, hreaches, hp, hpasses⟩ := hall [] visit [] rfl
  rw [hopening] at hopened
  cases hopened
  -- What the run has found is no longer needed in full, and is too much to compare terms by.
  generalize refillingOpened = kept at *
  cases hreaches with
  | skipped hq => exact absurd hq (by decide)
  | here =>
      have hstep : visit.step = refillingStep := hp.step_eq
      have hmem : Sink.localTable "t" true ∈ visit.step.sinks := by
        rw [hstep]
        exact List.mem_cons_self
      have hsplit : visit.step.sinks = [] ++ .localTable "t" true :: [.variable "x"] := by
        rw [hstep]
        rfl
      obtain ⟨hpassed, hrewrites⟩ := hpasses "t" refillingTable hmem hkeeps hcolumns
      exact ⟨visit, r, hcourse, hstep, hpassed,
        hrewrites [] _ { s with steps := s.steps + 1 } hsplit rfl⟩

end Run
end TableFlow
