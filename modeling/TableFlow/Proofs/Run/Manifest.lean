import TableFlow.Proofs.Run.Dependencies

namespace TableFlow.Run

open TableStore

/-- Runs one after the other in one data directory, of any accepted scripts, and all that their
steps have done. Nobody else changes the files, and the system refuses nothing. -/
inductive Series (dir : Path) (start : FileTree) : List Event → FileTree → Prop
  | none : Series dir start [] start
  | run {σ : Type} {events : List Event} {files : FileTree} {lines : List String} {job : Job}
      {b : Backends σ} {o : RunOptions} {bindings : Scope} {outside : σ} {runId : Nat}
      {visits : List Visit} {c : Except JobError Unit × Controller σ} :
      Series dir start events files → Job.ofLines lines = .ok job →
      c = (Controller.new job b o bindings { files, dir } outside runId).run →
      Course job b o { store := { files, dir }, scope := bindings, outside } visits c.1
        c.2.current → Unrefused c.1 →
      Series dir start (events ++ visits.flatMap Visit.events) c.2.current.store.files

/-- The manifest in a directory lists what has been stored to last. -/
def Remembers (dir : Path) (events : List Event) (files : FileTree) : Prop :=
  ∃ names, Lists files dir names ∧ ∀ name, name ∈ names ↔
    ∃ data, lastStored events name = some (data, true)

/-- Before its first step any next run has the tables that were stored last to stay and those of
its inputs, as far as they have a file. One that was stored last for its run alone is found only
as an input. -/
def Finds (dir : Path) (events : List Event) (files : FileTree) : Prop :=
  ∀ (σ : Type) (job : Job) (b : Backends σ) (o : RunOptions) (bindings : Scope) (outside : σ),
    match Act.runFrom { store := { files, dir }, scope := bindings, outside } (opening job b o) with
    | (.error e, _) =>
      (∃ fault, Controller.preflight b job.steps = .error fault ∧ e = .config fault) ∨
        ∃ fault, e = .system fault
    | (.ok (), found) => ∀ name,
      (found.store.contains name = true ↔
        ((∃ data, lastStored events name = some (data, true)) ∨ name ∈ o.inputs) ∧
          files.isFile (tablePath dir name) = true) ∧
      ∀ data, lastStored events name = some (data, false) → name ∉ o.inputs →
        found.store.contains name = false

variable {σ : Type} {b : Backends σ} {o : RunOptions} {s t : RunState σ} {dir : Path}
  {files start : FileTree} {events : List Event} {visits : List Visit} {name : String}

theorem remembers_of_discovers {inputs : List String} {n : Nat} {found u : TableStore}
    {past : List Event} (hp : Remembers dir past files)
    (hd : Discovers files dir inputs (.ok n) found) (hf : Follows found (lastStored events) u)
    (hn : Named (lastStored events)) :
    Remembers dir (past ++ events) u.files := by
  have hcurrent := isCurrent_of_discovers hd
  cases hd with
  | @found _ names _ hfiles hdir hnames hlisted _ =>
      obtain ⟨kept, hkept, hlast⟩ := hp
      obtain rfl := lists_unique hkept hnames
      obtain ⟨names', hnames', hlisted'⟩ := hf.manifest hn hcurrent
      rw [hf.dir, hdir] at hnames'
      refine ⟨names', hnames', fun name => ?_⟩
      have hcontains := hf.listed name
      rw [hlisted, hlisted', Std.ExtTreeSet.contains_ofList,
        Std.ExtTreeSet.contains_ofList] at hcontains
      rw [lastStored_append, ← List.contains_iff_mem, hcontains]
      cases lastStored events name with
      | some p =>
          obtain ⟨data, cached⟩ := p
          cases cached <;> simp
      | none => simpa using hlast name

theorem remembers_congr {files' : FileTree} (hp : Remembers dir events files)
    (h : files'.file? (manifestPath dir).resolve = files.file? (manifestPath dir).resolve) :
    Remembers dir events files' := by
  obtain ⟨names, hnames, hlast⟩ := hp
  exact ⟨names, (lists_congr h).mpr hnames, hlast⟩

theorem file?_closing (o : RunOptions) (hdir : s.store.dir = dir) :
    (Act.runFrom s (closing o)).2.store.files.file? (manifestPath dir).resolve =
      s.store.files.file? (manifestPath dir).resolve := by
  rw [← hdir]
  exact file?_of_closing fun name _ => (resolve_tablePath_ne_manifestPath _ name).symm

theorem Course.remembers {lines : List String} {job : Job} {r : Except JobError Unit}
    {past : List Event} (h : Course job b o s visits r t) (hjob : Job.ofLines lines = .ok job)
    (hs : s.store = { files, dir }) (hr : Unrefused r) (hp : Remembers dir past files) :
    Remembers dir (past ++ visits.flatMap Visit.events) t.store.files := by
  have hwalk {w v : RunState σ} {r : Except JobError Unit}
      (ho : Act.runFrom s (opening job b o) = (.ok (), w))
      (hw : Walks b o (job.nodes.map .node) w visits r v) (hr : Unrefused r) :
      Remembers dir (past ++ visits.flatMap Visit.events) v.store.files ∧ v.store.dir = dir := by
    have hnamed : Named (lastStored (visits.flatMap Visit.events)) :=
      hw.named (isName_of_mem_tasks hjob) (List.Subset.refl _)
    obtain ⟨n, found, hd, rfl⟩ := discovers_of_opening hs ho
    have hfollows := (hw.journal hr).follows
    exact ⟨remembers_of_discovers hp hd hfollows hnamed, hfollows.dir.trans (dir_of_discovers hd)⟩
  cases h with
  | unopened ho =>
      rw [List.flatMap_nil, List.append_nil]
      exact remembers_congr hp (file?_of_opening hs ho _)
  | failed ho _ hw => exact (hwalk ho hw hr).1
  | @walked _ _ v _ _ ho _ hw hc =>
      obtain ⟨hremembers, hdir⟩ := hwalk ho hw (unrefused_ok _)
      have hclosing := file?_closing o hdir
      rw [hc] at hclosing
      exact remembers_congr hremembers hclosing

theorem Series.remembers (h : Series dir start events files)
    (hstart : start.isFile (manifestPath dir) = false) :
    Remembers dir events files := by
  induction h with
  | none => exact ⟨[], .inl ⟨hstart, rfl⟩, fun name => by simp [lastStored]⟩
  | run _ hjob _ hcourse hr ih => exact hcourse.remembers hjob rfl hr ih

theorem Remembers.offers_iff (hp : Remembers dir events files) (inputs : List String)
    (name : String) :
    Offers files dir inputs name ↔
      ((∃ data, lastStored events name = some (data, true)) ∨ name ∈ inputs) ∧
        files.isFile (tablePath dir name) = true := by
  obtain ⟨names, hnames, hlast⟩ := hp
  rw [← hlast]
  constructor
  · rintro ⟨names', hnames', hoffer⟩
    rwa [lists_unique hnames' hnames] at hoffer
  · exact fun hoffer => ⟨names, hnames, hoffer⟩

theorem system_of_discovers_error {inputs : List String} {e : StoreError} {found : TableStore}
    {names : List String} (hd : Discovers files dir inputs (.error e) found)
    (hnames : Lists files dir names) : ∃ fault, e = .system fault := by
  cases hd with
  | @failed fault => exact ⟨fault, rfl⟩
  | unreadable _ _ hread hfault =>
      obtain ⟨hnone, _⟩ | ⟨text, hread', hnames⟩ := hnames
      · rw [FileTree.isFile_eq, FileTree.read_eq_ok_iff.mp hread] at hnone
        cases hnone
      · rw [hread] at hread'
        cases hread'
        rw [hnames] at hfault
        cases hfault

/-- After every series of runs the manifest lists the names that were stored last to stay, and
the next run finds what it lists. -/
theorem cached_tables_across_runs (hstart : start.isFile (manifestPath dir) = false)
    (h : Series dir start events files) :
    Remembers dir events files ∧ Finds dir events files := by
  have hremembers := h.remembers hstart
  refine ⟨hremembers, fun σ job b o bindings outside => ?_⟩
  obtain ⟨fault, hpreflight, hf⟩ | ⟨answer, found, hd, hf⟩ :=
    runFrom_opening (s := { store := { files, dir }, scope := bindings, outside }) job b o rfl
  · rw [hf]
    exact .inl ⟨fault, hpreflight, rfl⟩
  · rw [hf]
    cases answer with
    | error e =>
        obtain ⟨names, hnames, _⟩ := hremembers
        obtain ⟨fault, rfl⟩ := system_of_discovers_error hd hnames
        exact .inr ⟨fault, rfl⟩
    | ok n =>
        intro name
        have hfound := (contains_of_discovers hd name).trans (hremembers.offers_iff o.inputs name)
        refine ⟨hfound, fun data hlast hinput => ?_⟩
        rw [← Bool.not_eq_true, hfound]
        rintro ⟨⟨data', hlast'⟩ | hmem, _⟩
        · rw [hlast] at hlast'
          cases hlast'
        · exact hinput hmem

def keeping : List String := ["SELECT 5 AS a => csv:kept:cache", "SELECT 1 AS a => csv:t:cache"]

def keepingJob : Job := .unlooped keeping
  [{ line := 1, query := "SELECT 5 AS a", sinks := [.localTable "kept" true],
     source := some (.localTables []),
     text := "SELECT 5 AS a => csv:kept:cache" },
   { line := 2, query := "SELECT 1 AS a", sinks := [.localTable "t" true],
     source := some (.localTables []),
     text := "SELECT 1 AS a => csv:t:cache" }]

def demoting : List String := ["SELECT 2 AS a => csv:t"]

def demotingJob : Job := .unlooped demoting
  [{ line := 1, query := "SELECT 2 AS a", sinks := [.localTable "t" false],
     source := some (.localTables []),
     text := "SELECT 2 AS a => csv:t" }]

def keepingRun : Except JobError Unit × Controller Rehearsal :=
  (Controller.new keepingJob engineOnly {} .empty { files := .empty, dir := .ofString "data" }
    { engine := [.output { stdout := "a\n5\n" }, .output { stdout := "a\n1\n" }] } 0).run

def demotingRun : Except JobError Unit × Controller Rehearsal :=
  (Controller.new demotingJob engineOnly {} .empty
    { files := keepingRun.2.current.store.files, dir := .ofString "data" }
    { engine := [.output { stdout := "a\n2\n" }] } 0).run

theorem exists_series_demotingRun :
    ∃ events, Series (.ofString "data") .empty events demotingRun.2.current.store.files := by
  have hkeeping : Job.ofLines keeping = .ok keepingJob := ofLines_unlooped (by decide +kernel) rfl
  have hdemoting : Job.ofLines demoting = .ok demotingJob :=
    ofLines_unlooped (by decide +kernel) rfl
  have hkept : keepingRun.1 = .ok () := eq_ok_of_toOption (by decide +kernel)
  have hdemoted : demotingRun.1 = .ok () := eq_ok_of_toOption (by decide +kernel)
  obtain ⟨first, hfirst⟩ := Controller.exists_course keepingJob engineOnly {} .empty
    { files := .empty, dir := .ofString "data" }
    { engine := [.output { stdout := "a\n5\n" }, .output { stdout := "a\n1\n" }] } 0
  have hseries : Series (.ofString "data") .empty ([] ++ first.flatMap Visit.events)
      keepingRun.2.current.store.files :=
    .run .none hkeeping rfl (by rw [keepingRun]; exact hfirst) (by rw [hkept]; exact unrefused_ok _)
  obtain ⟨second, hsecond⟩ := Controller.exists_course demotingJob engineOnly {} .empty
    { files := keepingRun.2.current.store.files, dir := .ofString "data" }
    { engine := [.output { stdout := "a\n2\n" }] } 0
  exact ⟨_, .run hseries hdemoting rfl (by rw [demotingRun]; exact hsecond)
    (by rw [hdemoted]; exact unrefused_ok _)⟩

theorem cached_tables_across_runs_demoting :
    FileTree.empty.isFile (manifestPath (.ofString "data")) = false ∧
      (demotingRun.2.current.store.files.read (manifestPath (.ofString "data"))).toOption =
        some "[\n  \"kept\"\n]" ∧
      ∃ events, Series (.ofString "data") .empty events demotingRun.2.current.store.files ∧
        Remembers (.ofString "data") events demotingRun.2.current.store.files ∧
        Finds (.ofString "data") events demotingRun.2.current.store.files := by
  have hempty : FileTree.empty.isFile (manifestPath (.ofString "data")) = false := by decide +kernel
  obtain ⟨events, hseries⟩ := exists_series_demotingRun
  exact ⟨hempty, by decide +kernel, events, hseries, cached_tables_across_runs hempty hseries⟩

end TableFlow.Run
