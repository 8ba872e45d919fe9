import TableFlow.Proofs.Run.Dependencies
import TableFlow.Proofs.Store.Scratch

namespace TableFlow

namespace TableStore

/-- Only the manifest and tables of some names are other files than before. -/
structure Spares (named : String → Prop) (s t : TableStore) : Prop where
  dir : t.dir = s.dir
  file : ∀ place ≠ (manifestPath s.dir).resolve,
    (∀ name, named name → place ≠ (tablePath s.dir name).resolve) →
    t.files.file? place = s.files.file? place

variable {named : String → Prop} {s t u : TableStore} {name : String}

theorem Spares.refl (s : TableStore) : Spares named s s := ⟨rfl, fun _ _ _ => rfl⟩

theorem Spares.trans (h : Spares named s u) (h' : Spares named u t) : Spares named s t where
  dir := h'.dir.trans h.dir
  file place hmanifest htable := by
    rw [← h.file place hmanifest htable]
    apply h'.file place
    · rw [h.dir]
      exact hmanifest
    · rw [h.dir]
      exact htable

theorem spares_store {data : Table} {cached : Bool} {answer : Except StoreError Path}
    (hname : named name) (h : Act.runFrom s (store name data cached) = (answer, t)) :
    Spares named s t := by
  have hresult := store_result s name data cached
  rw [h] at hresult
  cases answer with
  | ok path =>
      cases hresult with
      | stored _ hdir _ _ hfile =>
          refine ⟨hdir, fun place hmanifest htable => ?_⟩
          rw [hfile, if_neg fun hp => hmanifest hp.2, path, if_neg (htable name hname)]
  | error e =>
      obtain ⟨written, hunstored⟩ := hresult
      cases hunstored with
      | noColumns => exact .refl s
      | table _ hdir _ _ hfile => exact ⟨hdir, fun place _ _ => hfile place⟩
      | manifest _ _ hdir _ _ hfile =>
          refine ⟨hdir, fun place _ htable => ?_⟩
          rw [hfile, path, if_neg (htable name hname)]

theorem not_produced_of_discovers {files : FileTree} {dir : Path} {inputs : List String} {n : Nat}
    {found : TableStore} {entry : TableEntry} (h : Discovers files dir inputs (.ok n) found)
    (he : found.entry? name = some entry) :
    entry.produced = false := by
  cases h with
  | found _ _ _ _ hentry =>
      rw [hentry] at he
      split at he
      · cases he
        rfl
      · cases he

end TableStore

namespace Run

open TableStore

/-- The files of tables that an event writes, loads or hands to the engine. -/
def Event.tableFiles (dir : Path) : Event → List Path
  | .request _ (.query _ _ imports _) _ _ => imports.map Prod.snd
  | .request _ (.mutate ..) _ _ => []
  | .load name _ => [tablePath dir name]
  | .store name _ _ _ => [tablePath dir name]
  | .bind .. => []

def Event.Within (named : String → Prop) (dir : Path) (event : Event) : Prop :=
  ∀ p ∈ event.tableFiles dir, ∃ name, named name ∧ p = tablePath dir name

variable {σ : Type} {b : Backends σ} {o : RunOptions} {step : Step} {shape : Shape}
  {s t : RunState σ} {outcome : Outcome} {events : List Event} {visit : Visit} {visits : List Visit}
  {tasks : List Task} {named : String → Prop} {dir : Path}

theorem within_load {name : String} {answer : Except StoreError Table} (hname : named name) :
    (Event.load name answer).Within named dir := by
  intro p hp
  exact ⟨name, hname, List.mem_singleton.mp hp⟩

theorem within_store {name : String} {data : Table} {cached : Bool}
    {answer : Except StoreError Path} (hname : named name) :
    (Event.store name data cached answer).Within named dir := by
  intro p hp
  exact ⟨name, hname, List.mem_singleton.mp hp⟩

theorem Asks.store_eq {endpoint : Option Endpoint} {request : Request} {r : Except JobError Outcome}
    (h : Asks b s endpoint request events r t) : t.store = s.store := by
  cases h <;> rfl

theorem Asks.within {endpoint : Option Endpoint} {request : Request} {r : Except JobError Outcome}
    (h : Asks b s endpoint request events r t)
    (hrequest : ∀ files answer, (Event.request endpoint request files answer).Within named dir) :
    ∀ event ∈ events, event.Within named dir := by
  cases h with
  | unconfigured => exact List.forall_mem_nil _
  | answered =>
      intro event he
      rw [List.mem_singleton.mp he]
      exact hrequest _ _

theorem Asks.within_mutate {endpoint : Option Endpoint} {op : MutationOp} {object : String}
    {rows : Table} {r : Except JobError Outcome}
    (h : Asks b s endpoint (.mutate op object rows) events r t) :
    ∀ event ∈ events, event.Within named dir :=
  h.within fun _ _ => List.forall_mem_nil _

theorem Obtains.store_eq {r : Except JobError Outcome} (h : Obtains b o step shape s events r t) :
    t.store = s.store := by
  cases h with
  | reused _ ha => exact eq_of_runFrom_load ha
  | missing => rfl
  | engine _ _ _ ha => exact ha.store_eq
  | service _ _ ha => exact ha.store_eq

theorem Obtains.within {r : Except JobError Outcome} (h : Obtains b o step shape s events r t)
    (hn : ∀ name ∈ step.tables, named name) : ∀ event ∈ events, event.Within named s.store.dir := by
  cases h with
  | reused hreused =>
      obtain ⟨_, hsink, _⟩ := mem_sinks_of_reused? hreused
      intro event he
      rw [List.mem_singleton.mp he]
      apply within_load
      apply hn
      exact List.mem_append_left _ (List.mem_flatMap.mpr ⟨_, hsink, List.mem_singleton_self _⟩)
  | missing => exact List.forall_mem_nil _
  | engine _ _ hresolve ha =>
      obtain ⟨rfl, _⟩ := resolve_eq_ok hresolve
      refine ha.within fun files answer p hp => ?_
      rw [Event.tableFiles, List.map_map] at hp
      obtain ⟨name, hname, rfl⟩ := List.mem_map.mp hp
      exact ⟨name, hn name (List.mem_append_right _ hname), rfl⟩
  | service _ _ ha => exact ha.within fun _ _ => List.forall_mem_nil _

theorem Applies.spares {sink : Sink} {r : Except JobError Unit}
    (h : Applies b outcome s sink events r t) (hn : ∀ name ∈ sink.tables, named name) :
    Spares named s.store t.store := by
  cases h with
  | stored ha => exact spares_store (hn _ (List.mem_singleton_self _)) ha
  | bound => exact .refl _
  | refused ha | mutated ha =>
      rw [ha.store_eq]
      exact .refl _
  | keptIds ha hstore =>
      rw [ha.store_eq] at hstore
      exact spares_store (hn _ (List.mem_singleton_self _)) hstore

theorem Applies.within {sink : Sink} {r : Except JobError Unit}
    (h : Applies b outcome s sink events r t) (hn : ∀ name ∈ sink.tables, named name) :
    ∀ event ∈ events, event.Within named dir := by
  cases h with
  | stored => exact List.forall_mem_singleton.mpr (within_store (hn _ (List.mem_singleton_self _)))
  | bound => exact List.forall_mem_singleton.mpr (List.forall_mem_nil _)
  | refused ha | mutated ha => exact ha.within_mutate
  | keptIds ha =>
      refine List.forall_mem_append.mpr ⟨ha.within_mutate, List.forall_mem_singleton.mpr ?_⟩
      exact within_store (hn _ (List.mem_singleton_self _))

theorem Pours.spares {sinks : List Sink} {r : Except JobError Unit}
    (h : Pours b outcome s sinks events r t) (hn : ∀ name ∈ sinks.flatMap Sink.tables, named name) :
    Spares named s.store t.store := by
  induction h with
  | done => exact .refl _
  | failed ha =>
      rw [List.flatMap_cons, List.forall_mem_append] at hn
      exact ha.spares hn.1
  | next ha _ ih =>
      rw [List.flatMap_cons, List.forall_mem_append] at hn
      exact (ha.spares hn.1).trans (ih hn.2)

theorem Pours.within {sinks : List Sink} {r : Except JobError Unit}
    (h : Pours b outcome s sinks events r t) (hn : ∀ name ∈ sinks.flatMap Sink.tables, named name) :
    ∀ event ∈ events, event.Within named dir := by
  induction h with
  | done => exact List.forall_mem_nil _
  | failed ha =>
      rw [List.flatMap_cons, List.forall_mem_append] at hn
      exact ha.within hn.1
  | next ha _ ih =>
      rw [List.flatMap_cons, List.forall_mem_append] at hn
      exact List.forall_mem_append.mpr ⟨ha.within hn.1, ih hn.2⟩

theorem Performs.spares {r : Except JobError Outcome} (h : Performs b o step shape s visit r t)
    (hn : ∀ name ∈ step.tables, named name) : Spares named s.store t.store := by
  cases h with
  | withoutResult ho =>
      rw [ho.store_eq]
      exact .refl _
  | withResult ho hp =>
      have hsinks := hp.spares (List.forall_mem_append.mp hn).1
      rw [← ho.store_eq]
      exact hsinks

theorem Performs.within {r : Except JobError Outcome} (h : Performs b o step shape s visit r t)
    (hn : ∀ name ∈ step.tables, named name) :
    ∀ event ∈ visit.events, event.Within named s.store.dir := by
  cases h with
  | withoutResult ho => exact ho.within hn
  | withResult ho hp =>
      exact List.forall_mem_append.mpr ⟨ho.within hn, hp.within (List.forall_mem_append.mp hn).1⟩

theorem Walks.confined {r : Except JobError Unit} (h : Walks b o tasks s visits r t)
    (hn : ∀ visit ∈ visits, ∀ name ∈ visit.step.tables, named name) :
    Spares named s.store t.store ∧ ∀ event ∈ visits.flatMap Visit.events,
      event.Within named s.store.dir := by
  induction h with
  | done => exact ⟨.refl _, List.forall_mem_nil _⟩
  | skipped _ _ ih => exact ih hn
  | iteration _ ih => exact ih hn
  | rejoin _ ih => exact ih hn
  | failed _ hp =>
      have hstep := hn _ (List.mem_singleton_self _)
      rw [hp.step_eq] at hstep
      rw [List.flatMap_singleton]
      exact ⟨hp.spares hstep, hp.within hstep⟩
  | executed _ hp _ ih =>
      obtain ⟨hfirst, hrest⟩ := List.forall_mem_cons.mp hn
      rw [hp.step_eq] at hfirst
      have hspares := hp.spares hfirst
      obtain ⟨hlater, hwithin⟩ := ih hrest
      rw [hspares.dir] at hwithin
      rw [List.flatMap_cons]
      exact ⟨hspares.trans hlater, List.forall_mem_append.mpr ⟨hp.within hfirst, hwithin⟩⟩

/-- A run has written what it has stored, and nothing of what it found. -/
theorem produced_iff_lastStored {files : FileTree} {inputs : List String} {n : Nat}
    {found u : TableStore} {name : String} {cached : Bool}
    (hfound : Discovers files dir inputs (.ok n) found) (hf : Follows found (lastStored events) u) :
    u.entry? name = some ⟨cached, true⟩ ↔ ∃ data, lastStored events name = some (data, cached) := by
  rw [hf.entry]
  cases hlast : lastStored events name with
  | some p => simp [Prod.ext_iff]
  | none =>
      simp only [Option.map_none, Option.none_or, reduceCtorEq, exists_false, iff_false]
      intro hentry
      cases not_produced_of_discovers hfound hentry

/-- The cleanup takes away what the walk has stored, and so keeps to the same names. -/
theorem Walks.isName_scratch {files : FileTree} {inputs : List String} {n : Nat}
    (h : Walks b o tasks s visits (.ok ()) t) (hfound : Discovers files dir inputs (.ok n) s.store)
    (hn : Named (lastStored (visits.flatMap Visit.events))) :
    ∀ name ∈ t.store.scratch, Directive.isName name = true := by
  intro name hname
  have hfollows := (h.journal (unrefused_ok _)).follows
  obtain ⟨data, hlast⟩ := (produced_iff_lastStored hfound hfollows).mp (mem_scratch_iff.mp hname)
  exact hn name _ hlast

/-- Events and changes of files that keep to a directory: to its manifest and to tables of
letters, digits and underscores in it. -/
def Confined (dir : Path) (before after : FileTree) (events : List Event) : Prop :=
  (∀ event ∈ events, event.Within (Directive.isName · = true) dir) ∧
    ∀ place, after.file? place ≠ before.file? place →
      place = (manifestPath dir).resolve ∨ ∃ name, Directive.isName name = true ∧
        place = (tablePath dir name).resolve

theorem Course.confined {lines : List String} {job : Job} {files : FileTree}
    {r : Except JobError Unit} (h : Course job b o s visits r t)
    (hjob : Job.ofLines lines = .ok job) (hs : s.store = { files, dir }) :
    Confined dir files t.store.files (visits.flatMap Visit.events) := by
  have hnames := isName_of_mem_tasks hjob
  obtain ⟨e, hopening, rfl, rfl⟩ | ⟨u, r', v, hopening, hwalk, hending⟩ := h.unopened_or_walks
  · refine ⟨List.forall_mem_nil _, fun place hplace => ?_⟩
    exact absurd (file?_of_opening hs hopening place) hplace
  · obtain ⟨n, found, hfound, rfl⟩ := discovers_of_opening hs hopening
    have hdir : found.dir = dir := dir_of_discovers hfound
    obtain ⟨hspares, hwithin⟩ := hwalk.confined fun visit hv => hnames _ (hwalk.step_mem visit hv)
    dsimp only at hspares hwithin
    rw [hdir] at hwithin
    refine ⟨hwithin, fun place hplace => ?_⟩
    by_cases hmanifest : place = (manifestPath dir).resolve
    · exact .inl hmanifest
    by_cases htable : ∃ name, Directive.isName name = true ∧ place = (tablePath dir name).resolve
    · exact .inr htable
    exfalso
    have houtside (name : String) (hname : Directive.isName name = true) : place ≠
        (tablePath dir name).resolve :=
      fun hp => htable ⟨name, hname, hp⟩
    have hwalked : v.store.files.file? place = files.file? place := by
      rw [hspares.file place (by rw [hdir]; exact hmanifest) (by rw [hdir]; exact houtside)]
      exact file?_of_discovers hfound place
    have hscratch (hr : r' = .ok ()) : ∀ name ∈ v.store.scratch,
        place ≠ (v.store.path name).resolve := by
      intro name hname
      subst hr
      rw [path, hspares.dir, hdir]
      apply houtside
      exact hwalk.isName_scratch hfound (hwalk.named hnames (List.Subset.refl _)) name hname
    have hended : (ending o r' v).2.store.files.file? place = v.store.files.file? place :=
      file?_of_ending hscratch
    rw [hending] at hended
    exact hplace (hended.trans hwalked)

/-- Scripts do not get out of the data directory, whatever their lines hold. An accepted one has
proper names alone, tables of such names are files right in the directory, each its own and none
the manifest, and a run of it writes, removes, loads and hands to the engine no others. -/
theorem tables_stay_in_directory {lines : List String} {job : Job}
    (hjob : Job.ofLines lines = .ok job) (b : Backends σ) (o : RunOptions) (bindings : Scope)
    (files : FileTree) (dir : Path) (outside : σ) (runId : Nat) :
    let start : RunState σ := { store := { files, dir }, scope := bindings, outside }
    let c := (Controller.new job b o bindings { files, dir } outside runId).run
    (∃ steps, Step.ofLines lines = .ok steps ∧
      ∀ step ∈ steps, ∀ name ∈ step.names, Directive.isName name = true) ∧
      (∀ name, Directive.isName name = true →
        (tablePath dir name).resolve = dir.resolve ++ [name ++ ".csv"] ∧
          (tablePath dir name).resolve ≠ (manifestPath dir).resolve ∧
          ∀ other, Directive.isName other = true →
            (tablePath dir other).resolve = (tablePath dir name).resolve →
            other = name) ∧
      ∃ visits, Course job b o start visits c.1 c.2.current ∧
        Confined dir files c.2.current.store.files (visits.flatMap Visit.events) := by
  intro start c
  refine ⟨?_, fun name hname =>
    ⟨resolve_tablePath hname, resolve_tablePath_ne_manifestPath dir name, ?_⟩, ?_⟩
  · obtain ⟨steps, hsteps, _⟩ := bind_eq_ok_iff.mp hjob
    exact ⟨steps, hsteps, Step.isName_of_ofLogicalLines hsteps⟩
  · intro other hother heq
    exact (resolve_tablePath_inj hother hname).mp heq
  · obtain ⟨visits, hcourse⟩ :=
      Controller.exists_course job b o bindings { files, dir } outside runId
    exact ⟨visits, hcourse, hcourse.confined hjob rfl⟩

def tidying : List String :=
  ["SELECT 1 AS a => csv:t", "SELECT a FROM csv.t => csv:u:cache => var:x"]

def tidyingSteps : List Step :=
  [{ line := 1, query := "SELECT 1 AS a", sinks := [.localTable "t" false],
     source := some (.localTables []),
     text := "SELECT 1 AS a => csv:t" },
   { line := 2, query := "SELECT a FROM t", sinks := [.localTable "u" true, .variable "x"],
     source := some (.localTables ["t"]), text := "SELECT a FROM csv.t => csv:u:cache => var:x" }]

def tidyingJob : Job := .unlooped tidying tidyingSteps

theorem ofLines_tidying : Job.ofLines tidying = .ok tidyingJob :=
  ofLines_unlooped (by decide +kernel) rfl

def tidyingFiles : FileTree :=
  (FileTree.empty.place (.ofString "data/old.csv") (.text "b\n2\n")).place (.ofString "other.csv")
    (.text "c\n3\n")

def tidyingOptions : RunOptions := { cleanupScratch := true, inputs := ["../other"] }

def tidyingReplies : Rehearsal := { engine := [.output { stdout := "a\n1\n" }, .dump "t"] }

def tidyingRun : Except JobError Unit × Controller Rehearsal :=
  (Controller.new tidyingJob engineOnly tidyingOptions .empty
    { files := tidyingFiles, dir := .ofString "data" }
    tidyingReplies 0).run

theorem tables_stay_in_directory_tidying :
    Job.ofLines tidying = .ok tidyingJob ∧ tidyingRun.2.report.error = none ∧
      tidyingRun.2.current.store.files.below (.ofString "") =
        [("data/.sluice-cached.json", "[\n  \"u\"\n]"), ("data/old.csv", "b\n2\n"),
          ("data/u.csv", "a\n1\n"), ("other.csv", "c\n3\n")] ∧
      (∃ steps, Step.ofLines tidying = .ok steps ∧
        ∀ step ∈ steps, ∀ name ∈ step.names, Directive.isName name = true) ∧
      ∃ visits, Course tidyingJob engineOnly tidyingOptions
          { store := { files := tidyingFiles, dir := .ofString "data" }, scope := .empty,
            outside := tidyingReplies } visits
          tidyingRun.1 tidyingRun.2.current ∧
        Confined (.ofString "data") tidyingFiles tidyingRun.2.current.store.files
          (visits.flatMap Visit.events) := by
  have hresult : tidyingRun.2.report.error = none := by decide +kernel
  have hbelow : tidyingRun.2.current.store.files.below (.ofString "") =
      [("data/.sluice-cached.json", "[\n  \"u\"\n]"), ("data/old.csv", "b\n2\n"),
        ("data/u.csv", "a\n1\n"), ("other.csv", "c\n3\n")] := by decide +kernel
  rw [tidyingRun] at hresult hbelow ⊢
  obtain ⟨hnames, _, hrun⟩ :=
    tables_stay_in_directory ofLines_tidying engineOnly tidyingOptions .empty tidyingFiles
      (.ofString "data") tidyingReplies 0
  exact ⟨ofLines_tidying, hresult, hbelow, hnames, hrun⟩

end Run
end TableFlow
