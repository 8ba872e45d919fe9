import TableFlow.Proofs.Run.Compare
import TableFlow.Proofs.Run.Dependencies

namespace TableFlow

/-- A table that a sink is to store again, if what was stored last under its name is to last as
well. -/
def Sink.kept? (past : List Run.Event) : Sink → Option (String × Table)
  | .localTable name true =>
    match Run.lastStored past name with
    | some (data, true) => some (name, data)
    | _ => none
  | _ => none

def Step.kept? (past : List Run.Event) (step : Step) : Option (String × Table) :=
  step.sinks.findSome? (Sink.kept? past)

def RunOptions.reusing (o : RunOptions) (reuse : Bool) : RunOptions :=
  { o with reuseCached := reuse }

namespace Run

open TableStore

/-- A step that would store a table again is answered with that table, and nobody is asked for
its result. Any other step is answered with no table. -/
def Visit.Reuses (past : List Event) (visit : Visit) : Prop :=
  match visit.step.kept? past with
  | some (name, data) => visit.result = some (.table data) ∧
      ∃ events, visit.events = .load name (.ok data) :: events ∧ ∀ event ∈ events, event.OfSink
  | none => ∀ name answer, .load name answer ∉ visit.events

variable {σ : Type} {b : Backends σ} {o o' : RunOptions} {step : Step} {shape : Shape}
  {s t t' : RunState σ} {outcome : Outcome} {events events' : List Event} {visit visit' : Visit}
  {tasks : List Task} {visits visits' : List Visit}

theorem Obtains.of_reused {r : Except JobError Outcome} {name : String}
    (h : Obtains b o step shape s events r t) (hr : reused? o s.store step = some name) :
    events = [.load name (Act.runFrom s.store (load name)).1] ∧
      r = ((Act.runFrom s.store (load name)).1.map .table).mapError .ofStore := by
  cases h with
  | reused hr' ha =>
      rw [hr] at hr'
      cases hr'
      rw [ha]
      exact ⟨rfl, rfl⟩
  | missing hr' | engine hr' | service hr' =>
      rw [hr] at hr'
      cases hr'

theorem Performs.not_loaded {r : Except JobError Outcome} (h : Performs b o step shape s visit r t)
    (hr : reused? o s.store step = none) (name : String) (answer : Except StoreError Table) :
    .load name answer ∉ visit.events := by
  have hobtains {events : List Event} {r : Except JobError Outcome} {t : RunState σ}
      (ho : Obtains b o step shape s events r t) : .load name answer ∉ events := by
    cases ho with
    | reused hr' =>
        rw [hr] at hr'
        cases hr'
    | missing => exact List.not_mem_nil
    | engine _ _ _ ha | service _ _ ha => cases ha <;> simp
  cases h with
  | withoutResult ho => exact hobtains ho
  | withResult ho hp =>
      intro he
      rcases List.mem_append.mp he with he | he
      · exact hobtains ho he
      · cases hp.ofSink _ he

theorem Performs.of_reused {r : Except JobError Outcome} {name : String} {data : Table}
    (h : Performs b o step shape s visit r t) (hr : reused? o s.store step = some name)
    (hl : (Act.runFrom s.store (load name)).1 = .ok data) :
    visit.result = some (.table data) ∧
      ∃ events, visit.events = .load name (.ok data) :: events ∧
        ∀ event ∈ events, event.OfSink := by
  cases h with
  | withoutResult ho =>
      obtain ⟨_, he⟩ := ho.of_reused hr
      rw [hl] at he
      cases he
  | withResult ho hp =>
      obtain ⟨rfl, he⟩ := ho.of_reused hr
      rw [hl] at he ⊢
      cases he
      exact ⟨rfl, _, rfl, hp.ofSink⟩

variable {past : List Event} {name : String} {data : Table}

theorem kept?_eq_some_iff {sink : Sink} :
    sink.kept? past = some (name, data) ↔ sink = .localTable name true ∧
      lastStored past name = some (data, true) := by
  unfold Sink.kept?
  split
  · split <;> grind
  · grind

theorem lastStored_of_kept? (h : step.kept? past = some (name, data)) :
    lastStored past name = some (data, true) := by
  obtain ⟨sink, _, hs⟩ := List.exists_of_findSome?_eq_some h
  exact (kept?_eq_some_iff.mp hs).2

section

variable {store : TableStore}

theorem isSome_kept?_of_reused? (hr : reused? o store step = some name)
    (hl : store.reusable name = true → ∃ data, lastStored past name = some (data, true)) :
    (step.kept? past).isSome = true := by
  obtain ⟨_, hsink, hreusable⟩ := mem_sinks_of_reused? hr
  obtain ⟨data, hl⟩ := hl hreusable
  exact List.findSome?_isSome_iff.mpr ⟨_, hsink, by rw [kept?_eq_some_iff.mpr ⟨rfl, hl⟩]; rfl⟩

theorem standIn_eq
    (hr : ∀ name, store.reusable name = true ↔ ∃ data, lastStored past name = some (data, true))
    (step : Step) : standIn store step = (step.kept? past).map Prod.fst := by
  rw [standIn, Step.kept?, List.map_findSome?]
  congr 1
  funext sink
  cases sink with
  | localTable name cached =>
      cases cached with
      | false => rfl
      | true =>
          by_cases hname : store.reusable name = true
          · obtain ⟨data, hl⟩ := (hr name).mp hname
            simp [hname, Sink.kept?, hl]
          · have hnone : Sink.kept? past (.localTable name true) = none := by
              refine Option.eq_none_iff_forall_ne_some.mpr fun p hk => ?_
              obtain ⟨hsink, hl⟩ := kept?_eq_some_iff.mp hk
              cases hsink
              exact hname ((hr _).mpr ⟨_, hl⟩)
            simp [hname, hnone]
  | _ => rfl

end

section FreshDirectory

variable {files : FileTree} {dir : Path} {past : List Event} {n : Nat} {found : TableStore}
  {name : String}

theorem entry?_of_fresh (hd : Discovers files dir [] (.ok n) found)
    (hm : files.isFile (manifestPath dir) = false) (name : String) : found.entry? name = none := by
  cases hd with
  | found _ _ hnames _ hentry =>
      obtain rfl := lists_unique hnames (.inl ⟨hm, rfl⟩)
      rw [hentry, if_neg (by simp)]

/-- A run that finds no tables can reuse only what it has stored itself. -/
theorem stored_of_reusable {store : TableStore} (hd : Discovers files dir [] (.ok n) found)
    (hm : files.isFile (manifestPath dir) = false) (hf : Follows found (lastStored past) store)
    (hr : store.reusable name = true) : ∃ data, lastStored past name = some (data, true) := by
  rw [reusable, hf.entry, entry?_of_fresh hd hm, Option.or_none, Bool.and_eq_true] at hr
  cases hl : lastStored past name with
  | none => simp [hl] at hr
  | some p =>
      obtain ⟨data, cached⟩ := p
      simp only [hl, Option.map_some, Option.any_some] at hr
      rw [hr.1]
      exact ⟨data, rfl⟩

theorem reusable_of_stored {store : TableStore} {data : Table}
    (hd : Discovers files dir [] (.ok n) found) (hf : Follows found (lastStored past) store)
    (hpast : Named (lastStored past)) (hl : lastStored past name = some (data, true)) :
    store.reusable name = true := by
  have hk : Known files dir [] past name := .inl (by rw [hl]; rfl)
  obtain ⟨hfile, _⟩ := holds_of_follows hd hf hpast (hpast name _ hl) hk
  rw [reusable, hf.entry, hl, path, hf.dir, dir_of_discovers hd, hfile]
  rfl

theorem load_of_stored {store : TableStore} (hd : Discovers files dir [] (.ok n) found)
    (hf : Follows found (lastStored past) store) (hpast : Named (lastStored past)) {cached : Bool}
    (hl : lastStored past name = some (data, cached)) :
    (Act.runFrom store (load name)).1 = .ok data := by
  have hk : Known files dir [] past name := .inl (by rw [hl]; rfl)
  obtain ⟨_, hholds⟩ := holds_of_follows hd hf hpast (hpast name _ hl) hk
  rw [Holds, hl] at hholds
  obtain ⟨text, hread, htext⟩ := hholds
  have hpath : store.path name = tablePath dir name := by rw [path, hf.dir, dir_of_discovers hd]
  simp only [runFrom_load, hpath, hread, htext]
  rfl

theorem Diverge.isSome_kept? {job : Job} {u : RunState σ} (h : Diverge o o' u.store visits visits')
    (ho' : o'.reuseCached = false) (hinputs : o.inputs = [])
    (hm : files.isFile (manifestPath dir) = false) (hs : s.store = { files, dir })
    (hopening : Act.runFrom s (opening job b o) = (.ok (), u)) :
    ∃ done visit later visit' later', visits = done ++ visit :: later ∧
      visits' = done ++ visit' :: later' ∧
      visit'.step = visit.step ∧ (visit.step.kept? (done.flatMap Visit.events)).isSome = true := by
  obtain ⟨done, visit, later, visit', later', store, hv, hv', hstep, hj, hne⟩ := h
  refine ⟨done, visit, later, visit', later', hv, hv', hstep, ?_⟩
  obtain ⟨n, found, hd, rfl⟩ := discovers_of_opening hs hopening
  rw [hinputs] at hd
  have hnone : reused? o' store visit.step = none := by simp [reused?, ho']
  rw [hnone] at hne
  obtain ⟨name, hname⟩ := Option.ne_none_iff_exists'.mp hne
  exact isSome_kept?_of_reused? hname (stored_of_reusable hd hm hj.follows)

/-- In a fresh directory every visit of a run that reuses tables is answered with a table of the
run itself or not with a table. -/
theorem Course.reuses {lines : List String} {job : Job} {r : Except JobError Unit}
    (h : Course job b o s visits r t) (hjob : Job.ofLines lines = .ok job)
    (ho : o.reuseCached = true) (hinputs : o.inputs = [])
    (hm : files.isFile (manifestPath dir) = false) (hs : s.store = { files, dir })
    {earlier later : List Visit} (hv : visits = earlier ++ visit :: later) :
    visit.Reuses (earlier.flatMap Visit.events) := by
  obtain ⟨n, found, shape, u, r', v, hd, hf, hp, _⟩ := h.at_visit hs hv
  obtain ⟨hpast, _⟩ := h.named hjob hv
  rw [hinputs] at hd
  have hreusable (name : String) :
      u.store.reusable name = true ↔ ∃ data, lastStored (earlier.flatMap Visit.events) name =
        some (data, true) :=
    ⟨stored_of_reusable hd hm hf, fun ⟨_, hl⟩ => reusable_of_stored hd hf hpast hl⟩
  have hreuse : reused? o u.store visit.step =
      (visit.step.kept? (earlier.flatMap Visit.events)).map Prod.fst := by
    rw [reused?, if_pos ho, standIn_eq hreusable]
  rw [Visit.Reuses]
  cases hk : visit.step.kept? (earlier.flatMap Visit.events) with
  | none =>
      rw [hk] at hreuse
      exact hp.not_loaded hreuse
  | some p =>
      rw [hk] at hreuse
      exact hp.of_reused hreuse (load_of_stored hd hf hpast (lastStored_of_kept? hk))

end FreshDirectory

/-- In a fresh directory the reuse of tables changes nothing up to the first step that would
store a table of the run itself again; such a step is answered with that table. -/
theorem reuse_takes_own_tables (job : Job) (b : Backends σ) {o : RunOptions}
    (hinputs : o.inputs = []) (bindings : Scope) {files : FileTree} {dir : Path}
    (hm : files.isFile (manifestPath dir) = false) (outside : σ) (runId : Nat) :
    let start : RunState σ := { store := { files, dir }, scope := bindings, outside }
    let c := (Controller.new job b (o.reusing true) bindings { files, dir } outside runId).run
    let c' := (Controller.new job b (o.reusing false) bindings { files, dir } outside runId).run
    ∃ visits visits', Course job b (o.reusing true) start visits c.1 c.2.current ∧
      Course job b (o.reusing false) start visits' c'.1 c'.2.current ∧
      ((visits = visits' ∧ c.1 = c'.1 ∧ c.2.current = c'.2.current ∧ c.2.report = c'.2.report) ∨
        ∃ done visit later visit' later', visits = done ++ visit :: later ∧
          visits' = done ++ visit' :: later' ∧
          visit'.step = visit.step ∧ (visit.step.kept? (done.flatMap Visit.events)).isSome = true) ∧
      (∀ visit ∈ visits', ∀ name answer, .load name answer ∉ visit.events) ∧
      ∀ lines, Job.ofLines lines = .ok job → ∀ earlier visit later,
        visits = earlier ++ visit :: later →
        visit.Reuses (earlier.flatMap Visit.events) := by
  intro start c c'
  obtain ⟨visits, hcourse⟩ :=
    Controller.exists_course job b (o.reusing true) bindings { files, dir } outside runId
  obtain ⟨visits', hcourse'⟩ :=
    Controller.exists_course job b (o.reusing false) bindings { files, dir } outside runId
  refine ⟨visits, visits', hcourse, hcourse', ?_, fun visit hv => ?_,
    fun lines hjob earlier visit later hv => ?_⟩
  · obtain ⟨hvisits, hresult, hcurrent⟩ | ⟨u, hopening, hdiverge⟩ :=
      hcourse.compare hcourse' rfl rfl rfl
    · exact .inl ⟨hvisits, hresult, hcurrent,
        Controller.report_congr job b bindings _ outside runId hresult hcurrent⟩
    · exact .inr (hdiverge.isSome_kept? rfl hinputs hm rfl hopening)
  · obtain ⟨earlier, later, hsplit⟩ := List.append_of_mem hv
    obtain ⟨_, _, _, _, _, _, _, _, hp, _⟩ := hcourse'.at_visit rfl hsplit
    exact hp.not_loaded rfl
  · exact hcourse.reuses hjob rfl hinputs hm rfl hv

def recomputing : List String :=
  ["SELECT 1 AS a => csv:t:cache", "SELECT 2 AS a => csv:t:cache => var:x"]

def recomputingJob : Job := .unlooped recomputing
  [{ line := 1, query := "SELECT 1 AS a", sinks := [.localTable "t" true],
     source := some (.localTables []),
     text := "SELECT 1 AS a => csv:t:cache" },
   { line := 2, query := "SELECT 2 AS a", sinks := [.localTable "t" true, .variable "x"],
     source := some (.localTables []),
     text := "SELECT 2 AS a => csv:t:cache => var:x" }]

theorem ofLines_recomputing : Job.ofLines recomputing = .ok recomputingJob :=
  ofLines_unlooped (by decide +kernel) rfl

def recomputingReplies : Rehearsal :=
  { engine := [.output { stdout := "a\n1\n" }, .output { stdout := "a\n2\n" }] }

def recomputingRun (reuse : Bool) : Except JobError Unit × Controller Rehearsal :=
  (Controller.new recomputingJob engineOnly (RunOptions.reusing {} reuse) .empty
    { files := .empty, dir := .ofString "data" } recomputingReplies 0).run

theorem bindings_recomputingRun :
    (recomputingRun true).2.report.bindings.get? "x" = some (.text "1") ∧
      (recomputingRun false).2.report.bindings.get? "x" = some (.text "2") := by
  decide +kernel

theorem reuse_takes_own_tables_recomputing :
    Job.ofLines recomputing = .ok recomputingJob ∧
      FileTree.empty.isFile (manifestPath (.ofString "data")) = false ∧
      ∃ visits, Course recomputingJob engineOnly (RunOptions.reusing {} true)
          { store := { files := .empty, dir := .ofString "data" }, scope := .empty,
            outside := recomputingReplies } visits
          (recomputingRun true).1 (recomputingRun true).2.current ∧
        ∃ earlier visit later, visits = earlier ++ visit :: later ∧
          (visit.step.kept? (earlier.flatMap Visit.events)).isSome = true ∧
            visit.Reuses (earlier.flatMap Visit.events) := by
  have hm : FileTree.empty.isFile (manifestPath (.ofString "data")) = false := by decide +kernel
  refine ⟨ofLines_recomputing, hm, ?_⟩
  obtain ⟨hreusing, hasking⟩ := bindings_recomputingRun
  rw [recomputingRun] at hreusing hasking ⊢
  obtain ⟨visits, visits', hcourse, _, hparts, _, hreuses⟩ :=
    reuse_takes_own_tables recomputingJob engineOnly
      (rfl : ({} : RunOptions).inputs = []) .empty hm recomputingReplies 0
  refine ⟨visits, hcourse, ?_⟩
  obtain ⟨_, _, _, hreport⟩ | ⟨earlier, visit, later, _, _, hv, _, _, hkept⟩ := hparts
  · rw [hreport, hasking] at hreusing
    simp at hreusing
  · exact ⟨earlier, visit, later, hv, hkept, hreuses _ ofLines_recomputing _ _ _ hv⟩

/-- The second step is answered with the table of the first one. The engine is asked once and
not twice, and neither the variable nor the table has the value that the step asks for. -/
theorem reuse_within_a_run :
    Job.ofLines recomputing = .ok recomputingJob ∧
      FileTree.empty.isFile (manifestPath (.ofString "data")) = false ∧
      ((recomputingRun true).2.report.bindings.get? "x" = some (.text "1") ∧
        (recomputingRun false).2.report.bindings.get? "x" = some (.text "2")) ∧
      ((recomputingRun true).2.current.outside.events.length = 1 ∧
        (recomputingRun false).2.current.outside.events.length = 2) ∧
      ((recomputingRun true).2.current.store.files.read
        (tablePath (.ofString "data") "t")).toOption = some "a\n1\n" ∧
      ((recomputingRun false).2.current.store.files.read
        (tablePath (.ofString "data") "t")).toOption = some "a\n2\n" :=
  ⟨ofLines_recomputing, by decide +kernel,
    bindings_recomputingRun, by decide +kernel, by decide +kernel, by decide +kernel⟩

end Run
end TableFlow
