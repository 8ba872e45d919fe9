import TableFlow.Proofs.Run.Confinement

namespace TableFlow

theorem Controller.tablesWritten_run {σ : Type} (job : Job) (b : Backends σ) (o : RunOptions)
    (bindings : Scope) (store : TableStore) (outside : σ) (runId : Nat) :
    let c := (Controller.new job b o bindings store outside runId).run
    c.2.report.tablesWritten = c.2.current.store.written := by
  intro c
  simp only [c, Controller.run, Controller.new]
  generalize Act.runFrom { store, scope := bindings, outside } (Controller.execute job b o) = ended
  obtain ⟨_ | _, t⟩ := ended <;> rfl

namespace Run

open TableStore

/-- What a cleanup makes of files. The tables that are not to last are gone, and every other
file is as it was, those of the tables that the manifest lists with it. -/
structure Tidies (dir : Path) (last : String → Option (Table × Bool)) (before after : FileTree) :
    Prop where
  removed : ∀ name data, last name = some (data, false) →
    before.isFile (tablePath dir name) = true ∧ after.isFile (tablePath dir name) = false
  kept : ∀ place, (∀ name data, last name = some (data, false) →
    place ≠ (tablePath dir name).resolve) →
    after.file? place = before.file? place
  listed : ∃ names, Lists after dir names ∧ ∀ name ∈ names,
    (∀ data, last name ≠ some (data, false)) ∧
    (Directive.isName name = true → after.file? (tablePath dir name).resolve =
      before.file? (tablePath dir name).resolve)

/-- The tables that a run is said to have written are all that it has stored and not cleaned up,
and are there. -/
structure Accounts (dir : Path) (last : String → Option (Table × Bool)) (cleaned : Prop)
    (files : FileTree) (names : List String) : Prop where
  ordered : names.Pairwise (· < ·)
  mem_iff : ∀ name, name ∈ names ↔ ∃ data cached, last name = some (data, cached) ∧
    (cleaned → cached = true)
  file : ∀ name ∈ names, ∀ data cached, last name = some (data, cached) →
    ∃ text, files.read (tablePath dir name) = .ok text ∧ Table.ofCsv text = .ok data

variable {σ : Type} {b : Backends σ} {o : RunOptions} {s t : RunState σ}
  {r r' : Except JobError Unit} {dir : Path} {files : FileTree} {inputs : List String} {n : Nat}
  {found u v : TableStore} {events : List Event} {name : String} {data : Table} {cached : Bool}
  {gone : List String} {visits : List Visit} {lines : List String} {job : Job}

/-- A run that has completed and is to clean up takes its scratch tables off at its end. Nothing
else changes there. -/
theorem removes_of_ending (h : ending o r s = (r', t)) (hr : Unrefused r') :
    r' = r ∧ ∃ gone, Removes s.store gone t.store ∧
      ∀ name, name ∈ gone ↔ (o.cleanupScratch = true ∧ r' = .ok ()) ∧ name ∈ s.store.scratch := by
  cases r with
  | error e =>
      cases h
      exact ⟨rfl, [], .nil _, fun name => by simp⟩
  | ok =>
      rw [ending, closing] at h
      by_cases ho : o.cleanupScratch = true
      · rw [if_pos ho, Act.runFrom_bind, runFrom_onStore] at h
        obtain ⟨store, hcleanup, hremoves⟩ | ⟨fault, store, hcleanup⟩ :=
          cleanup_cases s.store <;> rw [hcleanup] at h <;>
            cases h
        · exact ⟨rfl, _, hremoves, fun name => by simp [ho]⟩
        · exact absurd rfl (hr fault)
      · rw [if_neg ho] at h
        cases h
        exact ⟨rfl, [], .nil _, fun name => by simp [ho]⟩

theorem file?_of_lastStored (hd : Discovers files dir inputs (.ok n) found)
    (hf : Follows found (lastStored events) u) (hn : Named (lastStored events))
    (hlast : lastStored events name = some (data, cached)) :
    u.files.file? (tablePath dir name).resolve = some (.text data.toCsv) := by
  have hfile := hf.file hn name (hn name _ hlast)
  rwa [dir_of_discovers hd, hlast] at hfile

theorem mem_scratch_iff_lastStored (hd : Discovers files dir inputs (.ok n) found)
    (hf : Follows found (lastStored events) u) :
    name ∈ u.scratch ↔ ∃ data, lastStored events name = some (data, false) :=
  mem_scratch_iff.trans (produced_iff_lastStored hd hf)

theorem tidies_of_removes (hd : Discovers files dir inputs (.ok n) found)
    (hf : Follows found (lastStored events) u) (hn : Named (lastStored events))
    (hremoves : Removes u u.scratch v) : Tidies dir (lastStored events) u.files v.files := by
  have hdir : u.dir = dir := hf.dir.trans (dir_of_discovers hd)
  have hkept (place : List String)
      (hplace : ∀ name data, lastStored events name = some (data, false) →
        place ≠ (tablePath dir name).resolve) :
      v.files.file? place = u.files.file? place := by
    rw [hremoves.file, if_neg]
    rintro ⟨name, hname, hp⟩
    obtain ⟨data, hlast⟩ := (mem_scratch_iff_lastStored hd hf).mp hname
    rw [hdir] at hp
    exact hplace name data hlast hp
  refine ⟨fun name data hlast => ?_, hkept, ?_⟩
  · have hscratch := (mem_scratch_iff_lastStored hd hf).mpr ⟨data, hlast⟩
    rw [FileTree.isFile_eq, FileTree.isFile_eq, file?_of_lastStored hd hf hn hlast, hremoves.file,
      if_pos ⟨name, hscratch, by rw [hdir]⟩]
    exact ⟨rfl, rfl⟩
  · obtain ⟨names, hnames, hlisted⟩ := hf.manifest hn (isCurrent_of_discovers hd)
    rw [hdir] at hnames
    have hmanifest :=
      hkept (manifestPath dir).resolve fun name _ _ =>
        (resolve_tablePath_ne_manifestPath dir name).symm
    refine ⟨names, (lists_congr hmanifest).mpr hnames, fun name hname => ?_⟩
    have hlast (data : Table) : lastStored events name ≠ some (data, false) := by
      intro hlast
      have hcontains := hf.listed name
      rw [hlisted, Std.ExtTreeSet.contains_ofList, List.contains_iff_mem.mpr hname,
        hlast] at hcontains
      cases hcontains
    refine ⟨hlast, fun hproper => hkept _ fun other data hother hplace => ?_⟩
    -- Proper names have files of their own, so that the file of a listed table is none of those
    -- that go.
    rw [(resolve_tablePath_inj hproper (hn other _ hother)).mp hplace] at hlast
    exact hlast data hother

theorem accounts_of_removes {cleaned : Prop} (hd : Discovers files dir inputs (.ok n) found)
    (hf : Follows found (lastStored events) u) (hn : Named (lastStored events))
    (hremoves : Removes u gone v) (hgone : ∀ name, name ∈ gone ↔ cleaned ∧ name ∈ u.scratch) :
    Accounts dir (lastStored events) cleaned v.files v.written := by
  have hdir : u.dir = dir := hf.dir.trans (dir_of_discovers hd)
  have hmem (name : String) (cached : Bool) : v.entry? name = some ⟨cached, true⟩ ↔
      ∃ data, lastStored events name = some (data, cached) ∧ (cleaned → cached = true) := by
    rw [hremoves.entry]
    by_cases hname : name ∈ gone
    · rw [if_pos hname]
      obtain ⟨hcleaned, hscratch⟩ := (hgone name).mp hname
      obtain ⟨data, hlast⟩ := (mem_scratch_iff_lastStored hd hf).mp hscratch
      simp [hlast, hcleaned]
    · rw [if_neg hname, produced_iff_lastStored hd hf]
      refine exists_congr fun data => (and_iff_left_of_imp fun hlast hcleaned => ?_).symm
      rw [hgone, mem_scratch_iff_lastStored hd hf] at hname
      cases cached with
      | true => rfl
      | false => exact absurd ⟨hcleaned, data, hlast⟩ hname
  have hmem_iff (name : String) : name ∈ v.written ↔
      ∃ data cached, lastStored events name = some (data, cached) ∧ (cleaned → cached = true) := by
    rw [mem_written_iff, exists_comm]
    exact exists_congr fun cached => hmem name cached
  refine ⟨pairwise_written v, hmem_iff, fun name hname data cached hlast => ?_⟩
  have hfile := file?_of_lastStored hd hf hn hlast
  refine ⟨data.toCsv, FileTree.read_eq_ok_iff.mpr ?_, Table.ofCsv_toCsv (hf.columns name _ hlast)⟩
  rw [hremoves.file, if_neg]
  · exact hfile
  · rintro ⟨other, hother, hplace⟩
    obtain ⟨hcleaned, hscratch⟩ := (hgone other).mp hother
    obtain ⟨data', hlast'⟩ := (mem_scratch_iff_lastStored hd hf).mp hscratch
    rw [hdir] at hplace
    obtain rfl := (resolve_tablePath_inj (hn name _ hlast) (hn other _ hlast')).mp hplace
    obtain ⟨data'', cached'', hlast'', hkept⟩ := (hmem_iff name).mp hname
    rw [hlast'] at hlast''
    cases hlast''
    cases hkept hcleaned

theorem Course.tidies (h : Course job b o s visits (.ok ()) t) (hjob : Job.ofLines lines = .ok job)
    (hs : s.store = { files, dir }) (ho : o.cleanupScratch = true) :
    ∃ opened walked, Act.runFrom s (opening job b o) = (.ok (), opened) ∧
      Act.runFrom opened (runNodes b o job.nodes) = (.ok (), walked) ∧
      Tidies dir (lastStored (visits.flatMap Visit.events)) walked.store.files t.store.files := by
  cases h with
  | @walked opened _ walked _ _ hopening hnodes hw hclosing =>
      refine ⟨opened, walked, hopening, hnodes, ?_⟩
      obtain ⟨n, found, hd, rfl⟩ := discovers_of_opening hs hopening
      rw [closing, if_pos ho, Act.runFrom_bind, runFrom_onStore] at hclosing
      obtain ⟨store, hcleanup, hremoves⟩ | ⟨fault, store, hcleanup⟩ :=
        cleanup_cases walked.store <;>
          rw [hcleanup] at hclosing <;> cases hclosing
      have hnamed := hw.named (isName_of_mem_tasks hjob) (List.Subset.refl _)
      exact tidies_of_removes hd (hw.journal (unrefused_ok _)).follows hnamed hremoves

theorem Course.accounts {opened : RunState σ} (h : Course job b o s visits r t)
    (hjob : Job.ofLines lines = .ok job) (hs : s.store = { files, dir })
    (hopened : Act.runFrom s (opening job b o) = (.ok (), opened)) (hr : Unrefused r) :
    Accounts dir (lastStored (visits.flatMap Visit.events))
      (o.cleanupScratch = true ∧ r = .ok ()) t.store.files
      t.store.written := by
  obtain ⟨e, hopening, _⟩ | ⟨u, r', v, hopening, hw, hending⟩ := h.unopened_or_walks
  · rw [hopened] at hopening
    cases hopening
  · obtain ⟨n, found, hd, rfl⟩ := discovers_of_opening hs hopening
    obtain ⟨rfl, gone, hremoves, hgone⟩ := removes_of_ending hending hr
    have hnamed := hw.named (isName_of_mem_tasks hjob) (List.Subset.refl _)
    exact accounts_of_removes hd (hw.journal hr).follows hnamed hremoves hgone

/-- A run that completes and cleans up removes the tables that it stored last for itself alone
and no other file, and a report of any run that the system has refused nothing tells which of
its tables are there. -/
theorem cleanup_removes_own_scratch (hjob : Job.ofLines lines = .ok job) (b : Backends σ)
    (o : RunOptions) (bindings : Scope) (files : FileTree) (dir : Path) (outside : σ)
    (runId : Nat) :
    let start : RunState σ := { store := { files, dir }, scope := bindings, outside }
    let c := (Controller.new job b o bindings { files, dir } outside runId).run
    ∃ visits, Course job b o start visits c.1 c.2.current ∧
      (c.1 = .ok () → o.cleanupScratch = true → ∃ opened walked,
        Act.runFrom start (opening job b o) = (.ok (), opened) ∧
          Act.runFrom opened (runNodes b o job.nodes) = (.ok (), walked) ∧
          Tidies dir (lastStored (visits.flatMap Visit.events)) walked.store.files
            c.2.current.store.files) ∧
      ∀ opened, Act.runFrom start (opening job b o) = (.ok (), opened) → Unrefused c.1 →
        Accounts dir (lastStored (visits.flatMap Visit.events))
          (o.cleanupScratch = true ∧ c.1 = .ok ())
          c.2.current.store.files c.2.report.tablesWritten := by
  intro start c
  have hwritten : c.2.report.tablesWritten = c.2.current.store.written :=
    Controller.tablesWritten_run job b o bindings { files, dir } outside runId
  obtain ⟨visits, hcourse⟩ := Controller.exists_course job b o bindings { files, dir } outside runId
  refine ⟨visits, hcourse, fun hok hcleanup => ?_, fun opened hopened hr => ?_⟩
  · rw [hok] at hcourse
    exact hcourse.tidies hjob rfl hcleanup
  · rw [hwritten]
    exact hcourse.accounts hjob rfl hopened hr

theorem cleanup_removes_own_scratch_tidying :
    Job.ofLines tidying = .ok tidyingJob ∧ tidyingRun.1 = .ok () ∧
      tidyingOptions.cleanupScratch = true ∧
      tidyingRun.2.report.tablesWritten = ["u"] ∧
      ∃ visits opened walked, Course tidyingJob engineOnly tidyingOptions
          { store := { files := tidyingFiles, dir := .ofString "data" }, scope := .empty,
            outside := tidyingReplies } visits
          tidyingRun.1 tidyingRun.2.current ∧
        Act.runFrom { store := { files := tidyingFiles, dir := .ofString "data" }, scope := .empty,
                      outside := tidyingReplies }
          (opening tidyingJob engineOnly tidyingOptions) = (.ok (), opened) ∧
        Act.runFrom opened (runNodes engineOnly tidyingOptions tidyingJob.nodes) =
          (.ok (), walked) ∧
        Tidies (.ofString "data") (lastStored (visits.flatMap Visit.events)) walked.store.files
          tidyingRun.2.current.store.files ∧
        Accounts (.ofString "data") (lastStored (visits.flatMap Visit.events))
          (tidyingOptions.cleanupScratch = true ∧ tidyingRun.1 = .ok ())
            tidyingRun.2.current.store.files
          tidyingRun.2.report.tablesWritten := by
  have hresult : tidyingRun.1 = .ok () := eq_ok_of_toOption (by decide +kernel)
  have hwritten : tidyingRun.2.report.tablesWritten = ["u"] := by decide +kernel
  rw [tidyingRun] at hresult hwritten ⊢
  obtain ⟨visits, hcourse, hcompleted, hreport⟩ :=
    cleanup_removes_own_scratch ofLines_tidying engineOnly tidyingOptions .empty tidyingFiles
      (.ofString "data") tidyingReplies 0
  obtain ⟨opened, walked, hopening, hnodes, htidies⟩ := hcompleted hresult rfl
  exact ⟨ofLines_tidying, hresult, rfl, hwritten, visits, opened, walked, hcourse, hopening,
    hnodes, htidies, hreport opened hopening (by rw [hresult]; exact unrefused_ok _)⟩

def aliasing : List String := ["SELECT 1 AS a => csv:t"]

def aliasingJob : Job := .unlooped aliasing
  [{ line := 1, query := "SELECT 1 AS a", sinks := [.localTable "t" false],
     source := some (.localTables []),
     text := "SELECT 1 AS a => csv:t" }]

def aliasingFiles : FileTree :=
  (FileTree.empty.place (.ofString "data/.sluice-cached.json") (.text "[\"./t\"]")).place
    (.ofString "data/t.csv")
    (.text "a\n9\n")

def aliasingRun (cleanupScratch : Bool) : Except JobError Unit × Controller Rehearsal :=
  (Controller.new aliasingJob engineOnly { cleanupScratch } .empty
    { files := aliasingFiles, dir := .ofString "data" }
    { engine := [.output { stdout := "a\n1\n" }] } 0).run

/-- The run lists `./t` to its end. The file of that name is there without the cleanup and gone
with it. -/
theorem listed_alias_removed :
    Job.ofLines aliasing = .ok aliasingJob ∧ (aliasingRun true).1 = .ok () ∧
      Lists (aliasingRun true).2.current.store.files (.ofString "data") ["./t"] ∧
      (aliasingRun false).2.current.store.files.isFile (tablePath (.ofString "data") "./t") = true ∧
      (aliasingRun true).2.current.store.files.isFile
        (tablePath (.ofString "data") "./t") = false := by
  have hmanifest : ((aliasingRun true).2.current.store.files.read
      (manifestPath (.ofString "data"))).toOption =
      some "[\"./t\"]" := by decide +kernel
  have hnames : (Json.textList "[\"./t\"]").toOption = some ["./t"] := by decide +kernel
  exact ⟨ofLines_unlooped (by decide +kernel) rfl, eq_ok_of_toOption (by decide +kernel),
    .inr ⟨_, eq_ok_of_toOption hmanifest, eq_ok_of_toOption hnames⟩, by decide +kernel, by
      decide +kernel⟩

end Run
end TableFlow
