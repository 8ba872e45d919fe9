import TableFlow.Proofs.Json.TextList
import TableFlow.Proofs.Store.Files
import TableFlow.Proofs.Store.Places

namespace TableFlow.TableStore

open StoreAct

def Lists (files : FileTree) (dir : Path) (names : List String) : Prop :=
  files.isFile (manifestPath dir) = false ∧ names = [] ∨
    ∃ text, files.read (manifestPath dir) = .ok text ∧ Json.textList text = .ok names

/-- The names that are held are those of the manifest. -/
def IsCurrent (s : TableStore) : Prop :=
  ∃ names, Lists s.files s.dir names ∧ s.listed = .ofList names

/-- A table that a run finds in a directory before its first step. -/
def Offers (files : FileTree) (dir : Path) (inputs : List String) (name : String) : Prop :=
  ∃ names, Lists files dir names ∧ (name ∈ names ∨ name ∈ inputs) ∧
    files.isFile (tablePath dir name) = true

/-- All that storing a table can come to, but for what a refusal of the system leaves behind. -/
inductive Stores (s : TableStore) (name : String) (data : Table) (cached : Bool) :
    Except StoreError Path → TableStore → Prop
  | noColumns : data.fields = [] → Stores s name data cached (.error (.noColumns name)) s
  | failed {e t} : Stores s name data cached (.error (.system e)) t
  | stored {t : TableStore} : data.fields ≠ [] → t.dir = s.dir →
      t.tables = s.tables.insert name ⟨cached, true⟩ →
      t.listed = (if cached then s.listed.insert name else s.listed.erase name) →
      (∀ place, t.files.file? place =
        if s.listed.contains name ≠ cached ∧ place = (manifestPath s.dir).resolve then
          some (.text (manifestText t.listed))
        else if place = (s.path name).resolve then some (.text data.toCsv)
        else s.files.file? place) →
      Stores s name data cached (.ok (s.path name)) t

/-- What a store comes to that fails, with the tables that it has written for all that: none or,
if it is the manifest that the system refuses, the one. -/
inductive Unstored (s : TableStore) (name : String) (data : Table) (cached : Bool) :
    StoreError → List (String × Table) → TableStore → Prop
  | noColumns : data.fields = [] → Unstored s name data cached (.noColumns name) [] s
  | table {e} {t : TableStore} : data.fields ≠ [] → t.dir = s.dir → t.tables = s.tables →
      t.listed = s.listed → (∀ place, t.files.file? place = s.files.file? place) →
      Unstored s name data cached (.system e) [] t
  | manifest {e} {t : TableStore} : data.fields ≠ [] → s.listed.contains name ≠ cached →
      t.dir = s.dir → t.tables = s.tables.insert name ⟨cached, true⟩ →
      t.listed = (if cached then s.listed.insert name else s.listed.erase name) →
      (∀ place, t.files.file? place =
        if place = (s.path name).resolve then some (.text data.toCsv) else s.files.file? place) →
      Unstored s name data cached (.system e) [(name, data)] t

variable {s t : TableStore} {name : String}

theorem runFrom_onFiles (f : FileTree → Except SystemError FileTree) (s : TableStore) :
    Act.runFrom s (onFiles f) =
      match f s.files with
      | .ok files => (.ok (), { s with files })
      | .error e => (.error (.system e), s) := rfl

theorem store_result (s : TableStore) (name : String) (data : Table) (cached : Bool) :
    match Act.runFrom s (store name data cached) with
    | (.ok path, t) => Stores s name data cached (.ok path) t
    | (.error e, t) => ∃ written, Unstored s name data cached e written t := by
  by_cases hf : data.fields = []
  · have he : Act.runFrom s (store name data cached) = (.error (.noColumns name), s) := by
      simp [store, hf]
    rw [he]
    exact ⟨[], .noColumns hf⟩
  · have hempty : data.fields.isEmpty = false := by simpa using hf
    simp only [store, hempty, Bool.false_eq_true, if_false, Act.runFrom_bind, Act.runFrom_get,
      runFrom_onFiles]
    cases hd : s.files.createDirs s.dir with
    | error e => exact ⟨[], .table hf rfl rfl rfl fun _ => rfl⟩
    | ok made =>
        have hmade := FileTree.file?_of_createDirs hd
        cases hw : made.write (tablePath s.dir name) data.toCsv with
        | error e =>
            simp only [hw]
            exact ⟨[], .table hf rfl rfl rfl hmade⟩
        | ok written =>
            have hwritten := FileTree.file?_of_write hw
            simp only [hw, Act.runFrom_set]
            by_cases hm : s.listed.contains name = cached
            · simp only [hm, bne_self_eq_false, Bool.false_eq_true, if_false, Act.runFrom_pure]
              refine .stored hf rfl rfl rfl fun place => ?_
              have hsame : ¬ (s.listed.contains name ≠ cached ∧
                  place = (manifestPath s.dir).resolve) := fun h => h.1 hm
              rw [if_neg hsame, hwritten, hmade]
              rfl
            · have hne : (s.listed.contains name != cached) = true := bne_iff_ne.mpr hm
              simp only [hne, if_true, saveManifest, Act.runFrom_bind, Act.runFrom_get,
                runFrom_onFiles]
              cases hl : written.write (manifestPath s.dir)
                  (manifestText
                    (if cached = true then s.listed.insert name else s.listed.erase name)) with
              | error e =>
                  exact ⟨_, .manifest hf hm rfl rfl rfl fun place => by rw [hwritten, hmade]; rfl⟩
              | ok saved =>
                  dsimp only [Act.runFrom_pure]
                  refine .stored hf rfl rfl rfl fun place => ?_
                  rw [FileTree.file?_of_write hl, hwritten, hmade]
                  by_cases hp : place = (manifestPath s.dir).resolve
                  · simp [hp, hm]
                  · simp only [hp, and_false, if_false]
                    rfl

theorem stores_store (s : TableStore) (name : String) (data : Table) (cached : Bool) :
    Stores s name data cached (Act.runFrom s (store name data cached)).1
      (Act.runFrom s (store name data cached)).2 := by
  have hresult := store_result s name data cached
  generalize Act.runFrom s (store name data cached) = p at hresult ⊢
  obtain ⟨_ | _, t⟩ := p
  · obtain ⟨_, hunstored⟩ := hresult
    cases hunstored with
    | noColumns hf => exact .noColumns hf
    | table | manifest => exact .failed
  · exact hresult

theorem runFrom_load (s : TableStore) (name : String) :
    Act.runFrom s (load name) =
      (match s.files.read (s.path name) with
        | .ok text => (Table.ofCsv text).mapError (.unreadableTable name (s.path name).text)
        | .error e => .error (.system e), s) := by
  simp only [load, readFile, Act.runFrom_bind, Act.runFrom_get]
  cases s.files.read (s.path name) with
  | error e => rfl
  | ok text =>
      dsimp only [Except.mapError, Act.ofExcept, Act.runFrom_pure]
      cases Table.ofCsv text <;> rfl

theorem eq_of_runFrom_load {answer : Except StoreError Table}
    (h : Act.runFrom s (load name) = (answer, t)) : t = s := by
  rw [runFrom_load] at h
  exact (congrArg Prod.snd h).symm

/-- The manifest is read, or it is not a list of texts, or the system refuses to read it. -/
theorem runFrom_loadManifest {s : TableStore} (hs : s.listed = ∅) :
    (∃ names, Lists s.files s.dir names ∧ Act.runFrom s loadManifest =
      (.ok (), { s with listed := .ofList names })) ∨
      (∃ text fault, s.files.read (manifestPath s.dir) = .ok text ∧
        Json.textList text = .error fault ∧
        Act.runFrom s loadManifest =
          (.error (.unreadableManifest (manifestPath s.dir).text fault), s)) ∨
      ∃ e, Act.runFrom s loadManifest = (.error (.system e), s) := by
  simp only [loadManifest, readFile, Act.runFrom_bind, Act.runFrom_get]
  by_cases hf : s.files.isFile (manifestPath s.dir) = true
  · simp only [hf, if_true, Act.runFrom_bind, Act.runFrom_get]
    cases hr : s.files.read (manifestPath s.dir) with
    | error e => exact .inr (.inr ⟨e, rfl⟩)
    | ok text =>
        dsimp only [Except.mapError, Act.ofExcept, Act.runFrom_pure]
        cases hj : Json.textList text with
        | error fault => exact .inr (.inl ⟨text, fault, rfl, hj, rfl⟩)
        | ok names => exact .inl ⟨names, .inr ⟨text, hr, hj⟩, rfl⟩
  · refine .inl ⟨[], .inl ⟨by simpa using hf, rfl⟩, ?_⟩
    rw [if_neg hf, Std.ExtTreeSet.ofList_nil, ← hs, Act.runFrom_pure]

/-- What the search for tables comes to, for a run that knows of none. No file is changed by it. -/
inductive Discovers (files : FileTree) (dir : Path) (inputs : List String) :
    Except StoreError Nat → TableStore → Prop
  | failed {e t} : (∀ place, t.files.file? place = files.file? place) → t.dir = dir →
      Discovers files dir inputs (.error (.system e)) t
  | unreadable {text fault t} : (∀ place, t.files.file? place = files.file? place) → t.dir = dir →
      files.read (manifestPath dir) = .ok text → Json.textList text = .error fault →
      Discovers files dir inputs (.error (.unreadableManifest (manifestPath dir).text fault)) t
  | found {n names t} : (∀ place, t.files.file? place = files.file? place) → t.dir = dir →
      Lists files dir names →
      t.listed = .ofList names →
      (∀ name, t.entry? name =
        if (name ∈ names ∨ name ∈ inputs) ∧ files.isFile (tablePath dir name) = true then
          some ⟨true, false⟩ else none) →
      Discovers files dir inputs (.ok n) t

theorem isFile_congr {files files' : FileTree} {p : Path}
    (h : files'.file? p.resolve = files.file? p.resolve) :
    files'.isFile p = files.isFile p := by rw [FileTree.isFile_eq, FileTree.isFile_eq, h]

theorem read_ok_congr {files files' : FileTree} {p : Path} {text : String}
    (h : files'.file? p.resolve = files.file? p.resolve) : files'.read p = .ok text ↔
      files.read p = .ok text := by
  rw [FileTree.read_eq_ok_iff, FileTree.read_eq_ok_iff, h]

theorem lists_congr {files files' : FileTree} {dir : Path} {names : List String}
    (h : files'.file? (manifestPath dir).resolve = files.file? (manifestPath dir).resolve) :
    Lists files' dir names ↔ Lists files dir names := by
  simp only [Lists, isFile_congr h, read_ok_congr h]

theorem getElem?_foldl_insertIfNew (found : List String) (entry : TableEntry)
    (tables : Std.ExtTreeMap String TableEntry) (name : String) :
    (found.foldl (fun t name => t.insertIfNew name entry) tables)[name]? =
      if name ∈ found ∧ name ∉ tables then some entry else tables[name]? := by
  induction found generalizing tables with
  | nil => simp
  | cons first rest ih =>
      rw [List.foldl_cons, ih, Std.ExtTreeMap.getElem?_insertIfNew]
      simp only [Std.ExtTreeMap.mem_insertIfNew, Std.LawfulEqCmp.compare_eq_iff_eq, List.mem_cons]
      grind

theorem discovers_of_lists {files made : FileTree} {dir : Path} {names : List String}
    {listed : Std.ExtTreeSet String} (hmade : ∀ place, made.file? place = files.file? place)
    (hnames : Lists files dir names) (hl : listed = .ofList names)
    (inputs : List String) (n : Nat) :
    Discovers files dir inputs (.ok n)
      ⟨made, dir,
        ((listed.insertMany inputs).toList.filter fun name =>
          made.isFile (tablePath dir name)).foldl
        (fun t name => t.insertIfNew name ⟨true, false⟩) ∅, listed⟩ := by
  refine .found hmade rfl hnames hl fun name => ?_
  unfold entry?
  rw [getElem?_foldl_insertIfNew]
  simp [hl, isFile_congr (hmade _), Std.ExtTreeSet.mem_insertMany_list, Std.ExtTreeSet.mem_ofList]

theorem discovers_discover (files : FileTree) (dir : Path) (inputs : List String) :
    Discovers files dir inputs (Act.runFrom { files, dir } (discover inputs)).1
      (Act.runFrom { files, dir } (discover inputs)).2 := by
  simp only [discover, Act.runFrom_bind, Act.runFrom_get, runFrom_onFiles]
  cases hd : files.createDirs dir with
  | error e => exact .failed (fun _ => rfl) rfl
  | ok made =>
      have hmade := FileTree.file?_of_createDirs hd
      obtain ⟨names, hnames, he⟩ | ⟨text, fault, hr, hj, he⟩ | ⟨e, he⟩ :=
        runFrom_loadManifest (s := { files := made, dir }) rfl
      · simp only [he, Act.runFrom_set, Act.runFrom_pure, path]
        exact discovers_of_lists hmade ((lists_congr (hmade _)).mp hnames) rfl inputs _
      · simp only [he]
        exact .unreadable hmade rfl ((read_ok_congr (hmade _)).mp hr) hj
      · simp only [he]
        exact .failed hmade rfl

theorem dir_of_discovers {files : FileTree} {dir : Path} {inputs : List String}
    {answer : Except StoreError Nat} {t : TableStore} (h : Discovers files dir inputs answer t) :
    t.dir = dir := by
  cases h <;> assumption

theorem file?_of_discovers {files : FileTree} {dir : Path} {inputs : List String}
    {answer : Except StoreError Nat} {t : TableStore} (h : Discovers files dir inputs answer t)
    (place : List String) :
    t.files.file? place = files.file? place := by
  cases h with
  | failed hfiles | unreadable hfiles | found hfiles => exact hfiles place

theorem lists_unique {files : FileTree} {dir : Path} {names names' : List String}
    (h : Lists files dir names) (h' : Lists files dir names') : names = names' := by
  obtain ⟨hf, rfl⟩ | ⟨text, hr, hj⟩ := h <;> obtain ⟨hf', rfl⟩ | ⟨text', hr', hj'⟩ := h'
  · rfl
  · rw [FileTree.isFile_eq, FileTree.read_eq_ok_iff.mp hr'] at hf
    cases hf
  · rw [FileTree.isFile_eq, FileTree.read_eq_ok_iff.mp hr] at hf'
    cases hf'
  · rw [hr] at hr'
    cases hr'
    rw [hj] at hj'
    exact Except.ok.inj hj'

theorem contains_of_discovers {files : FileTree} {dir : Path} {inputs : List String} {n : Nat}
    {t : TableStore} (h : Discovers files dir inputs (.ok n) t) (name : String) :
    t.contains name = true ↔ Offers files dir inputs name := by
  cases h with
  | @found _ names _ _ _ hnames _ hentry =>
      rw [contains, hentry]
      constructor
      · intro hname
        split at hname
        · rename_i hoffer
          exact ⟨names, hnames, hoffer⟩
        · cases hname
      · rintro ⟨names', hnames', hoffer⟩
        rw [lists_unique hnames' hnames] at hoffer
        rw [if_pos hoffer]
        rfl

theorem contains_of_lists {files : FileTree} {dir : Path} {inputs names : List String} {n : Nat}
    (hnames : Lists files dir names) (hname : name ∈ names)
    (hfile : files.isFile (tablePath dir name) = true)
    (h : Act.runFrom { files, dir } (discover inputs) = (.ok n, t)) : t.contains name = true := by
  have hdiscovers := discovers_discover files dir inputs
  rw [h] at hdiscovers
  exact (contains_of_discovers hdiscovers name).mpr ⟨names, hnames, .inl hname, hfile⟩

theorem isCurrent_of_discovers {files : FileTree} {dir : Path} {inputs : List String} {n : Nat}
    (h : Discovers files dir inputs (.ok n) t) : t.IsCurrent := by
  cases h with
  | @found _ names _ hfiles hdir hnames hlisted =>
      refine ⟨names, ?_, hlisted⟩
      rw [hdir]
      exact (lists_congr (hfiles _)).mpr hnames

theorem isCurrent_of_manifestText
    (h : t.files.file? (manifestPath t.dir).resolve = some (.text (manifestText t.listed))) :
    t.IsCurrent := by
  refine ⟨t.listed.toList, .inr ⟨_, FileTree.read_eq_ok_iff.mpr h, Json.textList_pretty _⟩, ?_⟩
  apply Std.ExtTreeSet.ext_mem
  intro name
  rw [Std.ExtTreeSet.mem_ofList, List.contains_iff_mem, Std.ExtTreeSet.mem_toList]

theorem contains_restored (listed : Std.ExtTreeSet String) (name other : String) (cached : Bool) :
    (if cached then listed.insert name else listed.erase name).contains other =
      if name = other then cached else listed.contains other := by
  cases cached with
  | true =>
      rw [if_pos rfl, Std.ExtTreeSet.contains_insert]
      by_cases h : name = other <;> simp [h]
  | false =>
      rw [if_neg (by simp), Std.ExtTreeSet.contains_erase]
      by_cases h : name = other <;> simp [h]

theorem dir_of_stores {data : Table} {cached : Bool} {path : Path}
    (h : Stores s name data cached (.ok path) t) :
    t.dir = s.dir := by
  cases h
  assumption

theorem contains_of_stores {data : Table} {cached : Bool} {path : Path}
    (h : Stores s name data cached (.ok path) t) :
    t.listed.contains name = cached := by
  cases h with
  | stored _ _ _ hlisted => rw [hlisted, contains_restored, if_pos rfl]

theorem entry?_of_stores {data : Table} {cached : Bool} {path : Path}
    (h : Stores s name data cached (.ok path) t) :
    t.entry? name = some ⟨cached, true⟩ := by
  cases h with
  | stored _ _ htables =>
      unfold entry?
      rw [htables, Std.ExtTreeMap.getElem?_insert_self]

theorem file?_of_stores {data : Table} {cached : Bool} {path : Path}
    (h : Stores s name data cached (.ok path) t) :
    t.files.file? (t.path name).resolve = some (.text data.toCsv) := by
  have hpath : t.path name = s.path name := by
    rw [TableStore.path, TableStore.path, dir_of_stores h]
  cases h with
  | stored _ _ _ _ hfile =>
      rw [hpath, hfile, if_neg fun h => resolve_tablePath_ne_manifestPath _ _ h.2, if_pos rfl]

theorem same_of_stores {data : Table} {cached : Bool} {path : Path}
    (h : Stores s name data cached (.ok path) t) (hm : s.listed.contains name = cached) :
    t.listed = s.listed ∧ t.files.file? (manifestPath s.dir).resolve =
      s.files.file? (manifestPath s.dir).resolve := by
  cases h with
  | stored _ _ _ hlisted hfile =>
      constructor
      · apply Std.ExtTreeSet.ext_contains
        intro other
        rw [hlisted, contains_restored]
        by_cases hne : name = other
        · rw [if_pos hne, ← hm, hne]
        · rw [if_neg hne]
      · have hmanifest : (manifestPath s.dir).resolve ≠ (s.path name).resolve :=
          Ne.symm (resolve_tablePath_ne_manifestPath _ _)
        rw [hfile, if_neg fun h => h.1 hm, if_neg hmanifest]

theorem manifest_of_stores {data : Table} {cached : Bool} {path : Path}
    (h : Stores s name data cached (.ok path) t) (hm : s.listed.contains name ≠ cached) :
    t.files.file? (manifestPath t.dir).resolve = some (.text (manifestText t.listed)) := by
  cases h with
  | stored _ hdir _ _ hfile => rw [hdir, hfile, if_pos ⟨hm, rfl⟩]

theorem isCurrent_of_stores {data : Table} {cached : Bool} {path : Path}
    (h : Stores s name data cached (.ok path) t) (hs : s.IsCurrent) : t.IsCurrent := by
  by_cases hm : s.listed.contains name = cached
  · obtain ⟨hlisted, hmanifest⟩ := same_of_stores h hm
    obtain ⟨names, hnames, hl⟩ := hs
    refine ⟨names, ?_, hlisted.trans hl⟩
    rw [dir_of_stores h]
    exact (lists_congr hmanifest).mpr hnames
  · exact isCurrent_of_manifestText (manifest_of_stores h hm)

theorem resolve_cons (s : TableStore) (name : String) (names : List String) :
    s.resolve (name :: names) =
      if s.contains name then (s.resolve names).map ((name, s.path name) :: ·)
      else .error name := by
  rw [resolve, List.mapM_cons, resolve]
  by_cases h : s.contains name = true
  · simp only [h, if_true]
    generalize (names.mapM fun name =>
      if s.contains name = true then Except.ok (name, s.path name) else .error name) = r
    cases r <;> rfl
  · simp only [h, Bool.false_eq_true, if_false]
    rfl

theorem resolve_eq_ok {s : TableStore} {names : List String} {imports : List (String × Path)}
    (h : s.resolve names = .ok imports) :
    imports = names.map (fun name => (name, s.path name)) ∧
      ∀ name ∈ names, s.contains name = true := by
  induction names generalizing imports with
  | nil =>
      cases h
      exact ⟨rfl, List.forall_mem_nil _⟩
  | cons name names ih =>
      rw [resolve_cons] at h
      split at h
      · rename_i hname
        cases hr : s.resolve names with
        | error e =>
            rw [hr] at h
            cases h
        | ok rest =>
            rw [hr] at h
            obtain rfl : (name, s.path name) :: rest = imports := Except.ok.inj h
            obtain ⟨hrest, hall⟩ := ih hr
            rw [hrest, List.map_cons]
            exact ⟨rfl, List.forall_mem_cons.mpr ⟨hname, hall⟩⟩
      · cases h

theorem resolve_eq_error {s : TableStore} {front back : List String} {name : String}
    (hfront : ∀ known ∈ front, s.contains known = true) (hname : s.contains name = false) :
    s.resolve (front ++ name :: back) = .error name := by
  induction front with
  | nil => rw [List.nil_append, resolve_cons, if_neg (by simp [hname])]
  | cons first rest ih =>
      obtain ⟨hfirst, hrest⟩ := List.forall_mem_cons.mp hfront
      rw [List.cons_append, resolve_cons, if_pos hfirst, ih hrest]
      rfl

theorem removeFile_cases (s : TableStore) (p : Path) :
    (∃ files, Act.runFrom s (removeFile p) = (.ok (), { s with files }) ∧
        ∀ place, files.file? place = if place = p.resolve then none else s.files.file? place) ∨
      ∃ fault, Act.runFrom s (removeFile p) = (.error (.system fault), s) := by
  rw [removeFile, runFrom_onFiles]
  cases hr : s.files.remove p with
  | ok files => exact .inl ⟨files, rfl, FileTree.file?_of_remove hr⟩
  | error fault =>
      by_cases hfault : fault = .notFound
      · subst hfault
        refine .inl ⟨s.files, rfl, fun place => ?_⟩
        by_cases hplace : place = p.resolve
        · rw [if_pos hplace, hplace]
          exact FileTree.file?_of_remove_notFound hr
        · rw [if_neg hplace]
      · refine .inr ⟨fault, ?_⟩
        cases fault <;> first | rfl | exact absurd rfl hfault

theorem runFrom_removeFile (s : TableStore) (p : Path) :
    ∃ files, (Act.runFrom s (removeFile p)).2 = { s with files } ∧
      ∀ place ≠ p.resolve, files.file? place = s.files.file? place := by
  obtain ⟨files, hr, hfile⟩ | ⟨fault, hr⟩ := removeFile_cases s p <;> rw [hr]
  · exact ⟨files, rfl, fun place hp => (hfile place).trans (if_neg hp)⟩
  · exact ⟨s.files, rfl, fun _ _ => rfl⟩

def removeTable (name : String) : StoreAct Unit := do
  removeFile ((← get).path name)
  modify fun s => { s with tables := s.tables.erase name }

theorem cleanup_eq : cleanup = (do
    let names := (← get).scratch
    names.forM removeTable
    return names) := rfl

theorem file?_forM_removeTable {names : List String} {s : TableStore} {place : List String}
    (hp : ∀ name ∈ names, place ≠ (s.path name).resolve) :
    (Act.runFrom s (names.forM removeTable)).2.files.file? place = s.files.file? place := by
  induction names generalizing s with
  | nil => rfl
  | cons name rest ih =>
      obtain ⟨files, hfiles, hframe⟩ := runFrom_removeFile s (s.path name)
      have hname := hframe place (hp name List.mem_cons_self)
      rw [List.forM_eq_forM, List.forM_cons, removeTable]
      simp only [Act.runFrom_bind, Act.runFrom_get]
      generalize Act.runFrom s (removeFile (s.path name)) = p at hfiles ⊢
      obtain ⟨_ | _, t⟩ := p
      · obtain rfl : t = _ := hfiles
        exact hname
      · obtain rfl : t = _ := hfiles
        rw [← hname]
        exact ih fun other ho => hp other (List.mem_cons_of_mem name ho)

theorem file?_cleanup {s : TableStore} {place : List String}
    (hp : ∀ name ∈ s.scratch, place ≠ (s.path name).resolve) :
    (Act.runFrom s cleanup).2.files.file? place = s.files.file? place := by
  have hall := file?_forM_removeTable hp
  rw [cleanup_eq]
  simp only [Act.runFrom_bind, Act.runFrom_get]
  generalize Act.runFrom s (s.scratch.forM removeTable) = p at hall ⊢
  obtain ⟨_ | _, t⟩ := p
  · exact hall
  · exact hall

end TableFlow.TableStore
