import TableFlow.Proofs.Store.Tables

namespace TableFlow.TableStore

inductive Saving
  | unneeded
  | done
  | refused
  deriving DecidableEq

structure StoreCall where
  name : String
  cached : Bool
  saving : Saving

/-- Calls of `store` one after the other, latest first. The system may refuse any of their
operations at any time, and between calls others may change all files but the manifest. -/
inductive Calls (start : TableStore) : List StoreCall → TableStore → Prop
  | none : Calls start [] start
  | others {calls s files} : Calls start calls s →
      files.file? (manifestPath s.dir).resolve = s.files.file? (manifestPath s.dir).resolve →
      Calls start calls { s with files }
  | stored {calls s name data cached path t} : Calls start calls s →
      Act.runFrom s (store name data cached) = (.ok path, t) →
      Calls start
        (⟨name, cached, if s.listed.contains name = cached then .unneeded else .done⟩ :: calls) t
  | failed {calls s name data cached e written t} : Calls start calls s →
      Unstored s name data cached e written t →
      Calls start (⟨name, cached, if written = [] then .unneeded else .refused⟩ :: calls) t

/-- The list that is held and the manifest differ on `name`: since the last manifest that was
saved, the name has been put on the list or taken off it by calls whose manifest was refused, an
odd number of times. -/
def forgotten (name : String) : List StoreCall → Bool
  | [] => false
  | call :: earlier =>
    match call.saving with
    | .unneeded => forgotten name earlier
    | .done => false
    | .refused => if call.name = name then !forgotten name earlier else forgotten name earlier

/-- The manifest lists what is held, but for the names that are forgotten. -/
def ListsBut (calls : List StoreCall) (s : TableStore) : Prop :=
  ∃ names, Lists s.files s.dir names ∧ ∀ name,
    names.contains name = (s.listed.contains name != forgotten name calls)

variable {start found s t : TableStore} {calls : List StoreCall} {name : String} {data : Table}
  {cached : Bool}

theorem Calls.store (h : Calls start calls s) (name : String) (data : Table) (cached : Bool) :
    ∃ saving, Calls start (⟨name, cached, saving⟩ :: calls)
      (Act.runFrom s (TableStore.store name data cached)).2 := by
  have hresult := store_result s name data cached
  generalize hs : Act.runFrom s (TableStore.store name data cached) = p at hresult ⊢
  obtain ⟨_ | _, t⟩ := p
  · obtain ⟨written, hunstored⟩ := hresult
    exact ⟨_, .failed h hunstored⟩
  · exact ⟨_, .stored h hs⟩

theorem listsBut_of_stores {path : Path} (h : Stores s name data cached (.ok path) t)
    (hs : ListsBut calls s) :
    ListsBut (⟨name, cached, if s.listed.contains name = cached then .unneeded else .done⟩ :: calls)
      t := by
  by_cases hm : s.listed.contains name = cached
  · obtain ⟨hlisted, hmanifest⟩ := same_of_stores h hm
    obtain ⟨names, hnames, hcontains⟩ := hs
    refine ⟨names, ?_, fun other => ?_⟩
    · rw [dir_of_stores h]
      exact (lists_congr hmanifest).mpr hnames
    · rw [hlisted, if_pos hm]
      exact hcontains other
  · obtain ⟨names, hnames, hlisted⟩ := isCurrent_of_manifestText (manifest_of_stores h hm)
    refine ⟨names, hnames, fun other => ?_⟩
    rw [hlisted, Std.ExtTreeSet.contains_ofList, if_neg hm, forgotten, Bool.bne_false]

theorem listsBut_of_unstored {e : StoreError} {written : List (String × Table)}
    (h : Unstored s name data cached e written t) (hs : ListsBut calls s) :
    ListsBut (⟨name, cached, if written = [] then .unneeded else .refused⟩ :: calls) t := by
  obtain ⟨names, hnames, hcontains⟩ := hs
  cases h with
  | noColumns => exact ⟨names, hnames, hcontains⟩
  | table _ hdir _ hlisted hfile =>
      refine ⟨names, ?_, fun other => ?_⟩
      · rw [hdir]
        exact (lists_congr (hfile _)).mpr hnames
      · rw [hlisted]
        exact hcontains other
  | manifest _ hm hdir _ hlisted hfile =>
      have hplace : (manifestPath s.dir).resolve ≠ (s.path name).resolve :=
        Ne.symm (resolve_tablePath_ne_manifestPath _ _)
      have hmanifest := hfile (manifestPath s.dir).resolve
      rw [if_neg hplace] at hmanifest
      refine ⟨names, ?_, fun other => ?_⟩
      · rw [hdir]
        exact (lists_congr hmanifest).mpr hnames
      · rw [hcontains, hlisted, contains_restored, if_neg (List.cons_ne_nil _ _), forgotten]
        by_cases hne : name = other
        · -- the call turns what is held, and the manifest stays as it is
          subst hne
          rw [if_pos rfl, if_pos rfl, Bool.eq_not.mpr hm]
          cases cached <;> simp
        · rw [if_neg hne, if_neg hne]

theorem Calls.listsBut (h : Calls start calls s) (hstart : start.IsCurrent) : ListsBut calls s := by
  induction h with
  | none =>
      obtain ⟨names, hnames, hlisted⟩ := hstart
      refine ⟨names, hnames, fun other => ?_⟩
      rw [hlisted, Std.ExtTreeSet.contains_ofList, forgotten, Bool.bne_false]
  | others _ hmanifest ih =>
      obtain ⟨names, hnames, hcontains⟩ := ih
      exact ⟨names, (lists_congr hmanifest).mpr hnames, hcontains⟩
  | @stored _ s name data cached _ _ _ hs ih =>
      have hstores := stores_store s name data cached
      rw [hs] at hstores
      exact listsBut_of_stores hstores ih
  | failed _ hunstored ih => exact listsBut_of_unstored hunstored ih

theorem Calls.refused_of_forgotten (h : Calls start calls s) (hf : forgotten name calls = true) :
    ∃ call ∈ calls, call.name = name ∧ call.saving = .refused ∧
      call.cached = s.listed.contains name := by
  have hlater {call : StoreCall} {calls : List StoreCall} {held : Bool}
      (h : ∃ call ∈ calls, call.name = name ∧ call.saving = .refused ∧ call.cached = held) :
      ∃ other ∈ call :: calls, other.name = name ∧ other.saving = .refused ∧
        other.cached = held := by
    obtain ⟨other, ho, hother⟩ := h
    exact ⟨other, List.mem_cons_of_mem call ho, hother⟩
  induction h with
  | none => cases hf
  | others _ _ ih => exact ih hf
  | @stored _ s other data cached _ _ _ hs ih =>
      have hstores := stores_store s other data cached
      rw [hs] at hstores
      by_cases hm : s.listed.contains other = cached
      · rw [if_pos hm, forgotten] at hf
        rw [(same_of_stores hstores hm).1]
        exact hlater (ih hf)
      · rw [if_neg hm] at hf
        cases hf
  | @failed _ s other data cached _ _ _ _ hunstored ih =>
      cases hunstored with
      | noColumns => exact hlater (ih hf)
      | table _ _ _ hlisted =>
          rw [hlisted]
          exact hlater (ih hf)
      | manifest _ _ _ _ hlisted =>
          rw [if_neg (List.cons_ne_nil _ _)] at hf ⊢
          rw [hlisted, contains_restored]
          by_cases hne : other = name
          · rw [if_pos hne]
            exact ⟨_, List.mem_cons_self, hne, rfl, rfl⟩
          · rw [forgotten, if_neg hne] at hf
            rw [if_neg hne]
            exact hlater (ih hf)

/-- A store that succeeds lasts, unless an earlier one of the same table was refused its
manifest and none has saved it since: the manifest lists the table just if it is to last, and
any later run finds it that finds tables at all. -/
theorem stored_lasts_unless_forgotten {files : FileTree} {dir : Path} {inputs : List String}
    {n : Nat} {path : Path} (hfound : Act.runFrom { files, dir } (discover inputs) = (.ok n, found))
    (hcalls : Calls found calls s) (hstore : Act.runFrom s (store name data cached) =
      (.ok path, t)) :
    let history :=
      ⟨name, cached, if s.listed.contains name = cached then .unneeded else .done⟩ :: calls
    (forgotten name history = false ↔ ∃ names, Lists t.files t.dir names ∧
      (name ∈ names ↔ cached = true)) ∧
      (forgotten name history = false → cached = true → ∀ later m next,
        Act.runFrom { files := t.files, dir := t.dir } (discover later) = (.ok m, next) →
          next.contains name = true) ∧
      (forgotten name history = true →
        ∃ call ∈ calls, call.name = name ∧ call.cached = cached ∧ call.saving = .refused) := by
  intro history
  have hhistory : Calls found history t := .stored hcalls hstore
  have hdiscovers := discovers_discover files dir inputs
  rw [hfound] at hdiscovers
  have hstores := stores_store s name data cached
  rw [hstore] at hstores
  obtain ⟨names, hnames, hcontains⟩ := hhistory.listsBut (isCurrent_of_discovers hdiscovers)
  have hname : name ∈ names ↔ (cached != forgotten name history) = true := by
    rw [← List.contains_iff_mem, hcontains, contains_of_stores hstores]
  refine ⟨⟨fun hf => ⟨names, hnames, ?_⟩, ?_⟩, fun hf hc later m next hnext => ?_, fun hf => ?_⟩
  · rw [hname, hf, Bool.bne_false]
  · rintro ⟨names', hnames', hname'⟩
    rw [lists_unique hnames' hnames, hname] at hname'
    cases cached <;> simpa using hname'
  · refine contains_of_lists hnames (hname.mpr ?_) ?_ hnext
    · rw [hf, hc]
      rfl
    · have hfile := file?_of_stores hstores
      rw [TableStore.path] at hfile
      rw [FileTree.isFile_eq, hfile]
      rfl
  · by_cases hm : s.listed.contains name = cached
    · have hcalled : forgotten name calls = true := by
        simp only [history, if_pos hm, forgotten] at hf
        exact hf
      obtain ⟨call, hcall, hsame, hrefused, hheld⟩ := hcalls.refused_of_forgotten hcalled
      exact ⟨call, hcall, hsame, hheld.trans hm, hrefused⟩
    · simp only [history, if_neg hm, forgotten] at hf
      cases hf

def oneCell : Table := .single "a" "1"

def blocked : TableStore :=
  { files := FileTree.empty.place (.ofString "data/.sluice-cached.json") .directory,
    dir := .ofString "data" }

def afterDiscovery : TableStore := (Act.runFrom blocked (discover [])).2

def afterRefusal : TableStore := (Act.runFrom afterDiscovery (store "t" oneCell true)).2

def afterRetry : TableStore := (Act.runFrom afterRefusal (store "t" oneCell true)).2

def unblocked : TableStore :=
  { afterRetry with
    files := ⟨afterRetry.files.entries.erase (manifestPath (.ofString "data")).resolve⟩ }

def afterSaving : TableStore := (Act.runFrom unblocked (store "u" oneCell true)).2

theorem discover_blocked : (Act.runFrom blocked (discover [])).1.toOption = some 0 := by
  decide +kernel

theorem stored_lasts_unless_forgotten_unblocked :
    ∃ calls, Calls afterDiscovery calls unblocked ∧
      (Act.runFrom unblocked (store "u" oneCell true)).1.toOption =
        some (tablePath (.ofString "data") "u") ∧
      (afterSaving.files.read (manifestPath (.ofString "data"))).toOption =
        some "[\n  \"t\",\n  \"u\"\n]" ∧
      ∃ names, Lists afterSaving.files afterSaving.dir names ∧ "u" ∈ names := by
  have hfound : Act.runFrom blocked (discover []) = (.ok 0, afterDiscovery) :=
    Prod.ext (eq_ok_of_toOption discover_blocked) rfl
  have hnone : Calls afterDiscovery [] afterDiscovery := .none
  obtain ⟨refusal, hrefusal⟩ := hnone.store "t" oneCell true
  obtain ⟨retry, hretry⟩ := hrefusal.store "t" oneCell true
  have hcalls : Calls afterDiscovery [⟨"t", true, retry⟩, ⟨"t", true, refusal⟩] unblocked :=
    .others hretry (by decide +kernel)
  have hpath : (Act.runFrom unblocked (store "u" oneCell true)).1.toOption =
      some (tablePath (.ofString "data") "u") := by
    decide +kernel
  have hstore : Act.runFrom unblocked (store "u" oneCell true) =
      (.ok (tablePath (.ofString "data") "u"), afterSaving) :=
    Prod.ext (eq_ok_of_toOption hpath) rfl
  obtain ⟨hlisted, _⟩ := stored_lasts_unless_forgotten hfound hcalls hstore
  have hsaved : unblocked.listed.contains "u" ≠ true := by decide +kernel
  rw [if_neg hsaved] at hlisted
  obtain ⟨names, hnames, hmem⟩ := hlisted.mp rfl
  exact ⟨_, hcalls, hpath, by decide +kernel, names, hnames, hmem.mpr rfl⟩

/-- A store that succeeds and does not last. -/
theorem retried_store_forgotten :
    (Act.runFrom blocked (discover [])).1.toOption = some 0 ∧
      (Act.runFrom afterDiscovery (store "t" oneCell true)).1.toOption = none ∧
      (Act.runFrom afterRefusal (store "t" oneCell true)).1.toOption =
        some (tablePath (.ofString "data") "t") ∧
      (∀ names, Lists afterRetry.files afterRetry.dir names → "t" ∉ names) ∧
      (Act.runFrom afterRetry.reopen (discover [])).1.toOption = some 0 ∧
      (Act.runFrom afterRetry.reopen (discover [])).2.contains "t" = false := by
  have hmanifest : afterRetry.files.isFile (manifestPath afterRetry.dir) = false := by
    decide +kernel
  refine ⟨discover_blocked, by decide +kernel, by decide +kernel, fun names hnames =>
    ?_, by decide +kernel,
    by decide +kernel⟩
  rw [lists_unique hnames (.inl ⟨hmanifest, rfl⟩)]
  exact List.not_mem_nil

end TableFlow.TableStore
