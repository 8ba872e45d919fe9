import TableFlow.Proofs.Store.Tables

namespace TableFlow.TableStore

variable {s t u : TableStore} {name : String} {names rest : List String} {p : Path}

theorem mem_tables_iff {entry : TableEntry} : (name, entry) ∈ s.tables.toList ↔
    s.entry? name = some entry :=
  Std.ExtTreeMap.mem_toList_iff_getElem?_eq_some

theorem mem_written_iff : name ∈ s.written ↔ ∃ cached, s.entry? name = some ⟨cached, true⟩ := by
  rw [written, List.mem_map]
  constructor
  · rintro ⟨⟨other, cached, produced⟩, hmem, rfl⟩
    obtain ⟨hmem, hproduced⟩ := List.mem_filter.mp hmem
    obtain rfl : produced = true := hproduced
    exact ⟨cached, mem_tables_iff.mp hmem⟩
  · rintro ⟨cached, hentry⟩
    exact ⟨(name, ⟨cached, true⟩), List.mem_filter.mpr ⟨mem_tables_iff.mpr hentry, rfl⟩, rfl⟩

theorem mem_scratch_iff : name ∈ s.scratch ↔ s.entry? name = some ⟨false, true⟩ := by
  rw [scratch, List.mem_map]
  constructor
  · rintro ⟨⟨other, cached, produced⟩, hmem, rfl⟩
    obtain ⟨hmem, hscratch⟩ := List.mem_filter.mp hmem
    obtain ⟨rfl, rfl⟩ : produced = true ∧ cached = false := by simpa using hscratch
    exact mem_tables_iff.mp hmem
  · intro hentry
    exact ⟨(name, ⟨false, true⟩), List.mem_filter.mpr ⟨mem_tables_iff.mpr hentry, rfl⟩, rfl⟩

theorem pairwise_written (s : TableStore) : s.written.Pairwise (· < ·) := by
  rw [written, List.pairwise_map]
  apply List.Pairwise.filter
  apply Std.ExtTreeMap.ordered_keys_toList.imp
  intro first second h
  exact compareOfLessAndEq_eq_lt.mp h

/-- Tables are taken off a store together with their files. -/
structure Removes (s : TableStore) (names : List String) (t : TableStore) : Prop where
  dir : t.dir = s.dir
  listed : t.listed = s.listed
  entry : ∀ name, t.entry? name = if name ∈ names then none else s.entry? name
  file : ∀ place, t.files.file? place =
    if ∃ name ∈ names, place = (tablePath s.dir name).resolve then none else s.files.file? place

theorem Removes.nil (s : TableStore) : Removes s [] s :=
  ⟨rfl, rfl, fun _ => by simp, fun _ => by simp⟩

theorem Removes.cons (h : Removes s [name] u) (h' : Removes u rest t) :
    Removes s (name :: rest) t where
  dir := h'.dir.trans h.dir
  listed := h'.listed.trans h.listed
  entry other := by
    rw [h'.entry, h.entry]
    by_cases hother : other = name <;> simp [hother]
  file place := by
    have hrest := h'.file place
    rw [h.dir, h.file] at hrest
    rw [hrest]
    by_cases hplace : place = (tablePath s.dir name).resolve <;> simp [hplace]

theorem removeTable_cases (s : TableStore) (name : String) :
    (∃ t, Act.runFrom s (removeTable name) = (.ok (), t) ∧ Removes s [name] t) ∨
      ∃ fault t, Act.runFrom s (removeTable name) = (.error (.system fault), t) := by
  rw [removeTable, Act.runFrom_bind, Act.runFrom_get]
  dsimp only
  rw [Act.runFrom_bind]
  obtain ⟨files, hr, hfile⟩ | ⟨fault, hr⟩ := removeFile_cases s (s.path name) <;> rw [hr]
  · refine .inl ⟨_, rfl, rfl, rfl, fun other => ?_, fun place => ?_⟩
    · have hentry : (s.tables.erase name)[other]? = if other ∈ [name] then
          none else s.tables[other]? := by
        simp only [Std.ExtTreeMap.getElem?_erase, Std.LawfulEqCmp.compare_eq_iff_eq,
          List.mem_singleton]
        by_cases hother : other = name
        · rw [if_pos hother, if_pos hother.symm]
        · rw [if_neg hother, if_neg (Ne.symm hother)]
      exact hentry
    · by_cases hplace : place = (s.path name).resolve
      · rw [if_pos ⟨name, List.mem_singleton_self name, hplace⟩]
        exact (hfile place).trans (if_pos hplace)
      · rw [if_neg]
        · exact (hfile place).trans (if_neg hplace)
        · rintro ⟨other, hother, hplace'⟩
          rw [List.mem_singleton.mp hother] at hplace'
          exact hplace hplace'
  · exact .inr ⟨fault, s, rfl⟩

theorem forM_removeTable_cases (s : TableStore) (names : List String) :
    (∃ t, Act.runFrom s (names.forM removeTable) = (.ok (), t) ∧ Removes s names t) ∨
      ∃ fault t, Act.runFrom s (names.forM removeTable) = (.error (.system fault), t) := by
  induction names generalizing s with
  | nil => exact .inl ⟨s, rfl, .nil s⟩
  | cons name rest ih =>
      rw [List.forM_eq_forM, List.forM_cons, Act.runFrom_bind]
      obtain ⟨u, hu, hname⟩ | ⟨fault, u, hu⟩ := removeTable_cases s name <;> rw [hu]
      · obtain ⟨t, ht, hrest⟩ | hfails := ih u
        · exact .inl ⟨t, ht, hname.cons hrest⟩
        · exact .inr hfails
      · exact .inr ⟨fault, u, rfl⟩

/-- A cleanup takes off the scratch tables and nothing else, or the system refuses to remove one
of their files. -/
theorem cleanup_cases (s : TableStore) :
    (∃ t, Act.runFrom s cleanup = (.ok s.scratch, t) ∧ Removes s s.scratch t) ∨
      ∃ fault t, Act.runFrom s cleanup = (.error (.system fault), t) := by
  rw [cleanup_eq, Act.runFrom_bind, Act.runFrom_get]
  dsimp only
  rw [Act.runFrom_bind]
  obtain ⟨t, ht, hremoves⟩ | ⟨fault, t, ht⟩ := forM_removeTable_cases s s.scratch <;> rw [ht]
  · exact .inl ⟨t, rfl, hremoves⟩
  · exact .inr ⟨fault, t, rfl⟩

end TableFlow.TableStore
