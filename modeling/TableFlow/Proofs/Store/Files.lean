import TableFlow.Store.FileTree

namespace TableFlow.FileTree

variable {t t' : FileTree} {p : Path} {content : String}

/-- The file at a place. That a directory stands there, or nothing, is the same. -/
def file? (t : FileTree) (place : List String) : Option FileEntry :=
  (t.at? place).filter FileEntry.isFile

theorem isFile_eq (t : FileTree) (p : Path) : t.isFile p = (t.file? p.resolve).isSome := by
  rw [isFile, file?]
  cases t.at? p.resolve with
  | none => rfl
  | some entry => cases entry <;> rfl

theorem read_eq_ok_iff : t.read p = .ok content ↔ t.file? p.resolve = some (.text content) := by
  rw [read, file?]
  cases t.at? p.resolve with
  | none => simp
  | some entry => cases entry <;> simp [FileEntry.isFile]

theorem at?_put {place : List String} (h : t.at? place ≠ some .directory) (entry : FileEntry)
    (q : List String) :
    (t.put place entry).at? q = if q = place then some entry else t.at? q := by
  have hplace : ¬ (place = [] || place = ["/"]) = true := fun hroot => h (by rw [at?, if_pos hroot])
  by_cases hq : q = place
  · subst hq
    rw [if_pos rfl, at?, if_neg hplace]
    simp [put]
  · rw [if_neg hq, at?, at?, put]
    simp only [Std.ExtTreeMap.getElem?_insert, Std.LawfulEqCmp.compare_eq_iff_eq,
      if_neg (Ne.symm hq)]

theorem file?_put {place : List String} (h : t.at? place ≠ some .directory) (entry : FileEntry)
    (q : List String) :
    (t.put place entry).file? q = if q = place then
      (some entry).filter FileEntry.isFile else t.file? q := by
  rw [file?, at?_put h]
  by_cases hq : q = place
  · rw [if_pos hq, if_pos hq]
  · rw [if_neg hq, if_neg hq, file?]

theorem file?_of_createTo {place : List String} {n : Nat} (h : t.createTo place n = .ok t')
    (q : List String) :
    t'.file? q = t.file? q := by
  induction n generalizing t' with
  | zero =>
      cases h
      rfl
  | succ n ih =>
      cases hm : t.createTo place n with
      | error e => simp [createTo, hm, bind, Except.bind] at h
      | ok made =>
          simp only [createTo, hm, bind, Except.bind] at h
          rw [← ih hm]
          cases ha : made.at? (place.take (n + 1)) with
          | some entry =>
              rw [ha] at h
              cases entry <;> cases h
              rfl
          | none =>
              rw [ha] at h
              cases h
              rw [file?_put (by rw [ha]; nofun)]
              by_cases hq : q = place.take (n + 1)
              · rw [if_pos hq, hq, file?, ha]
                rfl
              · rw [if_neg hq]

theorem file?_of_createDirs (h : t.createDirs p = .ok t') (q : List String) :
    t'.file? q = t.file? q :=
  file?_of_createTo h q

theorem file?_of_write (h : t.write p content = .ok t') (q : List String) :
    t'.file? q = if q = p.resolve then some (.text content) else t.file? q := by
  have hput (hdir : t.at? p.resolve ≠ some .directory) (ht : t.put p.resolve (.text content) = t') :
      t'.file? q = if q = p.resolve then some (.text content) else t.file? q := by
    rw [← ht, file?_put hdir]
    rfl
  rw [write] at h
  cases ha : t.at? p.resolve with
  | some entry =>
      rw [ha] at h hput
      cases entry with
      | directory => cases h
      | text | binary => exact hput (by simp) (Except.ok.inj h)
  | none =>
      simp only [ha] at h
      split at h
      · exact hput (by rw [ha]; nofun) (Except.ok.inj h)
      · cases h

theorem file?_of_remove (h : t.remove p = .ok t') (q : List String) :
    t'.file? q = if q = p.resolve then none else t.file? q := by
  rw [remove] at h
  cases ha : t.at? p.resolve with
  | none => rw [ha] at h; cases h
  | some entry =>
      rw [ha] at h
      have hroot : entry ≠ .directory → ¬ (p.resolve = [] || p.resolve = ["/"]) = true := by
        intro he hr
        rw [at?, if_pos hr] at ha
        exact he (Option.some.inj ha).symm
      have herase (he : entry ≠ .directory) (ht : ⟨t.entries.erase p.resolve⟩ = t') :
          t'.file? q = if q = p.resolve then none else t.file? q := by
        subst ht
        by_cases hq : q = p.resolve
        · subst hq
          rw [if_pos rfl, file?, at?, if_neg (hroot he)]
          simp
        · rw [if_neg hq, file?, file?, at?, at?]
          simp only [Std.ExtTreeMap.getElem?_erase, Std.LawfulEqCmp.compare_eq_iff_eq,
            if_neg (Ne.symm hq)]
      cases entry with
      | directory => cases h
      | text | binary => exact herase nofun (Except.ok.inj h)

theorem file?_of_remove_notFound (h : t.remove p = .error .notFound) :
    t.file? p.resolve = none := by
  rw [remove] at h
  rw [file?]
  cases ha : t.at? p.resolve with
  | none => rfl
  | some entry =>
      rw [ha] at h
      cases entry <;> cases h

end TableFlow.FileTree
