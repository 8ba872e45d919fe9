import TableFlow.Proofs.Store.Tables

namespace TableFlow.TableStore

/-- Of tables written one after the other, the last one that went to the file of `name`. Two
names share a file only if one of them holds slashes. -/
def lastWritten (dir : Path) (written : List (String × Table)) (name : String) : Option Table :=
  written.reverse.findSome? fun (other, data) =>
    if (tablePath dir other).resolve = (tablePath dir name).resolve then some data else none

/-- The files of tables hold what was written to them last, and those to which nothing was
written are as they were. -/
structure Writes (s : TableStore) (written : List (String × Table)) (t : TableStore) : Prop where
  dir : t.dir = s.dir
  file : ∀ name, t.files.file? (tablePath s.dir name).resolve =
    ((lastWritten s.dir written name).map fun data => .text data.toCsv).or
      (s.files.file? (tablePath s.dir name).resolve)

variable {s t u : TableStore} {dir : Path} {written first second : List (String × Table)}
  {name : String} {data : Table} {cached : Bool}

theorem lastWritten_append (first second : List (String × Table)) (name : String) :
    lastWritten dir (first ++ second) name = (lastWritten dir second name).or
      (lastWritten dir first name) := by
  rw [lastWritten, List.reverse_append, List.findSome?_append]
  rfl

theorem lastWritten_singleton (other : String) (data : Table) (name : String) :
    lastWritten dir [(other, data)] name =
      if (tablePath dir other).resolve = (tablePath dir name).resolve then some data else none := by
  rw [lastWritten, List.reverse_singleton, List.findSome?_singleton]

theorem exists_lastWritten (h : (name, data) ∈ written) :
    ∃ last, lastWritten dir written name = some last := by
  rw [← Option.isSome_iff_exists, lastWritten, List.findSome?_isSome_iff]
  exact ⟨(name, data), List.mem_reverse.mpr h, by simp⟩

theorem Writes.refl (s : TableStore) : Writes s [] s := ⟨rfl, fun _ => rfl⟩

theorem Writes.trans (h : Writes s first u) (h' : Writes u second t) :
    Writes s (first ++ second) t where
  dir := h'.dir.trans h.dir
  file name := by
    have hsecond := h'.file name
    rw [h.dir, h.file name] at hsecond
    rw [hsecond, lastWritten_append]
    cases lastWritten s.dir second name <;> rfl

theorem writes_singleton (hdir : t.dir = s.dir)
    (hfile : ∀ place ≠ (manifestPath s.dir).resolve,
      t.files.file? place = if place = (s.path name).resolve then
        some (.text data.toCsv) else s.files.file? place) :
    Writes s [(name, data)] t where
  dir := hdir
  file other := by
    rw [hfile _ (resolve_tablePath_ne_manifestPath s.dir other), lastWritten_singleton, path]
    by_cases hplace : (tablePath s.dir other).resolve = (tablePath s.dir name).resolve
    · rw [if_pos hplace, if_pos hplace.symm]
      rfl
    · rw [if_neg hplace, if_neg (Ne.symm hplace)]
      rfl

theorem writes_of_stores {path : Path} (h : Stores s name data cached (.ok path) t) :
    Writes s [(name, data)] t := by
  cases h with
  | stored _ hdir _ _ hfile =>
      refine writes_singleton hdir fun place hplace => ?_
      rw [hfile, if_neg fun h => hplace h.2]

theorem writes_of_unstored {e : StoreError} (h : Unstored s name data cached e written t) :
    Writes s written t := by
  cases h with
  | noColumns => exact .refl s
  | table _ hdir _ _ hfile => exact ⟨hdir, fun _ => hfile _⟩
  | manifest _ _ hdir _ _ hfile => exact writes_singleton hdir fun place _ => hfile place

theorem Writes.read (h : Writes s written t) {last : Table}
    (hlast : lastWritten s.dir written name = some last) :
    t.files.read (tablePath s.dir name) = .ok last.toCsv := by
  rw [FileTree.read_eq_ok_iff, h.file, hlast]
  rfl

end TableFlow.TableStore
