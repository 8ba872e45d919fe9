import TableFlow.Proofs.Script.Names
import TableFlow.Store.TableStore

namespace TableFlow

namespace Path

/-- The name of something in a directory, not a way to somewhere else. -/
structure IsPlain (piece : String) : Prop where
  noSlash : '/' ∉ piece.toList
  notEmpty : piece ≠ ""
  notHere : piece ≠ "."
  notUp : piece ≠ ".."

theorem ofString_of_isPlain {piece : String} (h : IsPlain piece) : ofString piece = ⟨[piece]⟩ := by
  rw [ofString, List.splitOn_eq_singleton h.noSlash, List.map_singleton, String.ofList_toList]

theorem advance_of_isPlain {piece : String} (h : IsPlain piece) (place : List String) :
    advance place piece = place ++ [piece] := by
  simp [advance, h.notEmpty, h.notHere, h.notUp]

theorem isAbsolute_snoc (pieces : List String) (last : String) :
    isAbsolute ⟨pieces ++ [last]⟩ = (pieces.head? == some "") := by
  cases pieces with
  | nil => simp [isAbsolute]
  | cons piece pieces =>
      by_cases hp : piece = ""
      · subst hp
        cases pieces <;> simp [isAbsolute]
      · have hb : (some piece == some "") = false := by simpa using hp
        rw [List.head?_cons, hb, isAbsolute.eq_def]
        split
        · rename_i heq
          exact absurd (List.cons.inj heq).1 hp
        · rfl

theorem isAbsolute_snoc_of_ne {pieces : List String} (h : pieces.getLast? ≠ some "")
    (last : String) :
    isAbsolute ⟨pieces ++ [last]⟩ = isAbsolute ⟨pieces⟩ := by
  cases hp : pieces.getLast? with
  | none =>
      rw [List.getLast?_eq_none_iff.mp hp, isAbsolute_snoc]
      rfl
  | some piece =>
      obtain ⟨front, rfl⟩ := List.getLast?_eq_some_iff.mp hp
      rw [isAbsolute_snoc, isAbsolute_snoc]
      cases front with
      | nil =>
          have hpiece : piece ≠ "" := fun he => h (by rw [hp, he])
          simpa using hpiece
      | cons => rfl

theorem resolve_join {piece : String} (h : IsPlain piece) (dir : Path) :
    (dir.join piece).resolve = dir.resolve ++ [piece] := by
  have hinner : isAbsolute ⟨[piece]⟩ = false := isAbsolute_snoc [] piece
  rw [join, ofString_of_isPlain h, hinner]
  by_cases hlast : dir.pieces.getLast? = some ""
  · obtain ⟨front, hfront⟩ := List.getLast?_eq_some_iff.mp hlast
    obtain ⟨pieces⟩ := dir
    simp only at hfront
    subst hfront
    have hstay (place : List String) : advance place "" = place := by simp [advance]
    simp [resolve, isAbsolute_snoc, advance_of_isPlain h, List.foldl_append, hstay]
  · simp [resolve, hlast, isAbsolute_snoc_of_ne hlast, advance_of_isPlain h, List.foldl_append]

end Path

open TableFlow.Path

namespace TableStore

variable {dir : Path} {name other : String}

theorem tableFile_ne {s : String} (h : s.toList.length < 4) (name : String) :
    name ++ ".csv" ≠ s := by
  intro heq
  have htext := congrArg (fun s : String => s.toList.length) heq
  simp only [String.toList_append, List.length_append] at htext
  have hfour : ".csv".toList.length = 4 := by decide
  omega

theorem isPlain_tableFile (h : Directive.isName name = true) : IsPlain (name ++ ".csv") := by
  refine ⟨?_, tableFile_ne (by decide) name, tableFile_ne (by decide) name,
    tableFile_ne (by decide) name⟩
  rw [String.toList_append, List.mem_append, not_or]
  exact ⟨notMem_of_isName h (by decide), by decide⟩

theorem resolve_tablePath (h : Directive.isName name = true) :
    (tablePath dir name).resolve = dir.resolve ++ [name ++ ".csv"] :=
      resolve_join (isPlain_tableFile h) dir

theorem resolve_manifestPath (dir : Path) : (manifestPath dir).resolve =
    dir.resolve ++ [".sluice-cached.json"] :=
  resolve_join ⟨by decide, by decide, by decide, by decide⟩ dir

theorem resolve_tablePath_inj (h : Directive.isName name = true)
    (ho : Directive.isName other = true) :
    (tablePath dir name).resolve = (tablePath dir other).resolve ↔ name = other := by
  rw [resolve_tablePath h, resolve_tablePath ho]
  refine ⟨fun heq => ?_, fun heq => by rw [heq]⟩
  have hfile := List.append_cancel_left heq
  simpa using hfile

theorem exists_splitOn_append {sep : Char} {ending : List Char} (h : sep ∉ ending)
    (cs : List Char) :
    ∃ front last, (cs ++ ending).splitOn sep = front ++ [last ++ ending] := by
  induction cs with
  | nil => exact ⟨[], [], List.splitOn_eq_singleton h⟩
  | cons c cs ih =>
      obtain ⟨front, last, hsplit⟩ := ih
      rw [List.cons_append, List.splitOn_cons_eq_if_modifyHead, hsplit]
      split
      · exact ⟨[] :: front, last, rfl⟩
      · cases front with
        | nil => exact ⟨[], c :: last, rfl⟩
        | cons first front => exact ⟨(c :: first) :: front, last, rfl⟩

/-- Whatever its name is, a table is in a file that ends in `.csv`. -/
theorem exists_resolve_tablePath (dir : Path) (name : String) :
    ∃ place file, (tablePath dir name).resolve = place ++ [file ++ ".csv"] := by
  obtain ⟨front, last, hsplit⟩ :=
    exists_splitOn_append (show '/' ∉ ".csv".toList by decide) name.toList
  have hinner : (ofString (name ++ ".csv")).pieces =
      front.map String.ofList ++ [String.ofList last ++ ".csv"] := by
    rw [ofString, String.toList_append, hsplit, List.map_append, List.map_singleton,
      String.ofList_append, String.ofList_toList]
  have hpath : ∃ front', (tablePath dir name).pieces =
      front' ++ [String.ofList last ++ ".csv"] := by
    rw [tablePath, join]
    split
    · exact ⟨_, hinner⟩
    · exact ⟨_, by rw [hinner, ← List.append_assoc]⟩
  have hne {s : String} (hs : s.toList.length < 4) : String.ofList last ++ ".csv" ≠ s :=
    tableFile_ne hs _
  have hadvance (place : List String) :
      advance place (String.ofList last ++ ".csv") = place ++ [String.ofList last ++ ".csv"] := by
    simp [advance, hne (s := "") (by decide), hne (s := ".") (by decide),
      hne (s := "..") (by decide)]
  obtain ⟨front', hpieces⟩ := hpath
  rw [Path.resolve, hpieces, List.foldl_append, List.foldl_cons, List.foldl_nil, hadvance]
  exact ⟨_, _, rfl⟩

theorem resolve_tablePath_ne_manifestPath (dir : Path) (name : String) :
    (tablePath dir name).resolve ≠ (manifestPath dir).resolve := by
  obtain ⟨place, file, hplace⟩ := exists_resolve_tablePath dir name
  rw [hplace, resolve_manifestPath]
  intro heq
  have hfile : file ++ ".csv" = ".sluice-cached.json" := by simpa using (List.append_inj' heq rfl).2
  have hlast := congrArg (fun s : String => s.toList.getLast?) hfile
  simp at hlast

end TableStore
end TableFlow
