import TableFlow.Backend.Executor
import TableFlow.Proofs.Table.Refusals

namespace TableFlow

/-- Names and rows of which nothing is known. Of the operations on them, only `ofRows` looks at
the names and the lengths. -/
@[ext]
structure Grid where
  fields : List String
  rows : List (List String)
  deriving DecidableEq

def Table.grid (t : Table) : Grid := ⟨t.fields, t.rows⟩

namespace Grid

structure Rectangular (g : Grid) : Prop where
  fields_nodup : g.fields.Nodup
  rows_length : ∀ row ∈ g.rows, row.length = g.fields.length

def ofRows (fields : List String) (rows : List (List String)) : Except TableError Grid :=
  match Table.firstRepeat [] fields with
  | some name => .error (.duplicateField name)
  | none =>
    match Table.firstRagged fields.length 1 rows with
    | some (row, found) => .error (.arity row found fields.length)
    | none => .ok ⟨fields, rows⟩

def empty : Grid := ⟨[], []⟩

def ofCsv (text : String) : Except TableError Grid := do
  match ← Csv.parseRecords text with
  | [] => .ok empty
  | fields :: rows => ofRows fields rows

def chunks (g : Grid) (maxRows : Nat) : List Grid :=
  (groups (maxRows - 1) g.rows).map fun rows => ⟨g.fields, rows⟩

def append (a b : Grid) : Except TableError Grid :=
  if b.fields = a.fields then .ok ⟨a.fields, a.rows ++ b.rows⟩
  else .error (.headerMismatch a.fields b.fields)

def concat (parts : List Grid) : Except TableError Grid :=
  match parts.filter (!·.fields.isEmpty) with
  | [] => .ok empty
  | first :: rest => rest.foldlM append first

def ofValue (name value : String) : Grid := (ofRows [name] [[value]]).toOption.getD empty

/-- What operations can make, one after the other. -/
inductive Made : Grid → Prop
  | ofRows {fields rows g} : ofRows fields rows = .ok g → Made g
  | empty : Made empty
  | ofCsv {text g} : ofCsv text = .ok g → Made g
  | chunk {g maxRows part} : Made g → part ∈ g.chunks maxRows → Made part
  | concat {parts g} : (∀ part ∈ parts, Made part) → concat parts = .ok g → Made g
  | ofValue {name value} : Made (ofValue name value)

variable {g part : Grid} {parts : List Grid} {fields : List String} {rows : List (List String)}
  {text : String}

theorem ofRows_eq_ok_iff : ofRows fields rows = .ok g ↔ g = ⟨fields, rows⟩ ∧ g.Rectangular := by
  unfold ofRows
  split
  · rename_i name hname
    refine iff_of_false nofun ?_
    rintro ⟨rfl, hg⟩
    have hnone := (Table.firstRepeat_eq_none_iff [] fields).mpr ⟨hg.fields_nodup, by simp⟩
    cases hnone.symm.trans hname
  · rename_i hnames
    split
    · rename_i row found hrow
      refine iff_of_false nofun ?_
      rintro ⟨rfl, hg⟩
      have hnone := (Table.firstRagged_eq_none_iff fields.length 1 rows).mpr hg.rows_length
      cases hnone.symm.trans hrow
    · rename_i hrows
      constructor
      · rintro ⟨⟩
        exact ⟨rfl, ((Table.firstRepeat_eq_none_iff [] fields).mp hnames).1,
          (Table.firstRagged_eq_none_iff fields.length 1 rows).mp hrows⟩
      · rintro ⟨rfl, -⟩
        rfl

theorem rectangular_empty : empty.Rectangular := ⟨List.nodup_nil, by simp [empty]⟩

theorem rectangular_of_ofCsv (h : ofCsv text = .ok g) : g.Rectangular := by
  unfold ofCsv at h
  cases hrecords : Csv.parseRecords text with
  | error e =>
      rw [hrecords] at h
      cases h
  | ok records =>
      rw [hrecords] at h
      cases records with
      | nil =>
          cases h
          exact rectangular_empty
      | cons fields rows => exact (ofRows_eq_ok_iff.mp h).2

theorem Rectangular.of_mem_chunks {maxRows : Nat} (h : g.Rectangular)
    (hpart : part ∈ g.chunks maxRows) :
    part.Rectangular := by
  obtain ⟨rows, hrows, rfl⟩ := List.mem_map.mp hpart
  exact ⟨h.fields_nodup, fun row hrow => h.rows_length row (mem_of_mem_groups hrows hrow)⟩

theorem Rectangular.of_append {a b : Grid} (ha : a.Rectangular) (hb : b.Rectangular)
    (h : a.append b = .ok g) :
    g.Rectangular := by
  unfold append at h
  split at h
  · rename_i hfields
    cases h
    refine ⟨ha.fields_nodup, fun row hrow => ?_⟩
    obtain hrow | hrow := List.mem_append.mp hrow
    · exact ha.rows_length row hrow
    · exact (hb.rows_length row hrow).trans (congrArg List.length hfields)
  · cases h

theorem Rectangular.of_foldlM_append {first : Grid} {rest : List Grid} (hfirst : first.Rectangular)
    (hrest : ∀ part ∈ rest, part.Rectangular) (h : rest.foldlM append first = .ok g) :
    g.Rectangular := by
  induction rest generalizing first with
  | nil =>
      cases h
      exact hfirst
  | cons part rest ih =>
      obtain ⟨hpart, hrest⟩ := List.forall_mem_cons.mp hrest
      rw [List.foldlM_cons] at h
      cases hnext : first.append part with
      | error e =>
          rw [hnext] at h
          cases h
      | ok next =>
          rw [hnext] at h
          exact ih (hfirst.of_append hpart hnext) hrest h

theorem rectangular_of_concat (hparts : ∀ part ∈ parts, part.Rectangular)
    (h : concat parts = .ok g) : g.Rectangular := by
  unfold concat at h
  have hkept (part : Grid) (hpart : part ∈ parts.filter (!·.fields.isEmpty)) : part.Rectangular :=
    hparts part (List.mem_filter.mp hpart).1
  split at h
  · cases h
    exact rectangular_empty
  · rename_i first rest hfilter
    rw [hfilter] at hkept
    obtain ⟨hfirst, hrest⟩ := List.forall_mem_cons.mp hkept
    exact hfirst.of_foldlM_append hrest h

theorem ofRows_single (name value : String) :
    ofRows [name] [[value]] = .ok (ofValue name value) := by
  have hg : (⟨[name], [[value]]⟩ : Grid).Rectangular := ⟨List.nodup_singleton name, by simp⟩
  rw [ofValue, ofRows_eq_ok_iff.mpr ⟨rfl, hg⟩]
  rfl

theorem made_iff_rectangular : g.Made ↔ g.Rectangular := by
  constructor
  · intro h
    induction h with
    | ofRows h => exact (ofRows_eq_ok_iff.mp h).2
    | empty => exact rectangular_empty
    | ofCsv h => exact rectangular_of_ofCsv h
    | chunk _ hpart ih => exact ih.of_mem_chunks hpart
    | concat _ h ih => exact rectangular_of_concat ih h
    | ofValue => exact (ofRows_eq_ok_iff.mp (ofRows_single _ _)).2
  · exact fun h => .ofRows (ofRows_eq_ok_iff.mpr ⟨rfl, h⟩)

end Grid

namespace Table

theorem rectangular_grid (t : Table) : t.grid.Rectangular := ⟨t.fields_nodup, t.rows_length⟩

theorem map_grid_ofRows (fields : List String) (rows : List (List String)) :
    (ofRows fields rows).map grid = Grid.ofRows fields rows := by
  cases hnames : firstRepeat [] fields with
  | some name =>
      rw [ofRows_of_repeat hnames, Grid.ofRows, hnames]
      rfl
  | none =>
      cases hrows : firstRagged fields.length 1 rows with
      | some p =>
          rw [ofRows_of_ragged hnames hrows, Grid.ofRows, hnames, hrows]
          rfl
      | none =>
          have hg : (⟨fields, rows⟩ : Grid).Rectangular :=
            ⟨((firstRepeat_eq_none_iff [] fields).mp hnames).1,
              (firstRagged_eq_none_iff fields.length 1 rows).mp hrows⟩
          have htable := ofRows_fields_rows ⟨fields, rows, hg.fields_nodup, hg.rows_length⟩
          exact (congrArg (Except.map grid) htable).trans (Grid.ofRows_eq_ok_iff.mpr ⟨rfl, hg⟩).symm

theorem map_grid_ofCsv (text : String) : (ofCsv text).map grid = Grid.ofCsv text := by
  rw [ofCsv, Grid.ofCsv]
  cases Csv.parseRecords text with
  | error e => rfl
  | ok records =>
      cases records with
      | nil => rfl
      | cons fields rows => exact map_grid_ofRows fields rows

theorem map_grid_chunks (t : Table) (maxRows : Nat) :
    (t.chunks maxRows).map grid = t.grid.chunks maxRows := by
  rw [chunks, List.map_pmap, Grid.chunks]
  change (groups (maxRows - 1) t.rows).pmap (fun rows _ => (⟨t.fields, rows⟩ : Grid)) _ = _
  rw [List.pmap_eq_map]
  rfl

theorem map_grid_append (a b : Table) : (a.append b).map grid = a.grid.append b.grid := by
  unfold append Grid.append
  by_cases h : b.fields = a.fields
  · have hgrid : b.grid.fields = a.grid.fields := h
    rw [dif_pos h, if_pos hgrid]
    rfl
  · have hgrid : b.grid.fields ≠ a.grid.fields := h
    rw [dif_neg h, if_neg hgrid]
    rfl

theorem map_grid_foldlM_append (first : Table) (rest : List Table) :
    (rest.foldlM append first).map grid = (rest.map grid).foldlM Grid.append first.grid := by
  induction rest generalizing first with
  | nil => rfl
  | cons part rest ih =>
      rw [List.foldlM_cons, List.map_cons, List.foldlM_cons, ← map_grid_append]
      cases first.append part with
      | error e => rfl
      | ok next => exact ih next

theorem map_grid_concat (parts : List Table) :
    (concat parts).map grid = Grid.concat (parts.map grid) := by
  have hfilter : (parts.map grid).filter (!·.fields.isEmpty) =
      (parts.filter (!·.fields.isEmpty)).map grid := List.filter_map
  rw [concat, Grid.concat, hfilter]
  cases parts.filter (!·.fields.isEmpty) with
  | nil => rfl
  | cons first rest => exact map_grid_foldlM_append first rest

end Table

def Outcome.grid : Outcome → Grid
  | .table t => t.grid
  | .scalar value => Grid.ofValue "value" value

theorem Outcome.grid_toTable (outcome : Outcome) : outcome.toTable.grid = outcome.grid := by
  cases outcome with
  | table t => rfl
  | scalar value => exact Except.ok.inj (Grid.ofRows_single "value" value)

/-- What is made of tables is made of their names and rows alone, and so are the errors. -/
structure Table.OperatesAsGrid : Prop where
  ofRows (fields : List String) (rows : List (List String)) : (ofRows fields rows).map grid =
    Grid.ofRows fields rows
  empty : empty.grid = Grid.empty
  ofCsv (text : String) : (ofCsv text).map grid = Grid.ofCsv text
  chunks (t : Table) (maxRows : Nat) : (t.chunks maxRows).map grid = t.grid.chunks maxRows
  concat (parts : List Table) : (concat parts).map grid = Grid.concat (parts.map grid)
  toTable (outcome : Outcome) : outcome.toTable.grid = outcome.grid

theorem Table.operatesAsGrid : OperatesAsGrid where
  ofRows := map_grid_ofRows
  empty := rfl
  ofCsv := map_grid_ofCsv
  chunks := map_grid_chunks
  concat := map_grid_concat
  toTable := Outcome.grid_toTable

end TableFlow
