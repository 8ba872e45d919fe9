import TableFlow.Groups

namespace TableFlow

inductive TableError
  | duplicateField (name : String)
  | arity (row found expected : Nat)
  | unterminatedQuote (record : Nat)
  | headerMismatch (expected found : List String)
  deriving DecidableEq, Repr

def TableError.message : TableError → String
  | .duplicateField name => s!"duplicate column name '{name}'"
  | .arity row found expected => s!"row {row} has {found} values, expected {expected}"
  | .unterminatedQuote record => s!"unterminated quoted field starting on record {record}"
  | .headerMismatch expected found =>
      let names := ",".intercalate
      s!"header mismatch: expected [{names expected}], found [{names found}]"

structure Table where
  fields : List String
  rows : List (List String)
  fields_nodup : fields.Nodup
  rows_length : ∀ row ∈ rows, row.length = fields.length
  deriving DecidableEq

namespace Table

def firstRepeat (seen : List String) : List String → Option String
  | [] => none
  | x :: xs => if x ∈ seen then some x else firstRepeat (x :: seen) xs

def firstRagged (width index : Nat) : List (List String) → Option (Nat × Nat)
  | [] => none
  | row :: rows =>
      if row.length = width then firstRagged width (index + 1) rows else some (index, row.length)

theorem firstRepeat_eq_none_iff (seen names : List String) :
    firstRepeat seen names = none ↔ names.Nodup ∧ ∀ x ∈ names, x ∉ seen := by
  induction names generalizing seen with
  | nil => simp [firstRepeat]
  | cons x xs ih =>
      by_cases hx : x ∈ seen
      · simp [firstRepeat, hx]
      · simp only [firstRepeat, hx, if_false, ih, List.nodup_cons, List.mem_cons, not_or]
        grind

theorem firstRagged_eq_none_iff (width index : Nat) (rows : List (List String)) :
    firstRagged width index rows = none ↔ ∀ row ∈ rows, row.length = width := by
  induction rows generalizing index with
  | nil => simp [firstRagged]
  | cons row rows ih => by_cases h : row.length = width <;> simp [firstRagged, h, ih]

/-- Raw names and rows as a table. A repeated name is reported before a row of the wrong length. -/
def ofRows (fields : List String) (rows : List (List String)) : Except TableError Table :=
  match hf : firstRepeat [] fields with
  | some name => .error (.duplicateField name)
  | none =>
    match hr : firstRagged fields.length 1 rows with
    | some (row, found) => .error (.arity row found fields.length)
    | none =>
        .ok ⟨fields, rows, ((firstRepeat_eq_none_iff [] fields).1 hf).1,
          (firstRagged_eq_none_iff _ 1 rows).1 hr⟩

def empty : Table := ⟨[], [], by simp, by simp⟩

def single (name value : String) : Table := ⟨[name], [[value]], by simp, by simp⟩

def headerOnly (fields : List String) (h : fields.Nodup) : Table := ⟨fields, [], h, by simp⟩

def columnIndex (t : Table) (name : String) : Option Nat := t.fields.idxOf? name

def firstValue (t : Table) : Option String := t.rows.head? >>= List.head?

/-- Tables of at most `maxRows` rows, each with the full header; no bound below one row is kept. -/
def chunks (t : Table) (maxRows : Nat) : List Table :=
  (groups (maxRows - 1) t.rows).pmap
    (fun rows h =>
      ⟨t.fields, rows, t.fields_nodup, fun row hr => t.rows_length row (mem_of_mem_groups h hr)⟩)
    (fun _ h => h)

def append (a b : Table) : Except TableError Table :=
  if h : b.fields = a.fields then
    .ok ⟨a.fields, a.rows ++ b.rows, a.fields_nodup, fun row hr =>
      (List.mem_append.1 hr).elim (a.rows_length row)
      (fun hb => h ▸ b.rows_length row hb)⟩
  else .error (.headerMismatch a.fields b.fields)

/-- Tables under the first header. A part without columns holds no rows worth keeping and is
passed over. -/
def concat (parts : List Table) : Except TableError Table :=
  match parts.filter (fun t => !t.fields.isEmpty) with
  | [] => .ok empty
  | first :: rest => rest.foldlM append first

end Table
end TableFlow
