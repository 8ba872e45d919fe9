import TableFlow.Bulk.Rejection
import TableFlow.Proofs.Bulk.Mutation
import TableFlow.Proofs.Table.Grid

namespace TableFlow

theorem Grid.Rectangular.lt_length {g : Grid} {row : List String} {name : String} {i : Nat}
    (h : g.Rectangular) (hi : g.fields.idxOf? name = some i) (hrow : row ∈ g.rows) :
    i < row.length := by
  obtain ⟨hlt, -⟩ := List.idxOf?_eq_some_iff.mp hi
  rwa [h.rows_length row hrow]

namespace Bulk

variable {row : List String} {success : Nat} {error : Option Nat}

theorem valueAt_of_lt {i : Nat} (h : i < row.length) : valueAt row i = .ok row[i] := by
  rw [valueAt, List.getElem?_eq_getElem h]

theorem exists_errorIn (h : ∀ i ∈ error, i < row.length) :
    ∃ text, errorIn error row = .ok text := by
  cases error with
  | none => exact ⟨"", rfl⟩
  | some i => exact ⟨_, valueAt_of_lt (h i rfl)⟩

theorem exists_rejection? (hsuccess : success < row.length) (herror : ∀ i ∈ error, i < row.length) :
    ∃ answer, rejection? success error row = .ok answer := by
  obtain ⟨text, htext⟩ := exists_errorIn herror
  simp only [rejection?, valueAt_of_lt hsuccess]
  by_cases hfalse : row[success].toLower = "false"
  · refine ⟨some text, (if_pos hfalse).trans ?_⟩
    rw [htext]
    rfl
  · exact ⟨none, if_neg hfalse⟩

theorem exists_mapM {α β ε : Type} {f : α → Except ε β} {xs : List α}
    (h : ∀ x ∈ xs, ∃ y, f x = .ok y) :
    ∃ ys, xs.mapM f = .ok ys := by
  induction xs with
  | nil => exact ⟨[], rfl⟩
  | cons x xs ih =>
      obtain ⟨⟨y, hy⟩, hrest⟩ := List.forall_mem_cons.mp h
      obtain ⟨ys, hys⟩ := ih hrest
      refine ⟨y :: ys, ?_⟩
      rw [List.mapM_cons, hy, hys]
      rfl

theorem exists_rejectionLog (endpoint : Endpoint) (object : String) (op : MutationOp) (t : Table) :
    ∃ log, rejectionLog endpoint object op t = .ok log := by
  cases hsuccess : t.columnIndex "Success" with
  | none => exact ⟨[], by rw [rejectionLog, hsuccess]⟩
  | some success =>
      have hanswers : ∀ row ∈ t.rows, ∃ answer,
          rejection? success (t.columnIndex "Error") row = .ok answer :=
        fun row hrow => exists_rejection? (t.rectangular_grid.lt_length hsuccess hrow)
          fun i hi => t.rectangular_grid.lt_length hi hrow
      obtain ⟨answers, hanswers⟩ := exists_mapM hanswers
      simp only [rejectionLog, hsuccess, hanswers]
      exact ⟨_, rfl⟩

variable {τ : Type} (t : Transport τ) (settings : Settings)

theorem exists_table_of_mutate {endpoint : Endpoint} {op : MutationOp} {object : String}
    {rows : Table} {files : FileTree} {c : Connection τ} {outcome : Outcome}
    (h : (Act.runFrom c ((executor endpoint t settings).execute (.mutate op object rows) files)).1 =
      .ok outcome) :
    ∃ out, outcome = .table out := by
  by_cases hrows : rows.rows = []
  · simp only [executor, Connection.mutate, hrows, List.isEmpty_nil, if_true] at h
    exact ⟨_, (Except.ok.inj h).symm⟩
  · have hplan : JobPlan.ofRequest? settings (.mutate op object rows) =
        some ⟨.ofMutation op, object, (rows.chunks settings.maxBatchRows).map Table.toCsv⟩ := by
      simp [JobPlan.ofRequest?, hrows]
    obtain ⟨turns, r, k', hrun, -, hend⟩ :=
      exists_run_of_meets t settings (meets_execute t settings endpoint files hplan) c
    rw [hrun] at h
    obtain rfl : r = .ok outcome := h
    cases hend with
    | fetched _ _ _ hf =>
        obtain ⟨_, out, -, -, rfl⟩ := hf.of_mutate
        exact ⟨out, rfl⟩

/-- Tables have distinct names and rows of one length however they are made. So a column that is
found is found in every row, by the log that is told of a service's answers as well, and a
single value is a table. -/
theorem tables_stay_rectangular :
    Table.OperatesAsGrid ∧ (∀ g : Grid, g.Made ↔ g.Rectangular) ∧
      (∀ g : Grid, g.Made → ∀ name i, g.fields.idxOf? name = some i →
        ∀ row ∈ g.rows, i < row.length) ∧
      (∀ {τ : Type} (t : Transport τ) (settings : Settings) (endpoint : Endpoint)
        (op : MutationOp) (object : String) (rows : Table) (files : FileTree) (c : Connection τ)
        (outcome : Outcome),
        (Act.runFrom c ((executor endpoint t settings).execute (.mutate op object rows) files)).1 =
          .ok outcome →
        ∃ out log, outcome = .table out ∧ rejectionLog endpoint object op out = .ok log) ∧
      ∀ value, Grid.ofRows ["value"] [[value]] = .ok (Outcome.scalar value).grid := by
  refine ⟨Table.operatesAsGrid, fun g => Grid.made_iff_rectangular, ?_, ?_,
    Grid.ofRows_single "value"⟩
  · intro g hg name i hi row hrow
    exact (Grid.made_iff_rectangular.mp hg).lt_length hi hrow
  · intro τ t settings endpoint op object rows files c outcome h
    obtain ⟨out, rfl⟩ := exists_table_of_mutate t settings h
    obtain ⟨log, hlog⟩ := exists_rejectionLog endpoint object op out
    exact ⟨out, log, rfl, hlog⟩

open Rehearsal

def rejectingTwo : Connection Listened :=
  { service := ⟨{ replies := [.ok { session := "s" }, .ok { id := "j" },
    .ok { id := "x", state := "Completed" }, .ok { id := "y", state := "Completed" },
    .ok { id := "j" },
  .ok { text := "Id,Success,Error\n1,true,\n,FALSE,taken\n" },
  .ok { text := "Id,Success,Error\n,false,\"no, never\"\n" }] }, []⟩ }

def rejectedTwo : Table :=
  ⟨["Id", "Success", "Error"],
    [["1", "true", ""], ["", "FALSE", "taken"], ["", "false", "no, never"]], by decide, by decide⟩

theorem made_rejectedTwo : rejectedTwo.grid.Made := by
  refine @Grid.Made.concat
    [⟨["Id", "Success", "Error"], [["1", "true", ""], ["", "FALSE", "taken"]]⟩,
    ⟨["Id", "Success", "Error"], [["", "false", "no, never"]]⟩] _ ?_ (by decide)
  refine List.forall_mem_cons.mpr ⟨?_, List.forall_mem_singleton.mpr ?_⟩
  · exact @Grid.Made.ofCsv "Id,Success,Error\n1,true,\n,FALSE,taken\n" _ (by decide +kernel)
  · exact @Grid.Made.ofCsv "Id,Success,Error\n,false,\"no, never\"\n" _ (by decide +kernel)

theorem tables_stay_rectangular_rejecting :
    rejectedTwo.grid.Made ∧ (∀ row ∈ rejectedTwo.grid.rows, 2 < row.length) ∧
      (Act.runFrom rejectingTwo ((executor .dst (transport .dst) { maxBatchRows := 2 }).execute
        (.mutate .insert "Account" threeLabels) .empty)).1 = .ok (.table rejectedTwo) ∧
      rejectionLog .dst "Account" .insert rejectedTwo =
        .ok [.rejected .dst "Account" .insert 2 "taken",
        .rejected .dst "Account" .insert 3 "no, never", .finished .dst "Account" .insert 3 2] ∧
      ∃ out log, Outcome.table rejectedTwo = .table out ∧
        rejectionLog .dst "Account" .insert out = .ok log := by
  have hok :
      (Act.runFrom rejectingTwo ((executor .dst (transport .dst) { maxBatchRows := 2 }).execute
      (.mutate .insert "Account" threeLabels) .empty)).1 = .ok (.table rejectedTwo) := by
    simp only [executor, Connection.mutate, chunks_threeLabels]
    decide +kernel
  obtain ⟨-, -, hfound, hlog, -⟩ := tables_stay_rectangular
  refine ⟨made_rejectedTwo, hfound _ made_rejectedTwo "Error" 2 (by decide), hok, ?_, ?_⟩
  · decide +kernel
  · exact hlog (transport .dst) _ .dst .insert "Account" threeLabels .empty rejectingTwo _ hok

end Bulk
end TableFlow
