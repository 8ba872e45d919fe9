import TableFlow.Proofs.Table.FileText

namespace TableFlow

namespace Csv

theorem cellText_writeField (lone : Bool) (cell : String) :
    CellText lone cell (writeField lone cell) := by
  unfold writeField
  split
  · exact .quoted
  · rename_i h
    simp only [needsQuotes, Bool.or_eq_true, not_or, Bool.not_eq_true] at h
    refine .bare h.1.1.1 ?_
    rintro rfl rfl
    simp at h

theorem recordText_writeField (lone : Bool) (cell : String) (cells : List String) :
    RecordText lone (cell :: cells)
      (List.intercalate [','] ((cell :: cells).map (writeField lone))) := by
  induction cells generalizing cell with
  | nil =>
      rw [List.map_cons, List.map_nil, List.intercalate_singleton]
      exact .last (cellText_writeField lone cell)
  | cons next cells ih =>
      rw [List.map_cons, List.map_cons, List.intercalate_cons_cons, List.append_assoc,
        List.singleton_append]
      exact .cons (cellText_writeField lone cell) (ih next)

theorem fileText_writeRecords {records : List (List String)} (h : ∀ cells ∈ records, cells ≠ []) :
    FileText records (records.flatMap writeRecord) := by
  induction records with
  | nil => exact .nil
  | cons cells records ih =>
      obtain ⟨hcells, hrecords⟩ := List.forall_mem_cons.mp h
      obtain ⟨cell, cells, rfl⟩ := List.exists_cons_of_ne_nil hcells
      exact .line (recordText_writeField _ cell cells) .feed (ih hrecords)

theorem parseRecords_writeRecords {records : List (List String)}
    (h : ∀ cells ∈ records, cells ≠ []) :
    parseRecords (writeRecords records) = .ok records := by
  rw [parseRecords, writeRecords, String.toList_ofList]
  exact finish_fileText #[] (fileText_writeRecords h)

end Csv

namespace Table

theorem row_ne_nil {t : Table} (h : t.fields ≠ []) {row : List String} (hr : row ∈ t.rows) :
    row ≠ [] := by
  rintro rfl
  exact h (List.length_eq_zero_iff.mp (t.rows_length [] hr).symm)

theorem ofCsv_toCsv {t : Table} (h : t.fields ≠ []) : ofCsv t.toCsv = .ok t := by
  have hrecords : ∀ cells ∈ t.fields :: t.rows, cells ≠ [] := by
    intro cells hc
    rcases List.mem_cons.mp hc with rfl | hc
    · exact h
    · exact row_ne_nil h hc
  rw [ofCsv, toCsv, if_neg (by simpa using h), Csv.parseRecords_writeRecords hrecords]
  exact ofRows_fields_rows t

theorem parseRecords_rowsToCsv {t : Table} (h : t.fields ≠ []) :
    Csv.parseRecords t.rowsToCsv = .ok t.rows :=
  Csv.parseRecords_writeRecords fun _ hr => row_ne_nil h hr

/-- What is written of a table with columns is read as that table, and its rows alone as those
rows. -/
theorem csv_roundTrip (t : Table) (h : t.fields ≠ []) :
    ofCsv t.toCsv = .ok t ∧ Csv.parseRecords t.rowsToCsv = .ok t.rows :=
      ⟨ofCsv_toCsv h, parseRecords_rowsToCsv h⟩

theorem csv_roundTrip_of_line_breaks :
    let t : Table := ⟨["a,b", " \"q\""], [["", "x\r\ny"], ["\r", " "]], by decide, by decide⟩
    t.fields ≠ [] ∧ t.toCsv = "\"a,b\",\" \"\"q\"\"\"\n,\"x\r\ny\"\n\"\r\",\" \"\n" ∧
      ofCsv t.toCsv = .ok t ∧
      Csv.parseRecords t.rowsToCsv = .ok t.rows := by
  intro t
  have h : t.fields ≠ [] := by decide
  exact ⟨h, by decide, csv_roundTrip t h⟩

end Table
end TableFlow
