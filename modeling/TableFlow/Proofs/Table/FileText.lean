import TableFlow.Proofs.Table.Reading

namespace TableFlow

namespace Csv

inductive LineEnd : List Char → Prop
  | feed : LineEnd ['\n']
  | both : LineEnd ['\r', '\n']
  | ret : LineEnd ['\r']

/-- The texts that records may be written as. Empty lines may stand wherever a line begins, and
the end of the last line may be missing. -/
inductive FileText : List (List String) → List Char → Prop
  | nil : FileText [] []
  | empty {records ending text} : LineEnd ending → FileText records text →
      FileText records (ending ++ text)
  | line {cells line ending records text} : RecordText (cells.length == 1) cells line →
      LineEnd ending →
      FileText records text → FileText (cells :: records) (line ++ ending ++ text)
  | last {cells line} : RecordText (cells.length == 1) cells line → FileText [cells] line

variable {records : List (List String)} {cells : List String} {text ending line : List Char}

theorem read_emptyLine (done : Array (List String)) (h : LineEnd ending) :
    ending.foldl Reader.step { records := done } = { records := done } := by
  cases h <;> rfl

/-- The line feed after a carriage return is read as an empty line. -/
theorem read_endedLine (done : Array (List String)) (h : RecordText (cells.length == 1) cells line)
    (hend : LineEnd ending) :
    (line ++ ending).foldl Reader.step { records := done } = { records := done.push cells } := by
  cases hend with
  | feed => exact read_line done h (.inl rfl)
  | ret => exact read_line done h (.inr rfl)
  | both =>
      have hret := read_line done h (.inr rfl)
      rw [List.append_cons, List.foldl_append, hret]
      exact read_emptyLine _ .feed

theorem finish_openLine (done : Array (List String))
    (h : RecordText (cells.length == 1) cells line) :
    (line.foldl Reader.step { records := done }).finish = .ok (done.push cells).toList := by
  obtain ⟨mode, last, front, hm, hl, hr⟩ := read_openLine done h
  rw [hr]
  cases mode with
  | bare | closing => simp [Reader.finish, Reader.endRecord, ← hl]
  | inside => exact absurd rfl hm

theorem finish_fileText (done : Array (List String)) (h : FileText records text) :
    (text.foldl Reader.step { records := done }).finish = .ok (done.toList ++ records) := by
  induction h generalizing done with
  | nil => simp [Reader.finish, Reader.endRecord]
  | empty hend _ ih => rw [List.foldl_append, read_emptyLine done hend, ih]
  | line hline hend _ ih =>
      rw [List.foldl_append, read_endedLine done hline hend, ih]
      simp
  | last hline =>
      rw [finish_openLine done hline]
      simp

end Csv

namespace Table

theorem ofRows_fields_rows (t : Table) : ofRows t.fields t.rows = .ok t := by
  have hf := (firstRepeat_eq_none_iff [] t.fields).mpr ⟨t.fields_nodup, by simp⟩
  have hr := (firstRagged_eq_none_iff t.fields.length 1 t.rows).mpr t.rows_length
  unfold ofRows
  split
  · rename_i name h
    simp [hf] at h
  · split
    · rename_i h
      simp [hr] at h
    · rfl

/-- A table with columns is read from every text that its header and rows may be written as. -/
theorem ofCsv_of_fileText {t : Table} {text : String}
    (h : Csv.FileText (t.fields :: t.rows) text.toList) :
    ofCsv text = .ok t := by
  have hrecords : Csv.parseRecords text = .ok (t.fields :: t.rows) := Csv.finish_fileText #[] h
  rw [ofCsv, hrecords]
  exact ofRows_fields_rows t

theorem ofCsv_of_fileText_mixed :
    let t : Table := ⟨["a", "b"], [["", "\""], ["x\r\ny", ""]], by decide, by decide⟩
    let text := "\n\r\"a\",b\r\r\n,\"\"\"\"\r\n\"x\r\ny\","
    Csv.FileText (t.fields :: t.rows) text.toList ∧ ofCsv text = .ok t := by
  intro t text
  have hheader : Csv.RecordText (["a", "b"].length == 1) ["a", "b"] "\"a\",b".toList :=
    .cons .quoted (.last (.bare rfl (by decide)))
  have hfirst : Csv.RecordText (["", "\""].length == 1) ["", "\""] ",\"\"\"\"".toList :=
    .cons (.bare rfl (by decide)) (.last .quoted)
  have hlast : Csv.RecordText (["x\r\ny", ""].length == 1) ["x\r\ny", ""] "\"x\r\ny\",".toList :=
    .cons .quoted (.last (.bare rfl (by decide)))
  have hlines : "\n".toList ++ ("\r".toList ++ ("\"a\",b".toList ++ "\r".toList ++ ("\r\n".toList ++
      (",\"\"\"\"".toList ++ "\r\n".toList ++ "\"x\r\ny\",".toList)))) = text.toList := by decide
  have htext : Csv.FileText (t.fields :: t.rows) text.toList := hlines ▸
    .empty .feed
      (.empty .ret (.line hheader .ret (.empty .both (.line hfirst .both (.last hlast)))))
  exact ⟨htext, ofCsv_of_fileText htext⟩

end Table
end TableFlow
