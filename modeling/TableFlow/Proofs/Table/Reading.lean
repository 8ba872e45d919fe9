import TableFlow.Table.Csv

namespace TableFlow.Csv

variable (field : String) (started : Bool) (record : Array String) (records : Array (List String))

abbrev bareReader : Reader := ⟨.bare, field, started, record, records⟩

theorem ofList_push (f : String) (c : Char) (cs : List Char) :
    String.ofList ((f.push c).toList ++ cs) = String.ofList (f.toList ++ c :: cs) := by
  rw [String.toList_push, List.append_assoc, List.singleton_append]

theorem read_bare (cs : List Char) (h : cs.any special = false) :
    cs.foldl Reader.step (bareReader field started record records) =
      bareReader (String.ofList (field.toList ++ cs)) (started || !cs.isEmpty) record records := by
  induction cs generalizing field started with
  | nil => simp
  | cons c cs ih =>
      simp only [List.any_cons, Bool.or_eq_false_iff, special, beq_eq_false_iff_ne] at h
      obtain ⟨⟨⟨⟨hcomma, hquote⟩, hlf⟩, hcr⟩, hrest⟩ := h
      have hstep : Reader.step (bareReader field started record records) c =
          bareReader (field.push c) true record records := by
        simp [Reader.step, Reader.stepBare, hquote, hcomma, hlf, hcr]
      rw [List.foldl_cons, hstep, ih _ _ hrest, ofList_push]
      simp

theorem read_doubled (cs : List Char) :
    (doubled cs).foldl Reader.step ⟨.inside, field, started, record, records⟩ =
      ⟨.inside, String.ofList (field.toList ++ cs), started, record, records⟩ := by
  induction cs generalizing field with
  | nil => simp [doubled]
  | cons c cs ih =>
      have hc : (doubled [c]).foldl Reader.step ⟨.inside, field, started, record, records⟩ =
          ⟨.inside, field.push c, started, record, records⟩ := by
        by_cases hq : c = '"' <;> simp [doubled, Reader.step, hq]
      have hsplit : doubled (c :: cs) = doubled [c] ++ doubled cs := by simp [doubled]
      rw [hsplit, List.foldl_append, hc, ih, ofList_push]

theorem read_quoted (cs : List Char) :
    (quoted cs).foldl Reader.step (bareReader field started record records) =
      ⟨.closing, String.ofList (field.toList ++ cs), true, record, records⟩ := by
  have hopen : Reader.step (bareReader field started record records) '"' =
      ⟨.inside, field, true, record, records⟩ := rfl
  rw [quoted, List.cons_append, List.foldl_cons, hopen, List.foldl_append, read_doubled]
  rfl

/-- The texts that a cell may be written as. Bare text holds no special character, and the only
cell of a record is not left out. -/
inductive CellText (lone : Bool) (cell : String) : List Char → Prop
  | quoted : CellText lone cell (quoted cell.toList)
  | bare : cell.toList.any special = false → (lone = true → cell ≠ "") →
      CellText lone cell cell.toList

theorem read_cell {lone : Bool} {cell : String} {text : List Char} (h : CellText lone cell text) :
    ∃ mode started', mode ≠ .inside ∧ (lone = true ∨ started = true → started' = true) ∧
      text.foldl Reader.step (bareReader "" started record records) =
        ⟨mode, cell, started', record, records⟩ := by
  cases h with
  | quoted =>
      refine ⟨.closing, true, by decide, fun _ => rfl, ?_⟩
      rw [read_quoted, String.toList_empty, List.nil_append, String.ofList_toList]
  | bare hs hl =>
      refine ⟨.bare, started || !cell.toList.isEmpty, by decide, ?_, ?_⟩
      · rintro (hlone | rfl)
        · simp [hl hlone]
        · rfl
      · rw [read_bare _ _ _ _ _ hs, String.toList_empty, List.nil_append, String.ofList_toList]

theorem step_comma {mode : Mode} (hm : mode ≠ .inside) :
    Reader.step ⟨mode, field, started, record, records⟩ ',' =
      bareReader "" true (record.push field) records := by
  cases mode with
  | bare | closing => rfl
  | inside => exact absurd rfl hm

inductive RecordText (lone : Bool) : List String → List Char → Prop
  | last {cell text} : CellText lone cell text → RecordText lone [cell] text
  | cons {cell text cells rest} : CellText lone cell text → RecordText lone cells rest →
      RecordText lone (cell :: cells) (text ++ ',' :: rest)

/-- The last cell of a record stays in the field until the line ends. The record counts as
started by then, also if all its cells are empty. -/
theorem read_record {lone : Bool} {cells : List String} {text : List Char}
    (h : RecordText lone cells text) (hs : lone = true ∨ started = true ∨ 1 < cells.length) :
    ∃ mode last front, mode ≠ .inside ∧ (front.push last).toList = record.toList ++ cells ∧
      text.foldl Reader.step (bareReader "" started record records) =
        ⟨mode, last, true, front, records⟩ := by
  induction h generalizing started record with
  | @last cell text hc =>
      obtain ⟨mode, started', hm, ht, hr⟩ := read_cell started record records hc
      obtain rfl : started' = true := ht (by simpa using hs)
      exact ⟨mode, cell, record, hm, by simp, hr⟩
  | @cons cell text cells rest hc _ ih =>
      obtain ⟨mode, started', hm, -, hr⟩ := read_cell started record records hc
      -- the comma starts the record, so the rest needs no content of its own
      obtain ⟨mode', last, front, hm', hl, hr'⟩ := ih true (record.push cell) (.inr (.inl rfl))
      refine ⟨mode', last, front, hm', by simpa using hl, ?_⟩
      rw [List.foldl_append, hr, List.foldl_cons, step_comma _ _ _ _ hm, hr']

theorem step_lineEnd {mode : Mode} {c : Char} (hm : mode ≠ .inside) (hc : c = '\n' ∨ c = '\r') :
    Reader.step ⟨mode, field, true, record, records⟩ c =
      { records := records.push (record.push field).toList } := by
  rcases hc with rfl | rfl <;> cases mode with
  | bare | closing => rfl
  | inside => exact absurd rfl hm

theorem read_openLine {cells : List String} {text : List Char}
    (h : RecordText (cells.length == 1) cells text) :
    ∃ mode last front, mode ≠ .inside ∧ (front.push last).toList = cells ∧
      text.foldl Reader.step { records } = ⟨mode, last, true, front, records⟩ := by
  have hs : (cells.length == 1) = true ∨ false = true ∨ 1 < cells.length := by
    cases h with
    | last => exact .inl rfl
    | cons _ hr => cases hr <;> simp
  exact read_record false #[] records h hs

theorem read_line {cells : List String} {text : List Char} {c : Char}
    (h : RecordText (cells.length == 1) cells text) (hc : c = '\n' ∨ c = '\r') :
    (text ++ [c]).foldl Reader.step { records } = { records := records.push cells } := by
  obtain ⟨mode, last, front, hm, hl, hr⟩ := read_openLine records h
  rw [List.foldl_append, hr, List.foldl_cons, List.foldl_nil, step_lineEnd _ _ _ hm hc, hl]

end TableFlow.Csv
