import Mathlib.Algebra.Group.Nat.Even
import TableFlow.Proofs.Table.Parts

namespace TableFlow

namespace Csv

namespace Reader

variable {r : Reader} {c : Char}

theorem mode_stepBare (r : Reader) (c : Char) :
    (r.stepBare c).mode = if c = '"' then .inside else .bare := by
  unfold stepBare endRecord
  split_ifs <;> rfl

/-- A quote leads in or out, and no other character does. -/
theorem step_inside_iff (r : Reader) (c : Char) : (r.step c).mode = .inside ↔
    (r.mode ≠ .inside ↔ c = '"') := by
  unfold step
  split
  · rename_i hmode
    rw [mode_stepBare, hmode]
    split_ifs with hc <;> simp [hc]
  · rename_i hmode
    split_ifs with hc <;> simp [hmode, hc]
  · rename_i hmode
    split_ifs with hc
    · simp [hmode, hc]
    · rw [mode_stepBare]
      simp [hmode, hc]

theorem read_inside_iff (r : Reader) (cs : List Char) :
    (cs.foldl step r).mode = .inside ↔ (r.mode ≠ .inside ↔ Odd (cs.count '"')) := by
  induction cs generalizing r with
  | nil => simp
  | cons c cs ih =>
      rw [List.foldl_cons, ih, ne_eq, step_inside_iff, List.count_cons]
      by_cases hc : c = '"' <;> by_cases hr : r.mode = .inside <;> simp [hc, hr, Nat.odd_add_one]

theorem started_step (h : r.mode ≠ .bare → r.started = true) (hstep : (r.step c).mode ≠ .bare) :
    (r.step c).started = true := by
  have hbare : (r.stepBare c).mode ≠ .bare → (r.stepBare c).started = true := by
    rw [mode_stepBare]
    unfold stepBare
    split_ifs <;> simp
  unfold step at hstep ⊢
  split at hstep
  · exact hbare hstep
  · rename_i hmode
    split_ifs <;> exact h (by simp [hmode])
  · rename_i hmode
    split_ifs at hstep ⊢
    · exact h (by simp [hmode])
    · exact hbare hstep

theorem started_read (h : r.mode ≠ .bare → r.started = true) (cs : List Char)
    (hread : (cs.foldl step r).mode ≠ .bare) : (cs.foldl step r).started = true := by
  induction cs generalizing r with
  | nil => exact h hread
  | cons c cs ih => exact ih (started_step h) hread

end Reader

/-- Reading fails for an odd number of quotes alone. The fault names the record that one more
quote would close. -/
theorem parseRecords_cases (text : String) :
    (Odd (text.toList.count '"') ∧ ∃ closed, parseRecords (text ++ "\"") = .ok closed ∧
      parseRecords text = .error (.unterminatedQuote closed.length)) ∨
    (¬ Odd (text.toList.count '"') ∧ ∃ records, parseRecords text = .ok records) := by
  have hinside := Reader.read_inside_iff {} text.toList
  have hstarted := @Reader.started_read {} nofun text.toList
  have hclosed : (text ++ "\"").toList.foldl Reader.step {} =
      (text.toList.foldl Reader.step {}).step '"' := by
    rw [String.toList_append, List.foldl_append]
    rfl
  unfold parseRecords
  rw [hclosed]
  generalize text.toList.foldl Reader.step {} = r at hinside hstarted ⊢
  obtain ⟨mode, field, started, record, records⟩ := r
  cases mode with
  | inside =>
      obtain rfl : started = true := hstarted nofun
      exact .inl
        ⟨by simpa using hinside, _, rfl, by simp [Reader.finish, Reader.endRecord, Reader.step]⟩
  | bare | closing => exact .inr ⟨by simpa using hinside, _, rfl⟩

end Csv

namespace Table

/-- Why a header and rows make no table. A repeated name is looked for before the length of any
row. -/
inductive Refused (fields : List String) (rows : List (List String)) : TableError → Prop
  | repeated {front name back} : fields = front ++ name :: back → front.Nodup → name ∈ front →
      Refused fields rows (.duplicateField name)
  | ragged {front row back} : fields.Nodup → rows = front ++ row :: back →
      (∀ other ∈ front, other.length = fields.length) → row.length ≠ fields.length →
      Refused fields rows (.arity (front.length + 1) row.length fields.length)

theorem firstRepeat_eq_some_iff {seen names : List String} {name : String} :
    firstRepeat seen names = some name ↔ ∃ front back, names = front ++ name :: back ∧ front.Nodup ∧
      (∀ other ∈ front, other ∉ seen) ∧ (name ∈ seen ∨ name ∈ front) := by
  induction names generalizing seen with
  | nil => simp [firstRepeat]
  | cons first names ih =>
      rw [firstRepeat]
      split_ifs with hseen
      · constructor
        · rintro ⟨⟩
          exact ⟨[], names, by simp [hseen]⟩
        · rintro ⟨_ | ⟨other, front⟩, back, hnames, _, hfresh, _⟩
          · rw [(List.cons.inj hnames).1]
          · obtain rfl := (List.cons.inj hnames).1
            exact absurd hseen (hfresh first List.mem_cons_self)
      · rw [ih]
        constructor
        · rintro ⟨front, back, rfl, hnodup, hfresh, hname⟩
          refine ⟨first :: front, back, rfl, ?_⟩
          grind
        · rintro ⟨_ | ⟨other, front⟩, back, hnames, hnodup, hfresh, hname⟩
          · obtain rfl := (List.cons.inj hnames).1
            simp [hseen] at hname
          · obtain ⟨rfl, rfl⟩ := List.cons.inj hnames
            refine ⟨front, back, rfl, ?_⟩
            grind

theorem firstRagged_eq_some_iff {width index place found : Nat} {rows : List (List String)} :
    firstRagged width index rows = some (place, found) ↔
      ∃ front row back, rows = front ++ row :: back ∧
      (∀ other ∈ front, other.length = width) ∧ row.length ≠ width ∧ place = index + front.length ∧
        found = row.length := by
  induction rows generalizing index with
  | nil => simp [firstRagged]
  | cons first rows ih =>
      rw [firstRagged]
      split_ifs with hwidth
      · rw [ih]
        constructor
        · rintro ⟨front, row, back, rfl, hfront, hrow, rfl, rfl⟩
          exact ⟨first :: front, row, back, rfl, by simpa [hwidth] using hfront,
            hrow, by simp; omega, rfl⟩
        · rintro ⟨_ | ⟨other, front⟩, row, back, hrows, hfront, hrow, rfl, rfl⟩
          · obtain rfl := (List.cons.inj hrows).1
            exact absurd hwidth hrow
          · obtain ⟨rfl, rfl⟩ := List.cons.inj hrows
            exact ⟨front, row, back, rfl, fun r hr => hfront r (List.mem_cons_of_mem _ hr),
              hrow, by simp; omega, rfl⟩
      · constructor
        · rintro ⟨⟩
          exact ⟨[], first, rows, rfl, by simp, hwidth, rfl, rfl⟩
        · rintro ⟨_ | ⟨other, front⟩, row, back, hrows, hfront, hrow, rfl, rfl⟩
          · obtain rfl := (List.cons.inj hrows).1
            rfl
          · obtain rfl := (List.cons.inj hrows).1
            exact absurd (hfront first List.mem_cons_self) hwidth

theorem ofRows_of_repeat {fields : List String} {name : String}
    (h : firstRepeat [] fields = some name) (rows : List (List String)) :
    ofRows fields rows = .error (.duplicateField name) := by
  unfold ofRows
  split
  · rename_i other hother
    rw [Option.some.inj (hother.symm.trans h)]
  · rename_i hnone
    rw [h] at hnone
    cases hnone

theorem ofRows_of_ragged {fields : List String} {rows : List (List String)} {place found : Nat}
    (hnames : firstRepeat [] fields = none)
    (h : firstRagged fields.length 1 rows = some (place, found)) :
    ofRows fields rows = .error (.arity place found fields.length) := by
  unfold ofRows
  split
  · rename_i hother
    rw [hnames] at hother
    cases hother
  · split
    · rename_i hother
      obtain ⟨rfl, rfl⟩ := Prod.mk.inj (Option.some.inj (hother.symm.trans h))
      rfl
    · rename_i hnone
      rw [h] at hnone
      cases hnone

theorem ofRows_eq_error_iff {fields : List String} {rows : List (List String)} {e : TableError} :
    ofRows fields rows = .error e ↔ Refused fields rows e := by
  constructor
  · intro h
    cases hnames : firstRepeat [] fields with
    | some name =>
        obtain ⟨front, back, hfields, hnodup, _, hname⟩ := firstRepeat_eq_some_iff.mp hnames
        obtain rfl := Except.error.inj ((ofRows_of_repeat hnames rows).symm.trans h)
        exact .repeated hfields hnodup (by simpa using hname)
    | none =>
        cases hrows : firstRagged fields.length 1 rows with
        | some p =>
            obtain ⟨front, row, back, hsplit, hfront, hrow, hplace, hfound⟩ :=
              firstRagged_eq_some_iff.mp hrows
            obtain rfl := Except.error.inj ((ofRows_of_ragged hnames hrows).symm.trans h)
            rw [hplace, hfound, Nat.add_comm]
            exact .ragged ((firstRepeat_eq_none_iff [] fields).mp hnames).1 hsplit hfront hrow
        | none =>
            have htable :=
              ofRows_fields_rows ⟨fields, rows, ((firstRepeat_eq_none_iff [] fields).mp hnames).1,
                (firstRagged_eq_none_iff _ 1 rows).mp hrows⟩
            cases htable.symm.trans h
  · rintro (⟨hfields, hnodup, hname⟩ | ⟨hnodup, hsplit, hfront, hrow⟩)
    · exact ofRows_of_repeat
        (firstRepeat_eq_some_iff.mpr ⟨_, _, hfields, hnodup, by simp, .inr hname⟩) rows
    · refine ofRows_of_ragged ((firstRepeat_eq_none_iff [] fields).mpr ⟨hnodup, by simp⟩) ?_
      exact firstRagged_eq_some_iff.mpr ⟨_, _, _, hsplit, hfront, hrow, Nat.add_comm _ _, rfl⟩

theorem ofCsv_eq_error_iff {text : String} {records : List (List String)} {e : TableError}
    (h : Csv.parseRecords text = .ok records) :
    ofCsv text = .error e ↔ ∃ fields rows, records = fields :: rows ∧ Refused fields rows e := by
  rw [ofCsv, h]
  cases records with
  | nil =>
      constructor
      · intro hnone
        cases hnone
      · rintro ⟨_, _, ⟨⟩, _⟩
  | cons fields rows =>
      refine ofRows_eq_error_iff.trans ?_
      constructor
      · exact fun hrefused => ⟨fields, rows, rfl, hrefused⟩
      · rintro ⟨_, _, ⟨⟩, hrefused⟩
        exact hrefused

/-- Text is no list of records just if its quotes are odd in number, and else no table just for
its header or the length of a row. -/
theorem csv_refused_iff (text : String) :
    (Odd (text.toList.count '"') → ∃ closed, Csv.parseRecords (text ++ "\"") = .ok closed ∧
      Csv.parseRecords text = .error (.unterminatedQuote closed.length) ∧
      ofCsv text = .error (.unterminatedQuote closed.length)) ∧
    (¬ Odd (text.toList.count '"') → ∃ records, Csv.parseRecords text = .ok records ∧
      (∀ record ∈ records, record ≠ []) ∧
      ∀ e, ofCsv text = .error e ↔ ∃ fields rows, records = fields :: rows ∧
        Refused fields rows e) := by
  obtain ⟨hodd, closed, hclosed, hfault⟩ | ⟨heven, records, hrecords⟩ := Csv.parseRecords_cases text
  · refine ⟨fun _ => ⟨closed, hclosed, hfault, ?_⟩, fun heven => absurd hodd heven⟩
    rw [ofCsv, hfault]
    rfl
  · refine ⟨fun hodd => absurd hodd heven, fun _ =>
      ⟨records, hrecords, Csv.ne_nil_of_mem_parseRecords hrecords, ?_⟩⟩
    exact fun e => ofCsv_eq_error_iff hrecords

end Table
end TableFlow
