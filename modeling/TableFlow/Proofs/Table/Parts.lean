import Mathlib.Algebra.Order.Floor.Div
import TableFlow.Proofs.Table.RoundTrip

namespace TableFlow

namespace Table

structure IsSplit (t : Table) (parts : List Table) : Prop where
  fields_eq : ∀ part ∈ parts, part.fields = t.fields
  rows_eq : parts.flatMap Table.rows = t.rows

theorem foldlM_append (first : Table) {rest : List Table}
    (h : ∀ part ∈ rest, part.fields = first.fields) :
    ∃ t, rest.foldlM append first = .ok t ∧ t.fields = first.fields ∧
      t.rows = first.rows ++ rest.flatMap Table.rows := by
  induction rest generalizing first with
  | nil => exact ⟨first, rfl, rfl, by simp⟩
  | cons part rest ih =>
      obtain ⟨hpart, hrest⟩ := List.forall_mem_cons.mp h
      rw [List.foldlM_cons, append, dif_pos hpart]
      obtain ⟨t, ht, hfields, hrows⟩ := ih ⟨first.fields, first.rows ++ part.rows, _, _⟩ hrest
      exact ⟨t, ht, hfields, by simp [hrows]⟩

theorem ext_of_eq {t t' : Table} (hfields : t.fields = t'.fields) (hrows : t.rows = t'.rows) :
    t = t' := by
  cases t
  cases t'
  cases hfields
  cases hrows
  rfl

/-- The parts of a table make that table. Others among them that have no columns do not count. -/
theorem IsSplit.concat_eq {t : Table} {parts kept : List Table} (h : t.IsSplit kept)
    (hne : kept ≠ []) (hkept : parts.filter (!·.fields.isEmpty) = kept) : concat parts = .ok t := by
  cases kept with
  | nil => exact absurd rfl hne
  | cons first rest =>
      obtain ⟨hfirst, hrest⟩ := List.forall_mem_cons.mp h.fields_eq
      obtain ⟨whole, hwhole, hfields, hrows⟩ :=
        foldlM_append first fun part hp => (hrest part hp).trans hfirst.symm
      rw [concat, hkept]
      rw [ext_of_eq (hfields.trans hfirst) (hrows.trans h.rows_eq)] at hwhole
      exact hwhole

end Table

namespace Csv

theorem Reader.forall_endRecord_ne_nil {r : Reader} (h : ∀ record ∈ r.records, record ≠ []) :
    ∀ record ∈ r.endRecord.records, record ≠ [] := by
  unfold endRecord
  intro record hr
  split at hr
  · rcases Array.mem_push.mp hr with hr | rfl
    · exact h record hr
    · simp
  · exact h record hr

theorem Reader.forall_step_ne_nil {r : Reader} (h : ∀ record ∈ r.records, record ≠ []) (c : Char) :
    ∀ record ∈ (r.step c).records, record ≠ [] := by
  have hbare : ∀ record ∈ (r.stepBare c).records, record ≠ [] := by
    unfold stepBare
    split_ifs
    · exact h
    · exact h
    · exact forall_endRecord_ne_nil h
    · exact h
  unfold step
  split
  · exact hbare
  · split <;> exact h
  · split
    · exact h
    · exact hbare

theorem ne_nil_of_mem_parseRecords {text : String} {records : List (List String)}
    (h : parseRecords text = .ok records) :
    ∀ record ∈ records, record ≠ [] := by
  have hread (cs : List Char) (r : Reader) (hr : ∀ record ∈ r.records, record ≠ []) :
      ∀ record ∈ (cs.foldl Reader.step r).records, record ≠ [] := by
    induction cs generalizing r with
    | nil => exact hr
    | cons c cs ih => exact ih _ (Reader.forall_step_ne_nil hr c)
  have hend := Reader.forall_endRecord_ne_nil (hread text.toList {} (by simp))
  unfold parseRecords Reader.finish at h
  split at h
  · cases h
  · cases h
    simpa using hend

end Csv

namespace Table

end Table
end TableFlow
