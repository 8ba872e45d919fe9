import TableFlow.Proofs.Run.Course

namespace TableFlow.Run

variable {σ : Type} {b : Backends σ} {o o' : RunOptions} {step : Step} {shape : Shape}
  {s t t' : RunState σ} {outcome : Outcome} {events events' : List Event} {visit visit' : Visit}
  {tasks : List Task} {visits visits' : List Visit}

/-- Two walks are the same up to a visit for which their options reuse different tables. -/
def Diverge (o o' : RunOptions) (s : TableStore) (visits visits' : List Visit) : Prop :=
  ∃ done visit later visit' later' t, visits = done ++ visit :: later ∧
    visits' = done ++ visit' :: later' ∧
    visit'.step = visit.step ∧ Journal s (done.flatMap Visit.events) t ∧
      reused? o t visit.step ≠ reused? o' t visit.step

theorem diverge_of_performs {r r' : Except JobError Outcome}
    (h : Performs b o step shape s visit r t) (h' : Performs b o' step shape s visit' r' t')
    (hne : reused? o s.store step ≠ reused? o' s.store step) (later later' : List Visit) :
    Diverge o o' s.store (visit :: later) (visit' :: later') := by
  obtain rfl := h.step_eq
  exact ⟨[], visit, later, visit', later', s.store, rfl, rfl, h'.step_eq, .done _, hne⟩

theorem Diverge.cons {s u : TableStore} (h : Diverge o o' u visits visits') (visit : Visit)
    (hj : Journal s visit.events u) : Diverge o o' s (visit :: visits) (visit :: visits') := by
  obtain ⟨done, first, later, first', later', t, rfl, rfl, hs, hdone, hne⟩ := h
  exact ⟨visit :: done, first, later, first', later', t, rfl, rfl, hs, hj.append hdone, hne⟩

theorem Performs.compare {r r' : Except JobError Outcome} (h : Performs b o step shape s visit r t)
    (h' : Performs b o' step shape s visit' r' t') :
    (visit = visit' ∧ r = r' ∧ t = t') ∨ reused? o s.store step ≠ reused? o' s.store step := by
  by_cases hreuse : reused? o s.store step = reused? o' s.store step
  · exact .inl (h.unique h' hreuse)
  · exact .inr hreuse

theorem Walks.compare {r r' : Except JobError Unit} (h : Walks b o tasks s visits r t)
    (h' : Walks b o' tasks s visits' r' t') (hacc : o.accumulator = o'.accumulator) :
    (visits = visits' ∧ r = r' ∧ t = t') ∨ Diverge o o' s.store visits visits' := by
  -- On the first walk. The second one is forced along for as long as both reuse the same tables.
  induction h generalizing visits' with
  | done s =>
      cases h'
      exact .inl ⟨rfl, rfl, rfl⟩
  | skipped hq _ ih =>
      cases h' with
      | skipped _ hw' => exact ih hw'
      | failed hq' | executed hq' => cases hq.symm.trans hq'
  | failed hq hp =>
      cases h' with
      | skipped hq' => cases hq.symm.trans hq'
      | failed _ hp' =>
          obtain ⟨rfl, he, rfl⟩ | hne := hp.compare hp'
          · cases he
            exact .inl ⟨rfl, rfl, rfl⟩
          · exact .inr (diverge_of_performs hp hp' hne _ _)
      | executed _ hp' =>
          obtain ⟨_, he, _⟩ | hne := hp.compare hp'
          · cases he
          · exact .inr (diverge_of_performs hp hp' hne _ _)
  | executed hq hp _ ih =>
      cases h' with
      | skipped hq' => cases hq.symm.trans hq'
      | failed _ hp' =>
          obtain ⟨_, he, _⟩ | hne := hp.compare hp'
          · cases he
          · exact .inr (diverge_of_performs hp hp' hne _ _)
      | executed _ hp' hw' =>
          obtain ⟨rfl, he, rfl⟩ | hne := hp.compare hp'
          · cases he
            obtain ⟨rfl, rfl, rfl⟩ | hdiverge := ih hw'
            · exact .inl ⟨rfl, rfl, rfl⟩
            · exact .inr (hdiverge.cons _ (hp.journal (unrefused_ok _)))
          · exact .inr (diverge_of_performs hp hp' hne _ _)
  | iteration _ ih =>
      cases h' with
      | iteration hw' =>
          rw [← hacc] at hw'
          exact ih hw'
  | rejoin _ ih =>
      cases h' with
      | rejoin hw' =>
          rw [← hacc] at hw'
          exact ih hw'

/-- There is one account of a walk. -/
theorem Walks.unique {r r' : Except JobError Unit} (h : Walks b o tasks s visits r t)
    (h' : Walks b o tasks s visits' r' t') : visits = visits' ∧ r = r' ∧ t = t' := by
  obtain hsame | ⟨_, _, _, _, _, _, _, _, _, _, hne⟩ := h.compare h' rfl
  · exact hsame
  · exact absurd rfl hne

theorem Course.compare {job : Job} {r r' : Except JobError Unit} (h : Course job b o s visits r t)
    (h' : Course job b o' s visits' r' t') (hinputs : o.inputs = o'.inputs)
    (hacc : o.accumulator = o'.accumulator) (hcleanup : o.cleanupScratch = o'.cleanupScratch) :
    (visits = visits' ∧ r = r' ∧ t = t') ∨
      ∃ u, Act.runFrom s (opening job b o) = (.ok (), u) ∧ Diverge o o' u.store visits visits' := by
  have hopening : opening job b o' = opening job b o := by rw [opening, opening, hinputs]
  have hending (p : Except JobError Unit) (v : RunState σ) : ending o' p v = ending o p v := by
    simp only [ending, closing, hcleanup]
  obtain ⟨e, ho, rfl, rfl⟩ | ⟨u, p, v, ho, hw, hend⟩ := h.unopened_or_walks <;>
    obtain ⟨e', ho', rfl, rfl⟩ | ⟨u', p', v', ho', hw', hend'⟩ := h'.unopened_or_walks <;>
    rw [hopening, ho] at ho' <;> cases ho'
  · exact .inl ⟨rfl, rfl, rfl⟩
  · obtain ⟨rfl, rfl, rfl⟩ | hdiverge := hw.compare hw' hacc
    · rw [hending, hend] at hend'
      cases hend'
      exact .inl ⟨rfl, rfl, rfl⟩
    · exact .inr ⟨u, ho, hdiverge⟩

end TableFlow.Run
