import TableFlow.Proofs.Bulk.History

namespace TableFlow.Bulk

/-- The batches of a job are those that have been submitted, each as the service has last shown
it. Before that, it has been seen in no state that ends it. -/
structure Tracks (history : History) (job : String) (batches : List BatchInfo) : Prop where
  createdJob? : history.createdJob? = some job
  submitted : history.submitted = batches.map (·.id)
  mem_submitted : ∀ info ∈ history.shown, info.id ∈ history.submitted
  seen : ∀ batch ∈ batches, ∃ earlier, history.seen batch.id = earlier ++ [batch] ∧
    ∀ info ∈ earlier, info.state.isTerminal = false

namespace Tracks

variable {history : History} {job : String} {batches : List BatchInfo}

theorem create (info : JobInfo) (operation : Operation) (object : String) :
    Tracks [(.createJob operation object, .job info)] info.id [] := ⟨rfl, rfl, by simp, by simp⟩

theorem add (h : Tracks history job batches) (payload : String) (info : BatchInfo)
    (hids : History.KeepsIds (history ++ [(.addBatch job payload, .batch info)])) :
    Tracks (history ++ [(.addBatch job payload, .batch info)]) job (batches ++ [info]) := by
  have hnew : info.id ∉ history.submitted := by
    have hnodup := hids.nodup
    rw [History.submitted_append, List.nodup_append] at hnodup
    exact fun hm => hnodup.2.2 _ hm _ List.mem_cons_self rfl
  refine ⟨History.createdJob?_append _ _ h.createdJob?, by simp [h.submitted], ?_, ?_⟩
  · intro other ho
    simp only [History.shown_append, History.shown_addBatch, History.shown_nil, List.mem_append,
      List.mem_singleton] at ho
    rcases ho with ho | rfl
    · exact History.submitted_append _ _ ▸ List.mem_append_left _ (h.mem_submitted other ho)
    · simp
  · intro batch hb
    rw [History.seen_append, History.seen_singleton rfl]
    rcases List.mem_append.mp hb with hb | hb
    · have hne : info.id ≠ batch.id := by
        intro he
        exact hnew (he ▸ h.submitted ▸ List.mem_map_of_mem hb)
      rw [if_neg hne, List.append_nil]
      exact h.seen batch hb
    · obtain rfl := List.mem_singleton.mp hb
      have hunseen : history.seen batch.id = [] := by
        rw [History.seen, List.filter_eq_nil_iff]
        intro other ho he
        exact hnew (beq_iff_eq.mp he ▸ h.mem_submitted other ho)
      rw [if_pos rfl, hunseen]
      exact ⟨[], rfl, by simp⟩

theorem close (h : Tracks history job batches) (info : JobInfo) :
    Tracks (history ++ [(.closeJob job, .job info)]) job batches :=
  ⟨History.createdJob?_append _ _ h.createdJob?, by simp [h.submitted],
    by simpa using h.mem_submitted, by simpa [History.seen] using h.seen⟩

theorem poll {front back : List BatchInfo} {batch : BatchInfo}
    (h : Tracks history job (front ++ batch :: back)) (hpending : batch.state.isTerminal = false)
    (info : BatchInfo)
    (hids : History.KeepsIds (history ++ [(.batchInfo job batch.id, .batch info)])) :
    Tracks (history ++ [(.batchInfo job batch.id, .batch info)]) job (front ++ info :: back) := by
  have hid : info.id = batch.id := hids.id_eq (List.mem_append_right _ List.mem_cons_self)
  have hsubmitted := h.submitted
  rw [List.map_append, List.map_cons] at hsubmitted
  -- The ids are distinct, so the answer says nothing about the other batches.
  have hothers : ∀ other ∈ front ++ back, info.id ≠ other.id := by
    have hnodup := hids.of_append.nodup
    rw [hsubmitted, List.perm_middle.nodup_iff, List.nodup_cons, ← List.map_append] at hnodup
    intro other ho he
    exact hnodup.1 (hid ▸ he ▸ List.mem_map_of_mem ho)
  refine ⟨History.createdJob?_append _ _ h.createdJob?, by simp [hsubmitted, hid], ?_, ?_⟩
  · intro other ho
    simp only [History.shown_append, History.shown_batchInfo, History.shown_nil, List.mem_append,
      List.mem_singleton] at ho
    rcases ho with ho | rfl
    · exact History.submitted_append _ _ ▸ List.mem_append_left _ (h.mem_submitted other ho)
    · simp [hsubmitted, hid]
  · intro other ho
    rw [History.seen_append, History.seen_singleton rfl]
    by_cases hfresh : other = info
    · subst hfresh
      obtain ⟨earlier, hseen, hearlier⟩ := h.seen batch (by simp)
      rw [if_pos rfl, hid, hseen]
      refine ⟨earlier ++ [batch], rfl, ?_⟩
      simpa [or_imp, forall_and, hpending] using hearlier
    · have ho' : other ∈ front ++ back := by
        simp only [List.mem_append, List.mem_cons, hfresh, false_or] at ho
        exact List.mem_append.mpr ho
      rw [if_neg (hothers other ho'), List.append_nil]
      refine h.seen other ?_
      simp only [List.mem_append, List.mem_cons] at ho' ⊢
      exact ho'.imp_right .inr

theorem append_results {results : History} (h : Tracks history job batches)
    (hresults : ∀ entry ∈ results, entry.1.isResult = true) :
    Tracks (history ++ results) job batches := by
  have hshown := History.shown_eq_nil hresults
  have hsubmitted := History.submitted_eq_nil hresults
  refine ⟨History.createdJob?_append _ _ h.createdJob?, by simp [h.submitted, hsubmitted], ?_, ?_⟩
  · simpa [hshown, hsubmitted] using h.mem_submitted
  · intro batch hb
    rw [History.seen_append, History.seen, History.seen, hshown, List.filter_nil, List.append_nil]
    exact h.seen batch hb

theorem lastState_eq {batch : BatchInfo} (h : Tracks history job batches) (hb : batch ∈ batches) :
    history.lastState batch.id = some batch.state := by
  obtain ⟨earlier, hseen, -⟩ := h.seen batch hb
  simp [History.lastState, hseen]

end Tracks

def Phase.Describes (history : History) : Phase → Prop
  | .idle => history = []
  | .submitting job batches _ | .polling job batches => Tracks history job batches

variable {plan : JobPlan} {m m' : Phase} {history : History}

theorem Step.describes {asked : Asked} {answer : Answer} (h : Step plan m asked answer m')
    (hm : m.Describes history) (hids : History.KeepsIds (history ++ [(asked, answer)])) :
    m'.Describes (history ++ [(asked, answer)]) := by
  cases h with
  | create info =>
      rw [Phase.Describes] at hm
      subst hm
      exact .create info _ _
  | add info => exact hm.add _ info hids
  | close info => exact hm.close info
  | poll info hpending => exact hm.poll hpending info hids

/-- What every step preserves holds after any number of them. The history grows by the turns
that have not failed. -/
theorem Steps.preserves (history : History) {I : History → Phase → Prop}
    (hstep : ∀ {history m asked answer m'}, Step plan m asked answer m' → I history m →
      I (history ++ [(asked, answer)]) m')
    {turns : List Turn} (h : Steps plan m turns m') (hm : I history m) :
    I (history ++ successes turns) m' := by
  induction h generalizing history with
  | nil => simpa using hm
  | failed => simpa using hm
  | cons hs _ ih =>
      rw [successes_ok, ← List.singleton_append, ← List.append_assoc]
      exact ih _ (hstep hs hm)

theorem Steps.describes {turns : List Turn} (h : Steps plan .idle turns m)
    (hids : History.KeepsIds (successes turns)) :
    m.Describes (successes turns) :=
  h.preserves [] (I := fun history m => History.KeepsIds history → m.Describes history)
    (fun hs hm hids => hs.describes (hm hids.of_append) hids) (fun _ => rfl) hids

theorem Steps.tracks {job : String} {batches : List BatchInfo} {turns : List Turn}
    (h : Steps plan .idle turns (.polling job batches))
    (hids : History.KeepsIds (successes turns)) :
    Tracks (successes turns) job batches := h.describes hids

end TableFlow.Bulk
