import TableFlow.Proofs.Bulk.Batches

namespace TableFlow.Bulk

variable {plan : JobPlan} {m m' : Phase} {turns turns' : List Turn}

theorem Step.isResult {asked : Asked} {answer : Answer} (h : Step plan m asked answer m') :
    asked.isResult = false := by
  cases h <;> rfl

theorem Steps.isResult (h : Steps plan m turns m') : ∀ turn ∈ turns, turn.1.isResult = false := by
  induction h with
  | nil => simp
  | failed hs => simpa using hs.isResult
  | cons hs _ ih => exact List.forall_mem_cons.mpr ⟨hs.isResult, ih⟩

theorem Steps.exists_step {asked : Asked} {r : Except ExecutionFault Answer}
    {front back : List Turn} (h : Steps plan m (front ++ (asked, r) :: back) m') :
    ∃ m₁ answer m₂, Steps plan m front m₁ ∧ Step plan m₁ asked answer m₂ := by
  induction front generalizing m with
  | nil =>
      cases h with
      | failed hs => exact ⟨_, _, _, .nil _, hs⟩
      | cons hs _ => exact ⟨_, _, _, .nil _, hs⟩
  | cons turn front ih =>
      generalize hturns : turn :: front ++ (asked, r) :: back = turns at h
      cases h with
      | nil => cases hturns
      | failed => simp at hturns
      | cons hs hp =>
          obtain ⟨rfl, rfl⟩ := List.cons.inj hturns
          obtain ⟨m₁, answer, m₂, hfront, hstep⟩ := ih hp
          exact ⟨m₁, answer, m₂, .cons hs hfront, hstep⟩

def Phase.Fits (plan : JobPlan) : Phase → Prop
  | .idle => True
  | .submitting _ batches left => batches.length + left.length = plan.payloads.length
  | .polling _ batches => batches.length = plan.payloads.length

theorem Step.fits {asked : Asked} {answer : Answer} (h : Step plan m asked answer m')
    (hm : m.Fits plan) : m'.Fits plan := by
  cases h with
  | create => simp [Phase.Fits]
  | add =>
      simp only [Phase.Fits, List.length_append, List.length_cons, List.length_nil] at hm ⊢
      omega
  | close | poll => simpa [Phase.Fits] using hm

theorem Steps.fits (h : Steps plan m turns m') (hm : m.Fits plan) : m'.Fits plan :=
  h.preserves [] (I := fun _ m => m.Fits plan) Step.fits hm

section Sequence

variable {β γ : Type} {F : γ → List Turn → Except ExecutionFault β → Prop} {xs : List γ}
  {r : Except ExecutionFault (List β)}

theorem Sequence.forall_turns {P : Turn → Prop}
    (hF : ∀ {x turns r}, F x turns r → ∀ turn ∈ turns, P turn) (h : Sequence F xs turns r) :
    ∀ turn ∈ turns, P turn := by
  induction h with
  | nil => simp
  | failed h => exact hF h
  | cons _ h _ ih => exact List.forall_mem_append.mpr ⟨hF h, ih⟩

theorem Sequence.of_singleton {x : γ} (h : Sequence F [x] turns r) :
    ∃ r', F x turns r' ∧ r = r'.map fun y => [y] := by
  cases h with
  | failed h => exact ⟨_, h, rfl⟩
  | cons _ h hrest =>
      cases hrest
      rw [List.append_nil]
      exact ⟨_, h, rfl⟩

theorem Sequence.reads_prefix {asked : γ → Asked} {read : γ → String → Except ExecutionFault β}
    (h : Sequence (fun x => Reads (asked x) (read x)) xs turns r) :
    turns.map (·.1) <+: xs.map asked ∧ ∀ ys, r = .ok ys → turns.map (·.1) = xs.map asked := by
  induction h with
  | nil => simp
  | failed h => cases h <;> exact ⟨by simp, nofun⟩
  | @cons x xs turns y turns' r _ h _ ih =>
      cases h with
      | came =>
          obtain ⟨hp, heq⟩ := ih
          refine ⟨by simpa using hp, fun ys hy => ?_⟩
          cases r with
          | error e => cases hy
          | ok rest => simp [heq rest rfl]

end Sequence

theorem Lists.isResult {job batch : String} {r : Except ExecutionFault (List (Option Table))}
    (h : Lists job batch turns r) :
    ∀ turn ∈ turns, turn.1.isResult = true := by
  cases h with
  | failed => simp [Asked.isResult]
  | listed hs =>
      refine List.forall_mem_cons.mpr ⟨rfl, hs.forall_turns ?_⟩
      intro x turns r h
      cases h <;> simp [Asked.isResult]

theorem Fetched.isResult {request : Request} {job : String} {batches : List BatchInfo}
    {r : Except ExecutionFault Outcome} (h : Fetched request job batches turns r) :
    ∀ turn ∈ turns, turn.1.isResult = true := by
  cases h with
  | query hs => exact hs.forall_turns Lists.isResult
  | mutate hs =>
      refine hs.forall_turns ?_
      intro x turns r h
      cases h <;> simp [Asked.isResult]

theorem mem_successes {entry : Asked × Answer} (h : entry ∈ successes turns) :
    ∃ turn ∈ turns, turn.1 = entry.1 := by
  obtain ⟨⟨asked, r⟩, hm, hr⟩ := List.mem_filterMap.mp h
  cases r with
  | error => cases hr
  | ok answer =>
      cases hr
      exact ⟨_, hm, rfl⟩

theorem isResult_successes {b : Bool} (h : ∀ turn ∈ turns, turn.1.isResult = b) :
    ∀ entry ∈ successes turns, entry.1.isResult = b := by
  intro entry he
  obtain ⟨turn, hm, heq⟩ := mem_successes he
  exact heq ▸ h turn hm

/-- The calls for the results of a job, batch by batch. -/
def dueResults (request : Request) (history : History) : List Asked :=
  let job := history.createdJob?.getD ""
  match request with
  | .query .. => history.submitted.flatMap fun batch =>
      .queryResultIds job batch :: (history.listed batch).map (.queryResultChunk job batch)
  | .mutate .. => history.submitted.map (.batchResults job)

theorem History.listed_eq_nil {history : History}
    (h : ∀ entry ∈ history, ∀ job batch, entry.1 ≠ .queryResultIds job batch) (batch : String) :
    history.listed batch = [] := by
  simp only [listed, List.flatMap_eq_nil_iff]
  rintro ⟨asked, answer⟩ hm
  have hne := h _ hm
  cases asked <;> simp_all

theorem Lists.asks_due {job batch : String} {r : Except ExecutionFault (List (Option Table))}
    (h : Lists job batch turns r) :
    let due :=
      .queryResultIds job batch :: (History.listed (successes turns) batch).map
        (.queryResultChunk job batch)
    turns.map (·.1) <+: due ∧ ∀ parts, r = .ok parts → turns.map (·.1) = due := by
  cases h with
  | failed => exact ⟨by simp, nofun⟩
  | @listed ids turns r hs =>
      have hchunks : History.listed (successes turns) batch = [] := by
        refine History.listed_eq_nil (fun entry he other batch => ?_) batch
        obtain ⟨turn, hm, heq⟩ := mem_successes he
        refine heq ▸ hs.forall_turns (P := fun turn =>
          turn.1 ≠ .queryResultIds other batch) ?_ turn hm
        intro result turns r h
        cases h <;> simp
      have hids : History.listed (successes ((.queryResultIds job batch, .ok (.ids ids)) :: turns))
          batch = ids := by
        rw [successes_ok, ← List.singleton_append, History.listed_append, hchunks]
        simp [History.listed]
      obtain ⟨hp, heq⟩ := hs.reads_prefix
      simp only [hids, List.map_cons, List.cons_prefix_cons, List.cons.injEq, true_and]
      exact ⟨hp, heq⟩

theorem Fetched.asks_due {settings : Settings} {request : Request} {job : String}
    {batches : List BatchInfo} {r : Except ExecutionFault Outcome}
    (hf : Fetched request job batches turns' r)
    (hplan : JobPlan.ofRequest? settings request = some plan)
    (hsteps : Steps plan .idle turns (.polling job batches))
    (ht : Tracks (successes turns) job batches) :
    let due := dueResults request (successes turns ++ successes turns')
    turns'.map (·.1) <+: due ∧ ∀ outcome, r = .ok outcome → turns'.map (·.1) = due := by
  have hnone := History.submitted_eq_nil (isResult_successes hf.isResult)
  have hjob := History.createdJob?_append _ (successes turns') ht.createdJob?
  cases hf with
  | @mutate op object rows _ _ _ parts hs =>
      have hdue : dueResults (.mutate op object rows) (successes turns ++ successes turns') =
          batches.map fun batch => .batchResults job batch.id := by
        simp [dueResults, hjob, hnone, ht.submitted, Function.comp_def]
      obtain ⟨hp, heq⟩ := hs.reads_prefix
      simp only [hdue]
      refine ⟨hp, fun outcome ho => ?_⟩
      cases parts with
      | error e => cases ho
      | ok parts => exact heq parts rfl
  | @query sql object imports shape _ _ _ parts hs =>
      cases hplan
      have hlength : batches.length = 1 := hsteps.fits trivial
      obtain ⟨batch, rfl⟩ := List.length_eq_one_iff.mp hlength
      have hjobTurns : History.listed (successes turns) batch.id = [] := by
        refine History.listed_eq_nil (fun entry he other batch hq => ?_) batch.id
        have hnot := isResult_successes hsteps.isResult entry he
        simp [hq, Asked.isResult] at hnot
      obtain ⟨r, hl, rfl⟩ := hs.of_singleton
      obtain ⟨hp, heq⟩ := hl.asks_due
      have hdue : dueResults (.query sql (some object) imports shape)
          (successes turns ++ successes turns') =
          .queryResultIds job batch.id ::
            (History.listed (successes turns') batch.id).map (.queryResultChunk job batch.id) := by
        simp [dueResults, hjob, hnone, ht.submitted, hjobTurns]
      simp only [hdue]
      refine ⟨hp, fun outcome ho => ?_⟩
      cases r with
      | error e => cases ho
      | ok parts => exact heq parts rfl

end TableFlow.Bulk
