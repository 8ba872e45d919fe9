import Mathlib.Data.List.Find
import TableFlow.Proofs.Bulk.Operations
import TableFlow.Proofs.Bulk.Results
import TableFlow.Proofs.Rehearsal.Service

namespace TableFlow.Bulk

variable {plan : JobPlan} {m : Phase} {jobTurns resultTurns front back : List Turn}

/-- The turns of a request: those of its job, and then those of its results, if all batches have
completed. -/
structure JobThenResults (plan : JobPlan) (jobTurns resultTurns : List Turn) (m : Phase) :
    Prop where
  steps : Steps plan .idle jobTurns m
  isResult : ∀ turn ∈ resultTurns, turn.1.isResult = true
  completed : resultTurns ≠ [] → ∃ job batches, m = .polling job batches ∧
    ∀ batch ∈ batches, batch.state = .completed

namespace JobThenResults

/-- The state of a batch is not shown again once results are asked for. -/
theorem lastState_completed {turn : Turn} (h : JobThenResults plan jobTurns resultTurns m)
    (hids : History.KeepsIds (successes (jobTurns ++ resultTurns)))
    (hsplit : jobTurns ++ resultTurns = front ++ turn :: back) (hturn : turn.1.isResult = true) :
    ∀ batch ∈ History.submitted (successes (jobTurns ++ resultTurns)),
      History.lastState (successes front) batch = some .completed := by
  rcases append_cons_eq_append hsplit.symm with ⟨back', hback⟩ | ⟨front', rfl, hrest⟩
  · -- A turn of the job asks for no results.
    have hnot := h.steps.isResult turn (by simp [hback])
    rw [hturn] at hnot
    cases hnot
  · obtain ⟨job, batches, rfl, hcompleted⟩ := h.completed (by simp [hrest])
    rw [successes_append] at hids
    have htracks := h.steps.tracks hids.of_append
    have hresults : ∀ turn ∈ front', turn.1.isResult = true :=
      fun turn hm => h.isResult turn (by simp [hrest, hm])
    have hfront := htracks.append_results (isResult_successes hresults)
    intro batch hb
    rw [successes_append, (htracks.append_results (isResult_successes h.isResult)).submitted] at hb
    obtain ⟨info, hinfo, rfl⟩ := List.mem_map.mp hb
    rw [successes_append, hfront.lastState_eq hinfo, hcompleted info hinfo]

theorem polled_pending {job batch : String} {r : Except ExecutionFault Answer}
    (h : JobThenResults plan jobTurns resultTurns m)
    (hids : History.KeepsIds (successes (jobTurns ++ resultTurns)))
    (hsplit : jobTurns ++ resultTurns = front ++ (.batchInfo job batch, r) :: back) :
    ∀ info ∈ History.seen (successes front) batch, info.state.isTerminal = false := by
  rcases append_cons_eq_append hsplit.symm with ⟨back', hback⟩ | ⟨front', -, hfront⟩
  · have hsteps := h.steps
    rw [hback] at hsteps
    obtain ⟨m₁, answer, m₂, hp, hs⟩ := hsteps.exists_step
    rw [hsplit, successes_append] at hids
    have hdescribes := hp.describes hids.of_append
    cases hs with
    | @poll _ before polled after info hpending =>
        obtain ⟨earlier, hseen, hearlier⟩ := hdescribes.seen polled (by simp)
        rw [hseen]
        simpa [or_imp, forall_and, hpending] using hearlier
  · have := h.isResult (.batchInfo job batch, r) (by simp [hfront])
    cases this

end JobThenResults

structure History.FirstFailed (history : History) (info : BatchInfo) : Prop where
  ended : ∀ batch ∈ history.submitted, ∃ state, history.lastState batch = some state ∧
    state.isTerminal = true
  first : history.submitted.find? (history.lastState · != some .completed) = some info.id
  last : (history.seen info.id).getLast? = some info

theorem Tracks.firstFailed {history : History} {job : String} {batches : List BatchInfo}
    {bad : BatchInfo} (h : Tracks history job batches) (hpending : Connection.pending batches = 0)
    (hbad : batches.find? (·.state != .completed) = some bad) : history.FirstFailed bad := by
  refine ⟨?_, ?_, ?_⟩
  · intro batch hb
    rw [h.submitted] at hb
    obtain ⟨info, hinfo, rfl⟩ := List.mem_map.mp hb
    have hterminal : ∀ batch ∈ batches, batch.state.isTerminal = true := by
      simpa [Connection.pending, List.filter_eq_nil_iff] using hpending
    exact ⟨_, h.lastState_eq hinfo, hterminal info hinfo⟩
  · have hcongr : batches.find? ((history.lastState · != some .completed) ∘ (·.id)) =
        batches.find? (·.state != .completed) := by
      refine List.find?_congr fun batch hb => ?_
      rw [Function.comp_apply, h.lastState_eq hb]
      rfl
    rw [h.submitted, List.find?_map, hcongr, hbad]
    rfl
  · obtain ⟨earlier, hseen, -⟩ := h.seen bad (List.mem_of_find?_eq_some hbad)
    simp [hseen]

variable {τ : Type} (t : Transport τ) (settings : Settings)

/-- How a request comes to its end when a batch has not completed. -/
inductive Stops (request : Request) (c : Connection τ) (log : List Exchange) (c' : Connection τ) :
    ExecutionFault → Prop
  | callFailed {x fault} : log.getLast? = some x → x.failed = true → Stops request c log c' fault
  | timeOver {plan job batches began left seconds} :
      JobPlan.ofRequest? settings request = some plan →
      Act.runFrom c (openJob settings plan t) = (.ok (job, batches), began) →
      settings.pollTimeout = some seconds →
      t.clock began.service + 1000 * seconds ≤ t.clock c'.service →
      Stops request c log c' (.unfinished job left seconds)
  | batchEnded {job info} : History.createdJob? (answered log) = some job →
      History.FirstFailed (answered log) info →
      Stops request c log c' (.batchEnded job info)

theorem unlogs_openJob (plan : JobPlan) : Unlogs (openJob settings plan t.logged)
    (openJob settings plan t) :=
  (unlogs_call t settings _).bind fun job => (unlogs_submit t settings job.id _).bind fun _ =>
    .pure _

variable {t settings} {request : Request} {k k' : Connection (Logged τ)} {turns : List Turn}
  {r : Except ExecutionFault Outcome}

theorem JobEnd.exists_steps {r : Except ExecutionFault (String × List BatchInfo)}
    (h : JobEnd t settings plan k k' turns r) :
    ∃ m, Steps plan .idle turns m := by
  cases h with
  | notOpened hp => exact ⟨_, hp⟩
  | opened _ hend =>
      cases hend with
      | completed hp | failed hp | unfinished hp | ended hp => exact ⟨_, hp⟩

namespace RequestEnd

theorem jobThenResults (h : RequestEnd t settings plan request k k' turns r) :
    ∃ jobTurns resultTurns m, turns = jobTurns ++ resultTurns ∧
      JobThenResults plan jobTurns resultTurns m := by
  cases h with
  | notRun hend =>
      obtain ⟨m, hp⟩ := hend.exists_steps
      exact ⟨turns, [], m, (List.append_nil _).symm, hp, by simp, fun h => absurd rfl h⟩
  | fetched hp _ hcompleted hf =>
      exact ⟨_, _, _, rfl, hp, hf.isResult, fun _ => ⟨_, _, rfl, hcompleted⟩⟩

theorem asks_due (h : RequestEnd t settings plan request k k' turns r)
    (hplan : JobPlan.ofRequest? settings request = some plan)
    (hids : History.KeepsIds (successes turns)) :
    (turns.map (·.1)).filter Asked.isResult <+: dueResults request (successes turns) ∧
      ∀ outcome, r = .ok outcome → (turns.map (·.1)).filter Asked.isResult =
        dueResults request (successes turns) := by
  have hjob {turns : List Turn} {m : Phase} (hp : Steps plan .idle turns m) :
      (turns.map (·.1)).filter Asked.isResult = [] := by
    rw [List.filter_eq_nil_iff, List.forall_mem_map]
    intro turn hm
    simp [hp.isResult turn hm]
  cases h with
  | notRun hend =>
      obtain ⟨m, hp⟩ := hend.exists_steps
      rw [hjob hp]
      exact ⟨List.nil_prefix, nofun⟩
  | @fetched job batches turns turns' r hp _ _ hf =>
      rw [successes_append] at hids ⊢
      have hresults : (turns'.map (·.1)).filter Asked.isResult = turns'.map (·.1) :=
        List.filter_eq_self.mpr (List.forall_mem_map.mpr hf.isResult)
      rw [List.map_append, List.filter_append, hjob hp, hresults, List.nil_append]
      exact hf.asks_due hplan hp (hp.tracks hids.of_append)

theorem stops {c : Connection τ} {log : List Exchange} {held : Option Session} (ht : t.Bounded)
    (h : RequestEnd t settings plan request c.logged k' turns r)
    (hconv : Converses c.session log turns r held)
    (hplan : JobPlan.ofRequest? settings request = some plan)
    (hids : History.KeepsIds (successes turns)) {batch : String}
    (hm : batch ∈ History.submitted (successes turns))
    (hlast : History.lastState (successes turns) batch ≠ some .completed) :
    ∃ fault, r = .error fault ∧ Stops t settings request c log k'.bare fault := by
  have hblames {fault : ExecutionFault} (hb : Blames turns fault) : Stops t settings request c
      log k'.bare fault := by
    obtain ⟨x, hx, hfailed⟩ := hconv.getLast?_failed hb
    exact .callFailed hx hfailed
  cases h with
  | @notRun _ fault hend =>
      refine ⟨fault, rfl, ?_⟩
      generalize hr : (Except.error fault : Except ExecutionFault (String × List BatchInfo)) =
        r at hend
      cases hend with
      | notOpened _ hb =>
          cases hr
          exact hblames hb
      | opened hopen hwait =>
          cases hwait with
          | completed => cases hr
          | failed _ hb =>
              cases hr
              exact hblames hb
          | unfinished _ _ htime =>
              cases hr
              have hover := htime ht
              unfold Connection.timedOut at hover
              cases hlimit : settings.pollTimeout with
              | none => simp [hlimit] at hover
              | some seconds =>
                  have hbare := unlogs_openJob t settings plan c.logged
                  rw [hopen] at hbare
                  rw [hlimit] at hover
                  exact .timeOver hplan hbare hlimit (of_decide_eq_true hover)
          | ended hp hz hbad =>
              cases hr
              have htracks := hp.tracks hids
              rw [← hconv.answered_eq] at htracks
              exact .batchEnded htracks.createdJob? (htracks.firstFailed hz hbad)
  | @fetched job batches turns turns' r hp _ hcompleted hf =>
      -- Once results are asked for, every batch was last seen completed, and none is shown again.
      rw [successes_append] at hids hm hlast
      have htracks := (hp.tracks hids.of_append).append_results (isResult_successes hf.isResult)
      rw [htracks.submitted] at hm
      obtain ⟨info, hinfo, rfl⟩ := List.mem_map.mp hm
      rw [htracks.lastState_eq hinfo, hcompleted info hinfo] at hlast
      exact absurd rfl hlast

end RequestEnd

variable (t settings)

/-- Results are asked for only when every batch of the job was last seen completed, and then
once for each batch, in the order in which they were submitted. A batch that was seen in a state
that ends it is not polled again. A batch that ends otherwise fails the request, though not
before all batches have ended, unless a call fails or the time is over. -/
theorem execute_waits_for_batches (endpoint : Endpoint) (request : Request) (files : FileTree)
    (c : Connection τ)
    (hids : History.KeepsIds (answered (exchanges t settings endpoint request files c))) :
    let run := Act.runFrom c ((executor endpoint t settings).execute request files)
    let log := exchanges t settings endpoint request files c
    let history : History := answered log
    (∀ before session asked answer after, log = before ++ .call session asked answer :: after →
      asked.isResult = true →
      ∀ batch ∈ history.submitted, History.lastState (answered before) batch = some .completed) ∧
    ((operations log).filter Asked.isResult <+: dueResults request history ∧
      ∀ outcome, run.1 = .ok outcome → (operations log).filter Asked.isResult =
        dueResults request history) ∧
    (∀ before session job batch answer after,
      log = before ++ .call session (.batchInfo job batch) answer :: after →
      ∀ info ∈ History.seen (answered before) batch, info.state.isTerminal = false) ∧
    (t.Bounded → ∀ batch ∈ history.submitted, ∀ state, history.lastState batch = some state →
      state.isTerminal = true → state ≠ .completed →
      ∃ fault, run.1 = .error fault ∧ Stops t settings request c log run.2 fault) := by
  cases hplan : JobPlan.ofRequest? settings request with
  | none =>
      obtain ⟨turns, r, k', hrun, hconv, rfl⟩ :=
        exists_run_of_meets t settings (meets_execute_none t settings endpoint files hplan) c
      rw [hconv.log_eq_nil rfl]
      cases request <;> simp [dueResults, operations]
  | some plan =>
      obtain ⟨turns, r, k', hrun, hconv, hend⟩ :=
        exists_run_of_meets t settings (meets_execute t settings endpoint files hplan) c
      obtain ⟨jobTurns, resultTurns, m, hturns, hjr⟩ := hend.jobThenResults
      rw [hrun]
      intro run log history
      have hhistory : history = successes turns := hconv.answered_eq
      rw [hhistory]
      rw [hconv.answered_eq] at hids
      refine ⟨?_, ?_, ?_, ?_⟩
      · intro before session asked answer after hx hresult
        obtain ⟨front, r, back, hfront, hbefore⟩ := hconv.exists_turn hx
        rw [hbefore]
        subst hturns
        exact hjr.lastState_completed hids hfront hresult
      · obtain ⟨hdue, heq⟩ := hend.asks_due hplan hids
        refine ⟨(hconv.operations_prefix.filter _).trans hdue, fun outcome ho => ?_⟩
        obtain rfl : r = .ok outcome := ho
        rw [hconv.operations_eq]
        exact heq outcome rfl
      · intro before session job batch answer after hx
        obtain ⟨front, r, back, hfront, hbefore⟩ := hconv.exists_turn hx
        rw [hbefore]
        subst hturns
        exact hjr.polled_pending hids hfront
      · intro ht batch hm state hlast _ hne
        exact hend.stops ht hconv hplan hids hm (by simp [hlast, hne])

open Rehearsal

def twoNames : Table := ⟨["Name"], [["a"], ["b"]], by decide, by decide⟩

theorem chunks_twoNames : twoNames.chunks 1 =
    [⟨["Name"], [["a"]], by decide, by decide⟩, ⟨["Name"], [["b"]], by decide, by decide⟩] := by
  simp [Table.chunks, groups, twoNames]

def firstFails : Connection Listened :=
  { service := ⟨{ replies := [.ok { session := "s" }, .ok { id := "j" },
    .ok { id := "x", state := "Queued" }, .ok { id := "y", state := "Queued" }, .ok { id := "j" },
  .ok { id := "x", state := "Failed" }, .ok { id := "y", state := "InProgress" },
  .ok { id := "y", state := "Completed" }] }, []⟩ }

theorem answered_firstFails :
    answered
      (exchanges (transport .dst) { maxBatchRows := 1 } .dst (.mutate .insert "Account" twoNames)
        .empty firstFails) =
      [(.createJob .insert "Account", .job ⟨"j", ""⟩),
        (.addBatch "j" "Name\na\n", .batch ⟨"x", .queued, none⟩),
        (.addBatch "j" "Name\nb\n", .batch ⟨"y", .queued, none⟩), (.closeJob "j", .job ⟨"j", ""⟩),
        (.batchInfo "j" "x", .batch ⟨"x", .failed, none⟩),
        (.batchInfo "j" "y", .batch ⟨"y", .inProgress, none⟩),
        (.batchInfo "j" "y", .batch ⟨"y", .completed, none⟩)] := by
  simp only [exchanges, executor, Connection.mutate, chunks_twoNames]
  decide +kernel

theorem execute_waits_for_batches_firstFails :
    let request := Request.mutate .insert "Account" twoNames
    let run :=
      Act.runFrom firstFails
        ((executor .dst (transport .dst) { maxBatchRows := 1 }).execute request .empty)
    let log := exchanges (transport .dst) { maxBatchRows := 1 } .dst request .empty firstFails
    History.KeepsIds (answered log) ∧
      ∃ fault, run.1 = .error fault ∧ Stops (transport .dst) { maxBatchRows := 1 } request
        firstFails log run.2 fault := by
  have hids : History.KeepsIds (answered (exchanges (transport .dst) { maxBatchRows := 1 } .dst
      (.mutate .insert "Account" twoNames) .empty firstFails)) := by
    rw [answered_firstFails]
    decide
  obtain ⟨-, -, -, hstops⟩ := execute_waits_for_batches (transport .dst) { maxBatchRows := 1 } .dst
    (.mutate .insert "Account" twoNames) .empty firstFails hids
  refine ⟨hids, hstops (transport_bounded .dst) "x" ?_ .failed ?_ rfl nofun⟩
  · rw [answered_firstFails]
    decide
  · rw [answered_firstFails]
    decide

end TableFlow.Bulk
