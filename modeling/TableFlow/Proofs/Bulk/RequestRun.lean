import TableFlow.Proofs.Bulk.JobRun

namespace TableFlow.Bulk

open Connection

/-- The job of a request. A query without an object has none, and nor has a mutation without
rows. -/
def JobPlan.ofRequest? (settings : Settings) : Request → Option JobPlan
  | .query sql (some object) _ _ => some ⟨.query, object, [sql]⟩
  | .query _ none _ _ => none
  | .mutate op object rows =>
      if rows.rows.isEmpty then none
      else some ⟨.ofMutation op, object, (rows.chunks settings.maxBatchRows).map Table.toCsv⟩

inductive Reads {β : Type} (asked : Asked) (read : String → Except ExecutionFault β) :
    List Turn → Except ExecutionFault β → Prop
  | failed {fault} : Reads asked read [(asked, .error fault)] (.error fault)
  | came {text r} : read text = r → Reads asked read [(asked, .ok (.text text))] r

/-- The results of a query batch are listed once and then read one by one. -/
inductive Lists (job batch : String) : List Turn →
    Except ExecutionFault (List (Option Table)) → Prop
  | failed {fault} : Lists job batch [(.queryResultIds job batch, .error fault)] (.error fault)
  | listed {ids turns r} :
      Sequence (fun result => Reads (.queryResultChunk job batch result) (readChunk result)) ids
        turns r →
      Lists job batch ((.queryResultIds job batch, .ok (.ids ids)) :: turns) r

def readResults (batch text : String) : Except ExecutionFault Table :=
  (Table.ofCsv text).mapError (.unreadableResults batch)

/-- How the results of a completed job are fetched, and the outcome that they make. -/
inductive Fetched : Request → String → List BatchInfo → List Turn →
    Except ExecutionFault Outcome → Prop
  | query {sql object imports shape job batches turns parts} :
      Sequence (fun batch => Lists job batch.id) batches turns parts →
      Fetched (.query sql (some object) imports shape) job batches turns
        (parts.bind fun parts =>
          ((Table.concat (parts.flatten.filterMap id)).mapError .mixedResults).map
            (Outcome.ofTable shape))
  | mutate {op object rows job batches turns parts} :
      Sequence (fun batch => Reads (.batchResults job batch.id) (readResults batch.id))
        batches turns parts →
      Fetched (.mutate op object rows) job batches turns
        (parts.bind fun parts => ((Table.concat parts).mapError .mixedResults).map .table)

variable {τ α : Type} (t : Transport τ) (settings : Settings)

/-- How a request with a job ends. Results are fetched only when all batches have completed. -/
inductive RequestEnd (plan : JobPlan) (request : Request) (k k' : Connection (Logged τ)) :
    List Turn → Except ExecutionFault Outcome → Prop
  | notRun {turns fault} : JobEnd t settings plan k k' turns (.error fault) →
      RequestEnd plan request k k' turns (.error fault)
  | fetched {job batches turns turns' r} : Steps plan .idle turns (.polling job batches) →
      AllAnswered turns →
      (∀ batch ∈ batches, batch.state = .completed) → Fetched request job batches turns' r →
      RequestEnd plan request k k' (turns ++ turns') r

theorem meets_read (c : Call String) (hc : ∀ text, c.answer text = .text text)
    (read : String → Except ExecutionFault α) :
    Meets t (do Act.ofExcept (read (← call t.logged settings c))) fun _ turns r _ =>
      Reads c.asked read turns r := by
  refine (Meets.call settings c).bind (F := fun text _ turns r _ => turns = [] ∧ r = read text)
    (fun text => Meets.ofExcept fun _ => ⟨rfl, rfl⟩) ?_ ?_
  · rintro _ turns fault _ rfl
    exact .failed
  · rintro _ _ _ turns turns' text r - - rfl ⟨rfl, rfl⟩
    rw [List.append_nil]
    simp only [Except.map, hc]
    exact .came rfl

theorem meets_fetchChunks (job : String) (batch : BatchInfo) :
    Meets t (fetchChunks t.logged settings job batch) fun _ turns r _ =>
      Lists job batch.id turns r := by
  refine (Meets.call settings _).bind (F := fun ids _ turns r _ =>
    Sequence (fun result => Reads (.queryResultChunk job batch.id result) (readChunk result)) ids
      turns r)
    (fun ids =>
      Meets.mapM (fun result => meets_read t settings (.queryResultChunk job batch.id result)
        (fun _ => rfl) _) ids)
    ?_ ?_
  · rintro _ turns fault _ rfl
    exact .failed
  · rintro _ _ _ turns turns' ids r - - rfl h
    exact .listed h

theorem meets_fetchResults (job : String) (batch : BatchInfo) :
    Meets t (fetchResults t.logged settings job batch) fun _ turns r _ =>
      Reads (.batchResults job batch.id) (readResults batch.id) turns r :=
  meets_read t settings (.batchResults job batch.id) (fun _ => rfl) _

theorem Meets.bind_ofExcept {a : Act (Connection (Logged τ)) ExecutionFault α}
    {P : List Turn → Except ExecutionFault α → Prop} (ha : Meets t a fun _ turns r _ => P turns r)
    (f : α → Except ExecutionFault Outcome) :
    Meets t (a >>= fun x => Act.ofExcept (f x)) fun _ turns r _ => ∃ parts, P turns parts ∧
      r = parts.bind f := by
  refine ha.bind (F := fun x _ turns r _ => turns = [] ∧ r = f x)
    (fun x => Meets.ofExcept fun _ => ⟨rfl, rfl⟩) ?_ ?_
  · intro _ turns fault _ h
    exact ⟨_, h, rfl⟩
  · rintro _ _ _ turns turns' x r - - h ⟨rfl, rfl⟩
    rw [List.append_nil]
    exact ⟨_, h, rfl⟩

theorem meets_runJob_bind (plan : JobPlan) {request : Request}
    {f : String × List BatchInfo → Act (Connection (Logged τ)) ExecutionFault Outcome}
    (hf : ∀ p, Meets t (f p) fun _ turns r _ => Fetched request p.1 p.2 turns r) :
    Meets t (runJob t.logged settings plan.operation plan.object plan.payloads >>= f)
      fun k turns r k' => RequestEnd t settings plan request k k' turns r := by
  refine (meets_runJob t settings plan).bind hf (fun h => .notRun h) ?_
  rintro k k₁ k' turns turns' ⟨job, batches⟩ r - hall h h'
  generalize hr : (Except.ok (job, batches) : Except ExecutionFault (String × List BatchInfo)) =
    r' at h
  cases h with
  | notOpened => cases hr
  | opened _ hend =>
      cases hend with
      | failed | unfinished | ended => cases hr
      | completed hp hc =>
          cases hr
          exact .fetched hp hall hc h'

theorem ofExcept_bind_pure {σ ε β : Type} (r : Except ε α) (g : α → β) :
    (Act.ofExcept r >>= fun x => pure (g x) : Act σ ε β) = Act.ofExcept (r.map g) := by
      cases r <;> rfl

theorem meets_execute (endpoint : Endpoint) {request : Request} {plan : JobPlan} (files : FileTree)
    (hplan : JobPlan.ofRequest? settings request = some plan) :
    Meets t ((executor endpoint t.logged settings).execute request files) fun k turns r k' =>
      RequestEnd t settings plan request k k' turns r := by
  cases request with
  | query sql object imports shape =>
      cases object with
      | none => cases hplan
      | some object =>
          cases hplan
          refine meets_runJob_bind t settings ⟨.query, object, [sql]⟩ fun p => ?_
          simp only [ofExcept_bind_pure]
          refine ((Meets.mapM (meets_fetchChunks t settings p.1) p.2).bind_ofExcept t _).mono ?_
          rintro _ turns r _ ⟨parts, h, rfl⟩
          exact .query h
  | mutate op object rows =>
      simp only [JobPlan.ofRequest?] at hplan
      split at hplan
      · cases hplan
      · rename_i hrows
        cases hplan
        simp only [executor, mutate, hrows, Bool.false_eq_true, if_false]
        refine meets_runJob_bind t settings ⟨.ofMutation op, object, _⟩ fun p => ?_
        simp only [ofExcept_bind_pure]
        refine ((Meets.mapM (meets_fetchResults t settings p.1) p.2).bind_ofExcept t _).mono ?_
        rintro _ turns r _ ⟨parts, h, rfl⟩
        exact .mutate h

theorem meets_execute_none (endpoint : Endpoint) {request : Request} (files : FileTree)
    (hplan : JobPlan.ofRequest? settings request = none) :
    Meets t ((executor endpoint t.logged settings).execute request files) fun _ turns _ _ =>
      turns = [] := by
  cases request with
  | query sql object imports shape =>
      cases object with
      | none => exact Meets.throw fun _ => rfl
      | some object => cases hplan
  | mutate op object rows =>
      simp only [JobPlan.ofRequest?] at hplan
      split at hplan
      · rename_i hrows
        simp only [executor, mutate, hrows, if_true]
        exact Meets.pure fun _ => rfl
      · cases hplan

/-- What holds of requests to a service with a log holds of a request to the service itself and
its exchanges. -/
theorem exists_run_of_meets {endpoint : Endpoint} {request : Request} {files : FileTree}
    {Q : Connection (Logged τ) → List Turn → Except ExecutionFault Outcome →
      Connection (Logged τ) → Prop}
    (h : Meets t ((executor endpoint t.logged settings).execute request files) Q)
    (c : Connection τ) :
    ∃ turns r k', Act.runFrom c ((executor endpoint t settings).execute request files) =
      (r, k'.bare) ∧
      Converses c.session (exchanges t settings endpoint request files c) turns r k'.session ∧
        Q c.logged turns r k' := by
  obtain ⟨log, turns, r, k', hrun, hext, hconv, hq⟩ := h c.logged
  have hbare := unlogs_execute t settings endpoint request files c.logged
  have hlog : exchanges t settings endpoint request files c = log := by
    rw [exchanges, hrun, hext.log_eq]
    rfl
  rw [hrun] at hbare
  exact ⟨turns, r, k', hbare, hlog ▸ hconv, hq⟩

end TableFlow.Bulk
