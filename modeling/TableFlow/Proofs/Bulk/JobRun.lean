import TableFlow.Proofs.Bulk.Conversation

namespace TableFlow.Bulk

structure JobPlan where
  operation : Operation
  object : String
  payloads : List String

inductive Phase
  | idle
  | submitting (job : String) (batches : List BatchInfo) (left : List String)
  | polling (job : String) (batches : List BatchInfo)

/-- All that can be asked about a job before its results, and what the answers do to it. -/
inductive Step (plan : JobPlan) : Phase → Asked → Answer → Phase → Prop
  | create (info) : Step plan .idle (.createJob plan.operation plan.object) (.job info)
      (.submitting info.id [] plan.payloads)
  | add {job batches payload left} (info) : Step plan (.submitting job batches (payload :: left))
      (.addBatch job payload)
      (.batch info) (.submitting job (batches ++ [info]) left)
  | close {job batches} (info) : Step plan (.submitting job batches []) (.closeJob job) (.job info)
      (.polling job batches)
  | poll {job front batch back} (info) : batch.state.isTerminal = false →
      Step plan (.polling job (front ++ batch :: back)) (.batchInfo job batch.id) (.batch info)
        (.polling job (front ++ info :: back))

/-- Steps one after the other. A turn that fails has been a step that could be taken, and is the
last. -/
inductive Steps (plan : JobPlan) : Phase → List Turn → Phase → Prop
  | nil (m) : Steps plan m [] m
  | failed {m asked answer m' fault} : Step plan m asked answer m' →
      Steps plan m [(asked, .error fault)] m
  | cons {m asked answer m' turns m''} : Step plan m asked answer m' → Steps plan m' turns m'' →
      Steps plan m ((asked, .ok answer) :: turns) m''

theorem Steps.trans {plan : JobPlan} {m m' m'' : Phase} {turns turns' : List Turn}
    (h : Steps plan m turns m') (hall : AllAnswered turns) (h' : Steps plan m' turns' m'') :
    Steps plan m (turns ++ turns') m'' := by
  induction h with
  | nil => exact h'
  | failed =>
      obtain ⟨answer, ha⟩ := hall _ List.mem_cons_self
      cases ha
  | cons hs _ ih => exact .cons hs (ih (fun turn ht => hall turn (List.mem_cons_of_mem _ ht)) h')

/-- A run from one phase to another, or as far as the first turn that fails. -/
def Leads {α : Type} (plan : JobPlan) (m : Phase) (target : α → Phase) (turns : List Turn) :
    Except ExecutionFault α → Prop
  | .ok x => Steps plan m turns (target x)
  | .error fault => Blames turns fault ∧ ∃ m', Steps plan m turns m'

theorem Leads.trans {α β : Type} {plan : JobPlan} {m : Phase} {target : α → Phase}
    {target' : β → Phase} {turns turns' : List Turn} {x : α} {r : Except ExecutionFault β}
    (h : Leads plan m target turns (.ok x)) (hall : AllAnswered turns)
    (h' : Leads plan (target x) target' turns' r) :
    Leads plan m target' (turns ++ turns') r := by
  cases r with
  | ok y => exact Steps.trans h hall h'
  | error fault =>
      obtain ⟨hb, m', hp⟩ := h'
      exact ⟨hb.append turns, m', Steps.trans h hall hp⟩

theorem Leads.map {α β : Type} {plan : JobPlan} {m : Phase} {target : α → Phase}
    {target' : β → Phase} {turns : List Turn} {r : Except ExecutionFault α}
    (h : Leads plan m target turns r) (g : α → β) (hg : ∀ x, target x = target' (g x)) :
    Leads plan m target' turns (r.map g) := by
  cases r with
  | ok x =>
      rw [Leads, hg x] at h
      exact h
  | error fault => exact h

theorem Call.nonempty {α : Type} (c : Call α) : Nonempty α := by
  cases c with
  | createJob | closeJob => exact ⟨⟨"", ""⟩⟩
  | addBatch | batchInfo => exact ⟨⟨"", .queued, none⟩⟩
  | queryResultIds => exact ⟨[]⟩
  | queryResultChunk | batchResults => exact ⟨""⟩

theorem leads_call {α : Type} {plan : JobPlan} {m : Phase} {turns : List Turn}
    {r : Except ExecutionFault α} (c : Call α) (target : α → Phase)
    (hstep : ∀ x, Step plan m c.asked (c.answer x) (target x))
    (h : turns = [(c.asked, r.map c.answer)]) : Leads plan m target turns r := by
  subst h
  cases r with
  | ok x => exact .cons (hstep x) (.nil _)
  | error fault =>
      obtain ⟨x⟩ := c.nonempty
      exact ⟨⟨[], c.asked, rfl⟩, m, .failed (hstep x)⟩

open Connection

variable {τ : Type} (t : Transport τ) (settings : Settings) (plan : JobPlan)

theorem meets_addBatches (job : String) (payloads : List String) :
    Meets t (payloads.mapM fun payload => call t.logged settings (.addBatch job payload))
      fun _ turns r _ =>
      ∀ batches,
        Leads plan (.submitting job batches payloads)
          (fun added => .submitting job (batches ++ added) []) turns r := by
  refine (Meets.mapM (fun payload => Meets.call settings (.addBatch job payload)) payloads).mono ?_
  intro _ turns r _ h
  have hadd (payload : String) (batches : List BatchInfo) (left : List String) (info : BatchInfo) :
      Step plan (.submitting job batches (payload :: left)) (.addBatch job payload) (.batch info)
        (.submitting job (batches ++ [info]) left) := .add info
  induction h with
  | nil =>
      intro batches
      rw [Leads, List.append_nil]
      exact .nil _
  | @failed payload left turns fault h =>
      intro batches
      have hlead := leads_call (.addBatch job payload) _ (hadd payload batches left) h
      exact hlead
  | @cons payload left turns info turns' r hall h _ ih =>
      intro batches
      refine (leads_call _ _ (hadd payload batches left) h).trans hall
        ((ih (batches ++ [info])).map _ ?_)
      simp

theorem meets_submit (job : String) (payloads : List String) :
    Meets t (submit t.logged settings job payloads) fun _ turns r _ =>
      Leads plan (.submitting job [] payloads) (.polling job) turns r := by
  refine (meets_addBatches t settings plan job payloads).bind (F := fun batches _ turns r _ =>
    Leads plan (.submitting job batches []) (.polling job) turns r) ?_ ?_ ?_
  · intro batches
    refine (Meets.call settings _).bind_pure ?_
    intro _ turns r _ h
    exact (leads_call _ (fun _ => .polling job batches) (fun info => .close info) h).map _ fun _ =>
      rfl
  · intro _ turns e _ h
    exact h []
  · intro _ _ _ turns turns' batches r _ hall h h'
    exact (h []).trans hall h'

/-- What a pass does for one batch: it is left alone if it has ended, and else asked for once. -/
inductive Polls (job : String) (batch : BatchInfo) :
    List Turn → Except ExecutionFault BatchInfo → Prop
  | skipped : batch.state.isTerminal = true → Polls job batch [] (.ok batch)
  | polled {r} : batch.state.isTerminal = false →
      Polls job batch [(.batchInfo job batch.id, r.map .batch)] r

theorem meets_poll (job : String) (batch : BatchInfo) :
    Meets t
      (if batch.state.isTerminal then pure batch
        else call t.logged settings (.batchInfo job batch.id))
      fun _ turns r _ => Polls job batch turns r := by
  split
  · rename_i hterminal
    exact Meets.pure fun _ => .skipped hterminal
  · rename_i hpending
    refine (Meets.call settings _).mono ?_
    rintro _ turns r _ rfl
    exact .polled (by simpa using hpending)

theorem Polls.leads {job : String} {batch : BatchInfo} {turns : List Turn}
    {r : Except ExecutionFault BatchInfo} (h : Polls job batch turns r)
    (front back : List BatchInfo) :
    Leads plan (.polling job (front ++ batch :: back))
      (fun info => .polling job (front ++ info :: back)) turns r := by
  cases h with
  | skipped => exact .nil _
  | polled hpending =>
      exact leads_call (.batchInfo job batch.id) _ (fun info => .poll info hpending) rfl

theorem pending_le_of_polls {job : String} {batches polled : List BatchInfo} {turns : List Turn}
    (h : Sequence (Polls job) batches turns (.ok polled)) : pending polled ≤ turns.length := by
  generalize hr : (Except.ok polled : Except ExecutionFault (List BatchInfo)) = r at h
  induction h generalizing polled with
  | nil =>
      cases hr
      exact Nat.le_refl 0
  | failed => cases hr
  | @cons batch batches turns info turns' r _ hp _ ih =>
      cases r with
      | error e => cases hr
      | ok rest =>
          cases hr
          have hrest := ih rfl
          unfold pending at hrest ⊢
          cases hp with
          | skipped hterminal => simpa [hterminal] using hrest
          | polled =>
              rw [List.filter_cons, List.length_append, List.length_singleton]
              split
              · rw [List.length_cons]
                omega
              · omega

theorem meets_pollPass (job : String) (batches : List BatchInfo) :
    Meets t (pollPass t.logged settings job batches) fun _ turns r _ =>
      Leads plan (.polling job batches) (.polling job) turns r ∧
        ∀ polled, r = .ok polled → pending polled ≤ turns.length := by
  refine (Meets.mapM (meets_poll t settings job) batches).mono ?_
  intro _ turns r _ h
  refine ⟨?_, fun polled hr => pending_le_of_polls (hr ▸ h)⟩
  suffices hfront : ∀ front,
      Leads plan (.polling job (front ++ batches)) (fun polled => .polling job (front ++ polled))
        turns r from hfront []
  induction h with
  | nil => exact fun front => .nil _
  | failed h => exact fun front => h.leads plan front _
  | @cons batch batches turns info turns' r hall h _ ih =>
      intro front
      have hrest := ih (front ++ [info])
      simp only [List.append_assoc, List.singleton_append] at hrest
      exact (h.leads plan front batches).trans hall (hrest.map _ fun _ => rfl)

inductive PollEnd (job : String) (batches : List BatchInfo) (started : Nat) (l : Logged τ)
    (turns : List Turn) :
    Except ExecutionFault (List BatchInfo) → Prop
  | finished {polled} : Steps plan (.polling job batches) turns (.polling job polled) →
      pending polled = 0 →
      PollEnd job batches started l turns (.ok polled)
  | failed {fault m} : Steps plan (.polling job batches) turns m → Blames turns fault →
      PollEnd job batches started l turns (.error fault)
  | unfinished {polled} : Steps plan (.polling job batches) turns (.polling job polled) →
      pending polled ≠ 0 →
      (t.Bounded → timedOut settings started (t.clock l.service) = true) →
      PollEnd job batches started l turns
        (.error (.unfinished job (pending polled) (settings.pollTimeout.getD 0)))

theorem PollEnd.after {job : String} {batches polled : List BatchInfo} {started : Nat}
    {l : Logged τ} {turns turns' : List Turn} {r : Except ExecutionFault (List BatchInfo)}
    (h : Steps plan (.polling job batches) turns (.polling job polled)) (hall : AllAnswered turns)
    (h' : PollEnd t settings plan job polled started l turns' r) :
    PollEnd t settings plan job batches started l (turns ++ turns') r := by
  cases h' with
  | finished hp hz => exact .finished (h.trans hall hp) hz
  | failed hp hb => exact .failed (h.trans hall hp) (hb.append turns)
  | unfinished hp hz ht => exact .unfinished (h.trans hall hp) hz ht

/-- A pass that leaves a batch pending has been answered at least once, so a service that keeps
account of its answers brings polling to another end before the passes run out. -/
theorem meets_pollFrom (job : String) (started passes : Nat) (batches : List BatchInfo)
    (hpasses : passes = 0 → pending batches ≠ 0) :
    Meets t (pollFrom t.logged settings job started passes batches) fun k turns r k' =>
      (t.Bounded → t.answersLeft k.service.service < passes) →
        PollEnd t settings plan job batches started k'.service turns r := by
  induction passes generalizing batches with
  | zero =>
      refine Meets.throw fun k hleft => ?_
      exact .unfinished (.nil _) (hpasses rfl) fun ht => absurd (hleft ht) (Nat.not_lt_zero _)
  | succ passes ih =>
      intro k
      rw [runFrom_pollFrom_succ]
      obtain ⟨log, turns, r, k₁, hrun, hext, hconv, hlead, hpolled⟩ :=
        meets_pollPass t settings plan job batches k
      rw [hrun]
      cases r with
      | error fault =>
          obtain ⟨hb, m, hp⟩ := hlead
          exact ⟨log, turns, _, k₁, rfl, hext, hconv.of_error, fun _ => .failed hp hb⟩
      | ok polled =>
          have hall := hconv.allAnswered
          by_cases hz : pending polled = 0
          · exact ⟨log, turns, .ok polled, k₁, if_pos hz, hext, hconv, fun _ => .finished hlead hz⟩
          by_cases htime : timedOut settings started (t.logged.clock k₁.service) = true
          · refine ⟨log, turns, _, k₁, ?_, hext, ?_, fun _ => .unfinished hlead hz fun _ => htime⟩
            · simp only [hz, htime, if_true, if_false]
            · exact List.append_nil log ▸ List.append_nil turns ▸ hconv.append .done
          · have hpause := hext.trans (Extends.pause settings.pollInterval k₁.service)
            obtain ⟨log', turns', r, k', hrun', hext', hconv', hend⟩ :=
              ih polled (fun _ => hz)
                { k₁ with service := t.logged.pause settings.pollInterval k₁.service }
            refine ⟨log ++ log', turns ++ turns', r, k', ?_, ?_, hconv.append hconv',
              fun hleft => ?_⟩
            · simp only [hz, htime, if_false]
              exact hrun'
            · rw [List.append_nil] at hpause
              exact hpause.trans hext'
            · refine .after t settings plan hlead hall (hend fun ht => ?_)
              -- Each batch that is still pending has been answered for in this pass, so one answer
              -- less is left.
              have hanswers := hpolled polled rfl
              rw [← hall.length_successes, ← hconv.answered_eq] at hanswers
              have hspent := hpause.answersLeft_le ht
              rw [answered_append, List.length_append] at hspent
              have hbound := hleft ht
              change t.answersLeft (t.pause settings.pollInterval k₁.service.service) +
                _ ≤ _ at hspent
              change t.answersLeft (t.pause settings.pollInterval k₁.service.service) < _
              omega

inductive WaitEnd (m : Phase) (job : String) (started : Nat) (l : Logged τ) (turns : List Turn) :
    Except ExecutionFault (List BatchInfo) → Prop
  | completed {batches} : Steps plan m turns (.polling job batches) →
      (∀ batch ∈ batches, batch.state = .completed) →
      WaitEnd m job started l turns (.ok batches)
  | failed {fault m'} : Steps plan m turns m' → Blames turns fault →
      WaitEnd m job started l turns (.error fault)
  | unfinished {batches} : Steps plan m turns (.polling job batches) → pending batches ≠ 0 →
      (t.Bounded → timedOut settings started (t.clock l.service) = true) →
      WaitEnd m job started l turns
        (.error (.unfinished job (pending batches) (settings.pollTimeout.getD 0)))
  | ended {batches bad} : Steps plan m turns (.polling job batches) → pending batches = 0 →
      batches.find? (·.state != .completed) = some bad →
        WaitEnd m job started l turns (.error (.batchEnded job bad))

theorem WaitEnd.after {m m' : Phase} {job : String} {started : Nat} {l : Logged τ}
    {turns turns' : List Turn} {r : Except ExecutionFault (List BatchInfo)}
    (h : Steps plan m turns m') (hall : AllAnswered turns)
    (h' : WaitEnd t settings plan m' job started l turns' r) :
    WaitEnd t settings plan m job started l (turns ++ turns') r := by
  cases h' with
  | completed hp hc => exact .completed (h.trans hall hp) hc
  | failed hp hb => exact .failed (h.trans hall hp) (hb.append turns)
  | unfinished hp hz ht => exact .unfinished (h.trans hall hp) hz ht
  | ended hp hz hbad => exact .ended (h.trans hall hp) hz hbad

theorem runFrom_wait (job : String) (batches : List BatchInfo) (c : Connection τ) :
    Act.runFrom c (wait t settings job batches) =
      match Act.runFrom c
        (pollFrom t settings job (t.clock c.service) (t.answersLeft c.service + 1) batches) with
      | (.error e, c') => (.error e, c')
      | (.ok polled, c') =>
          match polled.find? (·.state != .completed) with
          | some bad => (.error (.batchEnded job bad), c')
          | none => (.ok polled, c') := by
  simp only [wait, Act.runFrom_bind, Act.runFrom_get]
  rcases Act.runFrom c
    (pollFrom t settings job (t.clock c.service) (t.answersLeft c.service + 1) batches) with
    ⟨_ | polled, c'⟩
  · rfl
  · simp only
    cases polled.find? (·.state != .completed) <;> rfl

theorem meets_wait (job : String) (batches : List BatchInfo) :
    Meets t (wait t.logged settings job batches) fun k turns r k' =>
      WaitEnd t settings plan (.polling job batches) job (t.clock k.service.service)
        k'.service turns r := by
  intro k
  rw [runFrom_wait]
  obtain ⟨log, turns, r, k', hrun, hext, hconv, hend⟩ :=
    meets_pollFrom t settings plan job (t.logged.clock k.service)
      (t.logged.answersLeft k.service + 1) batches (fun h => absurd h (Nat.succ_ne_zero _)) k
  rw [hrun]
  cases hend fun _ => Nat.lt_succ_self _ with
  | failed hp hb => exact ⟨log, turns, _, k', rfl, hext, hconv.of_error, .failed hp hb⟩
  | unfinished hp hz ht =>
      exact ⟨log, turns, _, k', rfl, hext, hconv.of_error, .unfinished hp hz ht⟩
  | @finished polled hp hz =>
      cases hbad : polled.find? (·.state != .completed) with
      | some bad =>
          refine ⟨log, turns, _, k', by simp only [hbad], hext, ?_, .ended hp hz hbad⟩
          exact List.append_nil log ▸ List.append_nil turns ▸ hconv.append .done
      | none =>
          exact ⟨log, turns, .ok polled, k', by simp only [hbad], hext, hconv,
            .completed hp (by simpa using hbad)⟩

def openJob (t : Transport τ) : Act (Connection τ) ExecutionFault (String × List BatchInfo) := do
  let job ← call t settings (.createJob plan.operation plan.object)
  return (job.id, ← submit t settings job.id plan.payloads)

theorem meets_openJob :
    Meets t (openJob settings plan t.logged) fun _ turns r _ =>
      Leads plan .idle (fun opened => .polling opened.1 opened.2) turns r := by
  refine (Meets.call settings _).bind (F := fun job _ turns r _ =>
    Leads plan (.submitting job.id [] plan.payloads)
    (fun opened => .polling opened.1 opened.2) turns r) (fun job => ?_) ?_ ?_
  · exact (meets_submit t settings plan job.id plan.payloads).bind_pure fun h =>
      h.map _ fun _ => rfl
  · intro _ turns e _ h
    exact leads_call _ (fun job => .submitting job.id [] plan.payloads) (fun info => .create info) h
  · intro _ _ _ turns turns' job r _ hall h h'
    exact (leads_call _ (fun job => .submitting job.id [] plan.payloads)
      (fun info => .create info) h).trans
      hall h'

/-- How the job of a request ends. Polling begins when the job is open. -/
inductive JobEnd (k k' : Connection (Logged τ)) (turns : List Turn) :
    Except ExecutionFault (String × List BatchInfo) → Prop
  | notOpened {fault m} : Steps plan .idle turns m → Blames turns fault →
      JobEnd k k' turns (.error fault)
  | opened {job batches k₁ r} : Act.runFrom k (openJob settings plan t.logged) =
      (.ok (job, batches), k₁) →
      WaitEnd t settings plan .idle job (t.clock k₁.service.service) k'.service turns r →
      JobEnd k k' turns (r.map fun batches => (job, batches))

theorem meets_runJob :
    Meets t (runJob t.logged settings plan.operation plan.object plan.payloads) fun k turns r k' =>
      JobEnd t settings plan k k' turns r := by
  have hsplit : runJob t.logged settings plan.operation plan.object plan.payloads =
      openJob settings plan t.logged >>= fun opened => do
        return (opened.1, ← wait t.logged settings opened.1 opened.2) := by
    simp [runJob, openJob]
  rw [hsplit]
  refine (meets_openJob t settings plan).bind (F := fun opened k turns r k' =>
    ∃ r', r = r'.map (fun batches => (opened.1, batches)) ∧
      WaitEnd t settings plan (.polling opened.1 opened.2) opened.1 (t.clock k.service.service)
        k'.service turns r')
    ?_ ?_ ?_
  · rintro ⟨job, batches⟩
    exact (meets_wait t settings plan job batches).bind_pure fun h => ⟨_, rfl, h⟩
  · rintro k turns e k' ⟨hb, m, hp⟩
    exact .notOpened hp hb
  · rintro k k₁ k' turns turns' ⟨job, batches⟩ r hrun hall h ⟨r', rfl, h'⟩
    exact .opened hrun (.after t settings plan h hall h')

end TableFlow.Bulk
