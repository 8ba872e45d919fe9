import TableFlow.Bulk.Executor

namespace TableFlow.Bulk

inductive Asked
  | createJob (operation : Operation) (object : String)
  | addBatch (job payload : String)
  | batchInfo (job batch : String)
  | closeJob (job : String)
  | queryResultIds (job batch : String)
  | queryResultChunk (job batch result : String)
  | batchResults (job batch : String)
  deriving DecidableEq

inductive Answer
  | job (info : JobInfo)
  | batch (info : BatchInfo)
  | ids (ids : List String)
  | text (text : String)
  deriving DecidableEq

namespace Call

variable {α : Type}

def asked : Call α → Asked
  | .createJob operation object => .createJob operation object
  | .addBatch job payload => .addBatch job payload
  | .batchInfo job batch => .batchInfo job batch
  | .closeJob job => .closeJob job
  | .queryResultIds job batch => .queryResultIds job batch
  | .queryResultChunk job batch result => .queryResultChunk job batch result
  | .batchResults job batch => .batchResults job batch

def answer : Call α → α → Answer
  | .createJob .., info | .closeJob _, info => .job info
  | .addBatch .., info | .batchInfo .., info => .batch info
  | .queryResultIds .., ids => .ids ids
  | .queryResultChunk .., text | .batchResults .., text => .text text

end Call

inductive Exchange
  | login (answer : Except TransportError Session)
  | call (session : Session) (asked : Asked) (answer : Except TransportError Answer)

structure Logged (τ : Type) where
  service : τ
  log : List Exchange := []

variable {τ α β ε : Type} (t : Transport τ) (settings : Settings)

def Transport.logged : Transport (Logged τ) where
  login := Act.ofFun fun l =>
    let r := Act.runFrom l.service t.login
    (r.1, ⟨r.2, l.log ++ [.login r.1]⟩)
  perform session c := Act.ofFun fun l =>
    let r := Act.runFrom l.service (t.perform session c)
    (r.1, ⟨r.2, l.log ++ [.call session c.asked (r.1.map c.answer)]⟩)
  pause ms l := { l with service := t.pause ms l.service }
  clock l := t.clock l.service
  answersLeft l := t.answersLeft l.service

def Connection.logged (c : Connection τ) : Connection (Logged τ) :=
  ⟨c.session, { service := c.service }⟩

def Connection.bare (c : Connection (Logged τ)) : Connection τ := ⟨c.session, c.service.service⟩

def exchanges (endpoint : Endpoint) (request : Request) (files : FileTree) (c : Connection τ) :
    List Exchange :=
  (Act.runFrom c.logged ((executor endpoint t.logged settings).execute request files)).2.service.log

def Exchange.answered? : Exchange → Option (Asked × Answer)
  | .call _ asked (.ok answer) => some (asked, answer)
  | .call .. | .login _ => none

def answered (log : List Exchange) : List (Asked × Answer) := log.filterMap Exchange.answered?

@[simp] theorem answered_nil : answered [] = [] := rfl

@[simp] theorem answered_append (log log' : List Exchange) :
    answered (log ++ log') = answered log ++ answered log' :=
  List.filterMap_append

@[simp] theorem answered_login (answer : Except TransportError Session) (log : List Exchange) :
    answered (.login answer :: log) = answered log := rfl

@[simp] theorem answered_ok (session : Session) (asked : Asked) (answer : Answer)
    (log : List Exchange) :
    answered (.call session asked (.ok answer) :: log) = (asked, answer) :: answered log := rfl

@[simp] theorem answered_error (session : Session) (asked : Asked) (e : TransportError)
    (log : List Exchange) :
    answered (.call session asked (.error e) :: log) = answered log := rfl

/-- The service keeps its own account of the answers that it still has to give. -/
structure Transport.Bounded : Prop where
  login (s : τ) : t.answersLeft (Act.runFrom s t.login).2 ≤ t.answersLeft s
  perform (s : τ) (session : Session) {α : Type} (c : Call α) :
    t.answersLeft (Act.runFrom s (t.perform session c)).2 ≤ t.answersLeft s
  answered (s : τ) (session : Session) {α : Type} (c : Call α) (answer : α) :
    (Act.runFrom s (t.perform session c)).1 = .ok answer →
      t.answersLeft (Act.runFrom s (t.perform session c)).2 < t.answersLeft s
  pause (ms : Nat) (s : τ) : t.answersLeft (t.pause ms s) ≤ t.answersLeft s

/-- From one state of the service to a later one, with what is exchanged in between. -/
structure Extends (l : Logged τ) (log : List Exchange) (l' : Logged τ) : Prop where
  log_eq : l'.log = l.log ++ log
  answersLeft_le : t.Bounded → t.answersLeft l'.service + (answered log).length ≤
    t.answersLeft l.service

namespace Extends

variable {t} {l l' l'' : Logged τ} {log log' : List Exchange}

theorem refl (l : Logged τ) : Extends t l [] l := ⟨by simp, fun _ => Nat.le_refl _⟩

theorem trans (h : Extends t l log l') (h' : Extends t l' log' l'') :
    Extends t l (log ++ log') l'' := by
  refine ⟨by rw [h'.log_eq, h.log_eq, List.append_assoc], fun ht => ?_⟩
  have hfirst := h.answersLeft_le ht
  have hsecond := h'.answersLeft_le ht
  rw [answered_append, List.length_append]
  omega

theorem pause (ms : Nat) (l : Logged τ) : Extends t l [] (t.logged.pause ms l) :=
  ⟨(List.append_nil _).symm, fun ht => ht.pause ms l.service⟩

theorem login (l : Logged τ) :
    ∃ answer l', Act.runFrom l t.logged.login = (answer, l') ∧ Extends t l [.login answer] l' :=
  ⟨_, _, rfl, rfl, fun ht => ht.login l.service⟩

theorem perform (l : Logged τ) (session : Session) (c : Call α) :
    ∃ answer l', Act.runFrom l (t.logged.perform session c) = (answer, l') ∧
      Extends t l [.call session c.asked (answer.map c.answer)] l' := by
  refine ⟨_, _, rfl, rfl, fun ht => ?_⟩
  have hok := ht.answered l.service session c
  have hle := ht.perform l.service session c
  cases hr : (Act.runFrom l.service (t.perform session c)).1 with
  | error e => exact hle
  | ok answer => exact hok answer hr

end Extends

def Unlogs (a : Act (Connection (Logged τ)) ε α) (b : Act (Connection τ) ε α) : Prop :=
  ∀ c, Act.runFrom c.bare b = ((Act.runFrom c a).1, (Act.runFrom c a).2.bare)

namespace Unlogs

variable {a : Act (Connection (Logged τ)) ε α} {b : Act (Connection τ) ε α}

theorem pure (x : α) : Unlogs (Pure.pure x : Act (Connection (Logged τ)) ε α) (Pure.pure x) :=
  fun _ => rfl

theorem throw (e : ε) : Unlogs (MonadExcept.throw e : Act (Connection (Logged τ)) ε α)
    (MonadExcept.throw e) := fun _ => rfl

theorem ofExcept (r : Except ε α) : Unlogs (Act.ofExcept r : Act (Connection (Logged τ)) ε α)
    (Act.ofExcept r) := by
  cases r with
  | ok x => exact pure x
  | error e => exact throw e

theorem bind {f : α → Act (Connection (Logged τ)) ε β} {g : α → Act (Connection τ) ε β}
    (hab : Unlogs a b) (hfg : ∀ x, Unlogs (f x) (g x)) : Unlogs (a >>= f) (b >>= g) := by
  intro c
  rw [Act.runFrom_bind, Act.runFrom_bind, hab c]
  rcases Act.runFrom c a with ⟨_ | x, c'⟩
  · rfl
  · exact hfg x c'

theorem mapM {γ : Type} {f : γ → Act (Connection (Logged τ)) ε β} {g : γ → Act (Connection τ) ε β}
    (hfg : ∀ x, Unlogs (f x) (g x)) (xs : List γ) : Unlogs (xs.mapM f) (xs.mapM g) := by
  induction xs with
  | nil => exact pure []
  | cons x xs ih =>
      rw [List.mapM_cons, List.mapM_cons]
      exact (hfg x).bind fun _ => ih.bind fun _ => pure _

theorem mapError {δ : Type} (f : ε → δ) (hab : Unlogs a b) :
    Unlogs (a.mapError f) (b.mapError f) := by
  intro c
  simp only [Act.mapError, Act.runFrom_ofFun, hab c]

theorem attempt (hab : Unlogs a b) :
    Unlogs (a.attempt : Act (Connection (Logged τ)) β (Except ε α)) b.attempt := by
  intro c
  simp only [Act.attempt, Act.runFrom_ofFun, hab c]

theorem get {f : Connection (Logged τ) → Act (Connection (Logged τ)) ε α}
    {g : Connection τ → Act (Connection τ) ε α} (hfg : ∀ c, Unlogs (f c) (g c.bare)) :
    Unlogs (MonadState.get >>= f) (MonadState.get >>= g) := fun c => hfg c c

theorem modify {f : Connection (Logged τ) → Connection (Logged τ)} {g : Connection τ → Connection τ}
    (hfg : ∀ c, (f c).bare = g c.bare) :
    Unlogs (modify f : Act (Connection (Logged τ)) ε Unit) (modify g) := by
  intro c
  simp only [Act.runFrom_modify, hfg c]

end Unlogs

open Connection

theorem unlogs_obtainSession : Unlogs (obtainSession t.logged) (obtainSession t) := by
  refine .get fun c => ?_
  rcases c with ⟨_ | session, service⟩
  · exact (Unlogs.mapError _ fun _ => rfl).bind fun session =>
      (Unlogs.modify fun _ => rfl).bind fun _ => .pure session
  · exact .pure session

theorem unlogs_call (c : Call α) : Unlogs (call t.logged settings c) (call t settings c) := by
  have hperform (session : Session) : Unlogs (onService (t.logged.perform session c))
      (onService (t.perform session c)) :=
    fun _ => rfl
  refine (unlogs_obtainSession t).bind fun session =>
    (hperform session).attempt.bind fun first => ?_
  cases first with
  | ok answer => exact .pure answer
  | error e =>
      cases e with
      | api | http | unexpected => exact .throw _
      | sessionExpired =>
          refine ((Unlogs.modify fun _ => rfl).bind fun _ => unlogs_obtainSession t).bind
            fun renewed => ?_
          refine (hperform renewed).attempt.bind fun second => ?_
          cases second with
          | ok answer => exact .pure answer
          | error e => cases e <;> exact .throw _

theorem unlogs_submit (job : String) (payloads : List String) :
    Unlogs (submit t.logged settings job payloads) (submit t settings job payloads) :=
  (Unlogs.mapM (fun _ => unlogs_call t settings _) payloads).bind fun _ =>
    (unlogs_call t settings _).bind fun _ => .pure _

theorem unlogs_pollPass (job : String) (batches : List BatchInfo) :
    Unlogs (pollPass t.logged settings job batches) (pollPass t settings job batches) := by
  refine Unlogs.mapM (fun batch => ?_) batches
  split
  · exact .pure batch
  · exact unlogs_call t settings _

theorem runFrom_pollFrom_succ (job : String) (started passes : Nat) (batches : List BatchInfo)
    (c : Connection τ) :
    Act.runFrom c (pollFrom t settings job started (passes + 1) batches) =
      match Act.runFrom c (pollPass t settings job batches) with
      | (.error e, c') => (.error e, c')
      | (.ok polled, c') =>
          if pending polled = 0 then (.ok polled, c')
          else if timedOut settings started (t.clock c'.service) then
            (.error (.unfinished job (pending polled) (settings.pollTimeout.getD 0)), c')
          else Act.runFrom { c' with service := t.pause settings.pollInterval c'.service }
            (pollFrom t settings job started passes polled) := by
  rw [pollFrom, Act.runFrom_bind]
  rcases Act.runFrom c (pollPass t settings job batches) with ⟨_ | polled, c'⟩
  · rfl
  · by_cases hp : pending polled = 0
    · simp only [hp, if_true, Act.runFrom_pure]
    · simp only [hp, if_false, Act.runFrom_bind, Act.runFrom_get]
      split <;> rfl

theorem unlogs_pollFrom (job : String) (started passes : Nat) (batches : List BatchInfo) :
    Unlogs (pollFrom t.logged settings job started passes batches)
      (pollFrom t settings job started passes batches) := by
  induction passes generalizing batches with
  | zero => exact .throw _
  | succ passes ih =>
      intro c
      rw [runFrom_pollFrom_succ, runFrom_pollFrom_succ, unlogs_pollPass t settings job batches c]
      rcases Act.runFrom c (pollPass t.logged settings job batches) with ⟨_ | polled, c'⟩
      · rfl
      · have hclock : t.logged.clock c'.service = t.clock c'.bare.service := rfl
        simp only [hclock]
        split
        · rfl
        · split
          · rfl
          · exact ih polled { c' with service := t.logged.pause settings.pollInterval c'.service }

theorem unlogs_wait (job : String) (batches : List BatchInfo) :
    Unlogs (wait t.logged settings job batches) (wait t settings job batches) := by
  refine .get fun c => (unlogs_pollFrom t settings job _ _ batches).bind fun polled => ?_
  split
  · exact .throw _
  · exact .pure polled

theorem unlogs_runJob (operation : Operation) (object : String) (payloads : List String) :
    Unlogs (runJob t.logged settings operation object payloads)
      (runJob t settings operation object payloads) :=
  (unlogs_call t settings _).bind fun job =>
    (unlogs_submit t settings job.id payloads).bind fun batches =>
      (unlogs_wait t settings job.id batches).bind fun _ => .pure _

theorem unlogs_fetchChunks (job : String) (batch : BatchInfo) :
    Unlogs (fetchChunks t.logged settings job batch) (fetchChunks t settings job batch) :=
  (unlogs_call t settings _).bind <| Unlogs.mapM fun _ =>
    (unlogs_call t settings _).bind fun _ => .ofExcept _

theorem unlogs_fetchResults (job : String) (batch : BatchInfo) :
    Unlogs (fetchResults t.logged settings job batch) (fetchResults t settings job batch) :=
  (unlogs_call t settings _).bind fun _ => .ofExcept _

/-- A request has the same answer and leaves the same connection whether or not the service
keeps a log. -/
theorem unlogs_execute (endpoint : Endpoint) (request : Request) (files : FileTree) :
    Unlogs ((executor endpoint t.logged settings).execute request files)
      ((executor endpoint t settings).execute request files) := by
  cases request with
  | query sql object imports shape =>
      cases object with
      | none => exact .throw _
      | some object =>
          exact (unlogs_runJob t settings _ _ _).bind fun p =>
            (Unlogs.mapM (unlogs_fetchChunks t settings p.1) p.2).bind fun _ =>
              (Unlogs.ofExcept _).bind fun _ => .pure _
  | mutate op object rows =>
      simp only [executor, mutate]
      split
      · exact .pure _
      · exact (unlogs_runJob t settings _ _ _).bind fun p =>
          (Unlogs.mapM (unlogs_fetchResults t settings p.1) p.2).bind fun _ =>
            (Unlogs.ofExcept _).bind fun _ => .pure _

end TableFlow.Bulk
