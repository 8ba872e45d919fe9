import TableFlow.Proofs.Bulk.Operations
import TableFlow.Proofs.Bulk.RequestRun

namespace TableFlow.Bulk

def heldFrom (held : Option Session) (log : List Exchange) : Option Session :=
  log.foldl (fun held x =>
  match x with
  | .login answer => answer.toOption
  | .call .. => held) held

def heldAfter (log : List Exchange) : Option Session := heldFrom none log

/-- Whether `x` may come next where `held` is the session held and `last` what has come before. -/
def Exchange.MayFollow (held : Option Session) (last : Option Exchange) : Exchange → Prop
  | .login _ =>
      held = none ∨ ∃ session asked, last = some (.call session asked (.error .sessionExpired))
  | .call session _ _ => held = some session

def Orderly (held : Option Session) (last : Option Exchange) : List Exchange → Prop
  | [] => True
  | x :: log => x.MayFollow held last ∧ Orderly (heldFrom held [x]) (some x) log

theorem heldFrom_append (held : Option Session) (log log' : List Exchange) :
    heldFrom held (log ++ log') = heldFrom (heldFrom held log) log' := List.foldl_append

theorem orderly_append (held : Option Session) (last : Option Exchange) (log log' : List Exchange) :
    Orderly held last (log ++ log') ↔
      Orderly held last log ∧ Orderly (heldFrom held log) (log.getLast?.or last) log' := by
  induction log generalizing held last with
  | nil => simp [Orderly, heldFrom]
  | cons x log ih =>
      have hlast : (log.getLast?.or (some x)) = (x :: log).getLast?.or last := by
        cases log <;> simp [List.getLast?_cons]
      rw [List.cons_append, Orderly, Orderly, ih, and_assoc, hlast]
      rfl

theorem Orderly.mayFollow {held : Option Session} {log before after : List Exchange} {x : Exchange}
    (h : Orderly held none log) (hx : log = before ++ x :: after) :
    x.MayFollow (heldFrom held before) before.getLast? := by
  subst hx
  have hsplit := ((orderly_append _ _ _ _).mp h).2.1
  rwa [Option.or_none] at hsplit

theorem CarriesOut.orderly {asked : Asked} {held held' : Option Session} {log : List Exchange}
    {result : Except ExecutionFault Answer} (h : CarriesOut asked held log result held')
    (last : Option Exchange) :
    Orderly held last log ∧ heldFrom held log = held' := by
  cases h with
  | noSession ho =>
      cases ho
      simp [Orderly, Exchange.MayFollow, heldFrom, Except.toOption]
  | succeeded ho | failed ho | notRenewed ho | repeated ho | expiredAgain ho | failedAgain ho =>
      cases ho <;> simp [Orderly, Exchange.MayFollow, heldFrom, Except.toOption]

theorem Converses.orderly {α : Type} {held held' : Option Session} {log : List Exchange}
    {turns : List Turn} {result : Except ExecutionFault α}
    (h : Converses held log turns result held') (last : Option Exchange) :
    Orderly held last log ∧ heldFrom held log = held' := by
  induction h generalizing last with
  | done => exact ⟨trivial, rfl⟩
  | failed hc => exact hc.orderly last
  | next hc _ ih =>
      obtain ⟨hfirst, rfl⟩ := hc.orderly last
      obtain ⟨hrest, rfl⟩ := ih (_ : Option Exchange)
      exact ⟨(orderly_append _ _ _ _).mpr ⟨hfirst, hrest⟩, heldFrom_append _ _ _⟩

/-- Requests one after the other, each from the session that the one before has left. -/
inductive Conversations : Option Session → List (Except ExecutionFault Outcome × List Exchange) →
    Prop
  | nil {held} : Conversations held []
  | cons {held log turns result held' rest} : Converses held log turns result held' →
      Conversations held' rest →
      Conversations held ((result, log) :: rest)

theorem Conversations.orderly {held : Option Session}
    {served : List (Except ExecutionFault Outcome × List Exchange)} (h : Conversations held served)
    (last : Option Exchange) : Orderly held last (served.flatMap (·.2)) := by
  induction h generalizing last with
  | nil => trivial
  | cons hc _ ih =>
      obtain ⟨hfirst, rfl⟩ := hc.orderly last
      exact (orderly_append _ _ _ _).mpr ⟨hfirst, ih _⟩

variable {τ : Type} (t : Transport τ) (settings : Settings)

def served (endpoint : Endpoint) :
    List (Request × FileTree) → Connection τ → List (Except ExecutionFault Outcome × List Exchange)
  | [], _ => []
  | (request, files) :: rest, c =>
      let run := Act.runFrom c ((executor endpoint t settings).execute request files)
      (run.1, exchanges t settings endpoint request files c) :: served endpoint rest run.2

theorem conversations_served (endpoint : Endpoint) (requests : List (Request × FileTree))
    (c : Connection τ) :
    Conversations c.session (served t settings endpoint requests c) := by
  induction requests generalizing c with
  | nil => exact .nil
  | cons request rest ih =>
      obtain ⟨request, files⟩ := request
      have hmeets : Meets t ((executor endpoint t.logged settings).execute request files)
          fun _ _ _ _ => True := by
        cases hplan : JobPlan.ofRequest? settings request with
        | some plan => exact (meets_execute t settings endpoint files hplan).mono fun _ => trivial
        | none => exact (meets_execute_none t settings endpoint files hplan).mono fun _ => trivial
      obtain ⟨turns, r, k', hrun, hconv, -⟩ := exists_run_of_meets t settings hmeets c
      rw [served, hrun]
      exact .cons hconv (ih k'.bare)

/-- The requests of a new connection are conversations, each from the session that the one
before has left. So a login is made only where no session is held or a first attempt has just
found its session expired; each call carries the session of the last login; and one operation
makes at most two attempts, of which at most one succeeds. -/
theorem served_keeps_session_protocol (endpoint : Endpoint) (requests : List (Request × FileTree))
    (service : τ) :
    let served := served t settings endpoint requests { service }
    let log := served.flatMap (·.2)
    Conversations none served ∧
      (∀ before answer after, log = before ++ .login answer :: after →
        heldAfter before = none ∨ ∃ session asked,
          before.getLast? = some (.call session asked (.error .sessionExpired))) ∧
      (∀ before session asked answer after, log = before ++ .call session asked answer :: after →
        heldAfter before = some session) ∧
      ∀ {asked held block result held'}, CarriesOut asked held block result held' →
        (attempts block).length ≤ 2 ∧ (∀ other ∈ attempts block, other = asked) ∧
          (answered block).length ≤ 1 := by
  intro served log
  have hconv : Conversations none served :=
    conversations_served t settings endpoint requests { service }
  have horder : Orderly none none log := hconv.orderly none
  exact ⟨hconv, fun _ _ _ hx => horder.mayFollow hx, fun _ _ _ _ _ hx => horder.mayFollow hx,
    CarriesOut.attempts_le⟩

end TableFlow.Bulk
