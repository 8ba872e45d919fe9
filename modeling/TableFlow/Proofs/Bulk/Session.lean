import TableFlow.Proofs.Bulk.Exchange

namespace TableFlow.Bulk

def Asked.title : Asked → String
  | .createJob .. => "create job"
  | .addBatch .. => "add batch"
  | .batchInfo .. => "batch status"
  | .closeJob .. => "close job"
  | .queryResultIds .. => "list query results"
  | .queryResultChunk .. => "fetch query result"
  | .batchResults .. => "fetch batch results"

theorem Call.title_asked {α : Type} (c : Call α) : c.asked.title = c.title := by cases c <;> rfl

/-- How an operation comes by its session: it is the one that is held, or else what a login
answers. -/
inductive Obtains : Option Session → List Exchange → Except TransportError Session → Prop
  | held (session) : Obtains (some session) [] (.ok session)
  | login (answer) : Obtains none [.login answer] answer

/-- One operation from the session held before it to the one held after it, with all that
reaches the service. Only a first attempt that is answered with an expired session is followed
by a login, and only a login that succeeds by a second attempt, which is the last. -/
inductive CarriesOut (asked : Asked) (held : Option Session) :
    List Exchange → Except ExecutionFault Answer → Option Session → Prop
  | noSession {log e} : Obtains held log (.error e) →
      CarriesOut asked held log (.error (.loginFailed e)) none
  | succeeded {log session answer} : Obtains held log (.ok session) →
      CarriesOut asked held (log ++ [.call session asked (.ok answer)]) (.ok answer) (some session)
  | failed {log session e} : Obtains held log (.ok session) → e ≠ .sessionExpired →
      CarriesOut asked held (log ++ [.call session asked (.error e)])
        (.error (.callFailed asked.title e)) (some session)
  | notRenewed {log session e} : Obtains held log (.ok session) →
      CarriesOut asked held
        (log ++ [.call session asked (.error .sessionExpired), .login (.error e)])
        (.error (.loginFailed e)) none
  | repeated {log session renewed answer} : Obtains held log (.ok session) →
      CarriesOut asked held
        (log ++ [.call session asked (.error .sessionExpired), .login (.ok renewed),
          .call renewed asked (.ok answer)])
        (.ok answer) (some renewed)
  | expiredAgain {log session renewed} : Obtains held log (.ok session) →
      CarriesOut asked held
        (log ++ [.call session asked (.error .sessionExpired), .login (.ok renewed),
          .call renewed asked (.error .sessionExpired)])
        (.error (.expiredAgain asked.title)) (some renewed)
  | failedAgain {log session renewed e} : Obtains held log (.ok session) → e ≠ .sessionExpired →
      CarriesOut asked held
        (log ++ [.call session asked (.error .sessionExpired), .login (.ok renewed),
          .call renewed asked (.error e)])
        (.error (.callFailed asked.title e)) (some renewed)

theorem Obtains.answered_eq {held : Option Session} {log : List Exchange}
    {answer : Except TransportError Session} (h : Obtains held log answer) : answered log = [] := by
      cases h <;> rfl

theorem CarriesOut.answered_eq {asked : Asked} {held held' : Option Session} {log : List Exchange}
    {result : Except ExecutionFault Answer} (h : CarriesOut asked held log result held') :
    answered log = match result with
      | .ok answer => [(asked, answer)]
      | .error _ => [] := by
  cases h with
  | noSession ho => exact ho.answered_eq
  | succeeded ho | failed ho | notRenewed ho | repeated ho | expiredAgain ho | failedAgain ho =>
      simp [ho.answered_eq]

@[simp] theorem mapError_ok {ε δ α : Type} (f : ε → δ) (x : α) : (Except.ok x).mapError f = .ok x :=
  rfl

@[simp] theorem mapError_error {ε δ α : Type} (f : ε → δ) (e : ε) :
    (Except.error e : Except ε α).mapError f = .error (f e) := rfl

open Connection

variable {τ α : Type} (t : Transport τ) (settings : Settings)

theorem obtains_obtainSession (k : Connection (Logged τ)) :
    ∃ log answer l', Act.runFrom k (obtainSession t.logged) =
      (answer.mapError .loginFailed, ⟨answer.toOption, l'⟩) ∧
      Extends t k.service log l' ∧ Obtains k.session log answer := by
  rcases k with ⟨_ | session, l⟩
  · obtain ⟨answer, l', hl, hext⟩ := Extends.login (t := t) l
    refine ⟨_, answer, l', ?_, hext, .login answer⟩
    simp only [obtainSession, Act.runFrom_bind, Act.runFrom_get, Act.mapError, onService, Act.focus,
      Act.runFrom_ofFun, hl]
    cases answer <;> rfl
  · exact ⟨_, .ok session, l, rfl, .refl l, .held session⟩

theorem runFrom_renewSession (k : Connection (Logged τ)) :
    ∃ answer l', Act.runFrom k (renewSession t.logged settings) =
      (answer.mapError .loginFailed, ⟨answer.toOption, l'⟩) ∧
      Extends t k.service [.login answer] l' := by
  obtain ⟨log, answer, l', hrun, hext, hobt⟩ :=
    obtains_obtainSession t ⟨none, t.logged.pause settings.reloginDelay k.service⟩
  cases hobt
  exact ⟨answer, l', hrun, (Extends.pause _ _).trans hext⟩

theorem runFrom_attempt_perform (k : Connection (Logged τ)) (session : Session) (c : Call α) :
    ∃ answer l',
      Act.runFrom k ((onService (t.logged.perform session c)).attempt (δ := ExecutionFault)) =
      (.ok answer, ⟨k.session, l'⟩) ∧
        Extends t k.service [.call session c.asked (answer.map c.answer)] l' := by
  obtain ⟨answer, l', hp, hext⟩ := Extends.perform (t := t) k.service session c
  refine ⟨answer, l', ?_, hext⟩
  simp only [Act.attempt, onService, Act.focus, Act.runFrom_ofFun, hp]

theorem carriesOut_call (c : Call α) (k : Connection (Logged τ)) :
    ∃ log result held l', Act.runFrom k (call t.logged settings c) = (result, ⟨held, l'⟩) ∧
      Extends t k.service log l' ∧ CarriesOut c.asked k.session log (result.map c.answer) held := by
  obtain ⟨log, session, l₁, hrun₁, hext₁, hobt⟩ := obtains_obtainSession t k
  simp only [call, Act.runFrom_bind, hrun₁]
  cases session with
  | error e => exact ⟨log, _, _, l₁, rfl, hext₁, .noSession hobt⟩
  | ok session =>
      obtain ⟨first, l₂, hrun₂, hext₂⟩ := runFrom_attempt_perform t ⟨some session, l₁⟩ session c
      simp only [mapError_ok, Except.toOption, hrun₂]
      have hext := hext₁.trans hext₂
      rcases first with e | answer
      · cases e with
        | api | http | unexpected =>
            exact ⟨_, _, _, l₂, rfl, hext, c.title_asked ▸ .failed hobt (by simp)⟩
        | sessionExpired =>
            -- The session is given up before the login, so nothing is held if that fails.
            obtain ⟨renewed, l₃, hrun₃, hext₃⟩ := runFrom_renewSession t settings ⟨some session, l₂⟩
            simp only [Act.runFrom_bind, hrun₃]
            cases renewed with
            | error e => 
              refine ⟨_, _, _, l₃, rfl, hext.trans hext₃, ?_⟩
              rw [List.append_assoc]
              exact .notRenewed hobt
            | ok renewed =>
              obtain ⟨second, l₄, hrun₄, hext₄⟩ :=
                runFrom_attempt_perform t ⟨some renewed, l₃⟩ renewed c
              simp only [mapError_ok, Except.toOption, hrun₄]
              have hext := (hext.trans hext₃).trans hext₄
              rw [List.append_assoc, List.append_assoc] at hext
              rcases second with e | answer
              · cases e with
                | api | http | unexpected =>
                    exact ⟨_, _, _, l₄, rfl, hext, c.title_asked ▸ .failedAgain hobt (by simp)⟩
                | sessionExpired =>
                    exact ⟨_, _, _, l₄, rfl, hext, c.title_asked ▸ .expiredAgain hobt⟩
              · exact ⟨_, _, _, l₄, rfl, hext, .repeated hobt⟩
      · exact ⟨_, _, _, l₂, rfl, hext, .succeeded hobt⟩

end TableFlow.Bulk
