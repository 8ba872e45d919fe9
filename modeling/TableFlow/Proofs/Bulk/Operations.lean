import TableFlow.Proofs.Bulk.Conversation

namespace TableFlow.Bulk

def Exchange.failed : Exchange → Bool
  | .login (.error _) | .call _ _ (.error _) => true
  | .login (.ok _) | .call _ _ (.ok _) => false

/-- What the exchanges are for. A call that is repeated after a login counts once. -/
def operations : List Exchange → List Asked
  | .call _ asked (.error .sessionExpired) :: .login (.ok _) :: .call _ _ _ :: log =>
      asked :: operations log
  | .call _ asked _ :: log => asked :: operations log
  | .login _ :: log => operations log
  | [] => []

def attempts (log : List Exchange) : List Asked := log.filterMap fun x =>
  match x with
  | .login _ => none
  | .call _ asked _ => some asked

variable {α : Type} {asked : Asked} {held held' : Option Session} {log before after : List Exchange}
  {turns : List Turn}

theorem CarriesOut.attempts_le {result : Except ExecutionFault Answer}
    (h : CarriesOut asked held log result held') :
    (attempts log).length ≤ 2 ∧ (∀ other ∈ attempts log, other = asked) ∧
      (answered log).length ≤ 1 := by
  cases h with
  | noSession ho => cases ho; simp [attempts]
  | succeeded ho | failed ho | notRenewed ho | repeated ho | expiredAgain ho | failedAgain ho =>
      cases ho <;> simp [attempts]

theorem CarriesOut.operations_append {answer : Answer}
    (h : CarriesOut asked held log (.ok answer) held') (rest : List Exchange) :
    operations (log ++ rest) = asked :: operations rest := by
  cases h with
  | succeeded ho | repeated ho => cases ho <;> simp [operations]

theorem CarriesOut.operations_prefix {fault : ExecutionFault}
    (h : CarriesOut asked held log (.error fault) held') :
    operations log <+: [asked] := by
  cases h with
  | noSession ho =>
      cases ho
      simp [operations]
  | failed ho hne | notRenewed ho | expiredAgain ho | failedAgain ho hne =>
      cases ho <;> simp [operations]

theorem Converses.operations_prefix {result : Except ExecutionFault α}
    (h : Converses held log turns result held') :
    operations log <+: turns.map (·.1) := by
  induction h with
  | done => exact List.prefix_rfl
  | failed hc => exact hc.operations_prefix
  | next hc _ ih =>
      rw [hc.operations_append, List.map_cons, List.cons_prefix_cons]
      exact ⟨rfl, ih⟩

theorem Converses.operations_eq {x : α} (h : Converses held log turns (.ok x) held') :
    operations log = turns.map (·.1) := by
  generalize hr : (Except.ok x : Except ExecutionFault α) = r at h
  induction h with
  | done => rfl
  | failed => cases hr
  | next hc _ ih => rw [hc.operations_append, ih hr, List.map_cons]

theorem CarriesOut.answered_dropLast {result : Except ExecutionFault Answer}
    (h : CarriesOut asked held log result held') :
    answered log.dropLast = [] := by
  cases h with
  | noSession ho | succeeded ho | failed ho | notRenewed ho | repeated ho | expiredAgain ho
    | failedAgain ho => cases ho <;> simp [List.dropLast]

theorem CarriesOut.call_eq {result : Except ExecutionFault Answer}
    (h : CarriesOut asked held log result held') {session : Session} {other : Asked}
    {answer : Except TransportError Answer}
    (hx : log = before ++ .call session other answer :: after) :
    other = asked ∧ answered before = [] := by
  constructor
  · refine h.attempts_le.2.1 other ?_
    simp [hx, attempts]
  · have hdrop := h.answered_dropLast
    rw [hx, List.dropLast_append_of_ne_nil (List.cons_ne_nil _ _), answered_append,
      List.append_eq_nil_iff] at hdrop
    exact hdrop.1

theorem append_cons_eq_append {α : Type} {front back l l' : List α} {x : α}
    (h : front ++ x :: back = l ++ l') :
    (∃ back', l = front ++ x :: back') ∨ ∃ front', front = l ++ front' ∧
      l' = front' ++ x :: back := by
  rcases List.append_eq_append_iff.mp h with ⟨middle, rfl, hx⟩ | ⟨front', rfl, rfl⟩
  · cases middle with
    | nil => exact .inr ⟨[], by simp, hx.symm⟩
    | cons y middle =>
        obtain ⟨rfl, rfl⟩ := List.cons.inj hx
        exact .inl ⟨middle, rfl⟩
  · exact .inr ⟨front', rfl, rfl⟩

theorem Converses.exists_turn {result : Except ExecutionFault α}
    (h : Converses held log turns result held') {session : Session}
    {answer : Except TransportError Answer}
    (hx : log = before ++ .call session asked answer :: after) :
    ∃ front r back, turns = front ++ (asked, r) :: back ∧ answered before = successes front := by
  induction h generalizing before with
  | done => simp at hx
  | failed hc =>
      obtain ⟨rfl, hbefore⟩ := hc.call_eq hx
      exact ⟨[], _, [], rfl, hbefore⟩
  | @next first _ log reply _ log' turns _ _ hc _ ih =>
      rcases append_cons_eq_append hx.symm with ⟨rest, hblock⟩ | ⟨before', rfl, hlater⟩
      · obtain ⟨rfl, hbefore⟩ := hc.call_eq hblock
        exact ⟨[], _, turns, rfl, hbefore⟩
      · obtain ⟨front, r, back, rfl, hbefore⟩ := ih hlater
        refine ⟨(first, .ok reply) :: front, r, back, rfl, ?_⟩
        rw [answered_append, hc.answered_eq, hbefore, successes_ok, List.singleton_append]

theorem CarriesOut.getLast?_failed {fault : ExecutionFault}
    (h : CarriesOut asked held log (.error fault) held') :
    ∃ x, log.getLast? = some x ∧ x.failed = true := by
  cases h with
  | noSession ho =>
      cases ho
      exact ⟨_, rfl, rfl⟩
  | failed | notRenewed | expiredAgain | failedAgain => simp [Exchange.failed]

theorem Converses.getLast?_failed {result : Except ExecutionFault α}
    (h : Converses held log turns result held') {fault : ExecutionFault} (hb : Blames turns fault) :
    ∃ x, log.getLast? = some x ∧ x.failed = true := by
  induction h with
  | done =>
      obtain ⟨front, asked, hf⟩ := hb
      simp at hf
  | failed hc => exact hc.getLast?_failed
  | next _ _ ih =>
      obtain ⟨front, asked, hf⟩ := hb
      cases front with
      | nil => simp at hf
      | cons turn front =>
          obtain ⟨x, hx, hfailed⟩ := ih ⟨front, asked, (List.cons.inj hf).2⟩
          exact ⟨x, by rw [List.getLast?_append, hx, Option.some_or], hfailed⟩

end TableFlow.Bulk
