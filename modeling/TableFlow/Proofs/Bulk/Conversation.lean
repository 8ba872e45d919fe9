import TableFlow.Proofs.Bulk.Session

namespace TableFlow.Bulk

abbrev Turn := Asked × Except ExecutionFault Answer

/-- Operations one after the other, up to the end or to the first that fails. Nothing reaches
the service after a failure, and the failure is the result. -/
inductive Converses {α : Type} :
    Option Session → List Exchange → List Turn → Except ExecutionFault α → Option Session → Prop
  | done {held result} : Converses held [] [] result held
  | failed {asked held log fault held'} : CarriesOut asked held log (.error fault) held' →
      Converses held log [(asked, .error fault)] (.error fault) held'
  | next {asked held log answer held' log' turns result held''} :
      CarriesOut asked held log (.ok answer) held' →
      Converses held' log' turns result held'' →
      Converses held (log ++ log') ((asked, .ok answer) :: turns) result held''

def successes (turns : List Turn) : List (Asked × Answer) := turns.filterMap fun turn =>
  match turn.2 with
  | .ok answer => some (turn.1, answer)
  | .error _ => none

@[simp] theorem successes_nil : successes [] = [] := rfl

@[simp] theorem successes_append (turns turns' : List Turn) :
    successes (turns ++ turns') = successes turns ++ successes turns' := List.filterMap_append

@[simp] theorem successes_ok (asked : Asked) (answer : Answer) (turns : List Turn) :
    successes ((asked, .ok answer) :: turns) = (asked, answer) :: successes turns := rfl

@[simp] theorem successes_error (asked : Asked) (fault : ExecutionFault) (turns : List Turn) :
    successes ((asked, .error fault) :: turns) = successes turns := rfl

def AllAnswered (turns : List Turn) : Prop := ∀ turn ∈ turns, ∃ answer, turn.2 = .ok answer

theorem AllAnswered.length_successes {turns : List Turn} (h : AllAnswered turns) :
    (successes turns).length = turns.length := by
  induction turns with
  | nil => rfl
  | cons turn turns ih =>
      obtain ⟨⟨answer, ha⟩, hrest⟩ := List.forall_mem_cons.mp h
      obtain ⟨asked, result⟩ := turn
      cases ha
      rw [successes_ok, List.length_cons, ih hrest, List.length_cons]

def Blames (turns : List Turn) (fault : ExecutionFault) : Prop :=
  ∃ front asked, turns = front ++ [(asked, .error fault)]

theorem Blames.append {turns : List Turn} {fault : ExecutionFault} (h : Blames turns fault)
    (front : List Turn) :
    Blames (front ++ turns) fault := by
  obtain ⟨front', asked, rfl⟩ := h
  exact ⟨front ++ front', asked, (List.append_assoc _ _ _).symm⟩

namespace Converses

variable {α β : Type} {held held' held'' : Option Session} {log log' : List Exchange}
  {turns turns' : List Turn}

theorem append {x : α} {result : Except ExecutionFault β}
    (h : Converses held log turns (.ok x) held') (h' : Converses held' log' turns' result held'') :
    Converses held (log ++ log') (turns ++ turns') result held'' := by
  generalize hr : (Except.ok x : Except ExecutionFault α) = r at h
  induction h with
  | done => exact h'
  | failed => cases hr
  | next hc _ ih =>
      rw [List.append_assoc]
      exact .next hc (ih h' hr)

theorem of_error
    {e : ExecutionFault} (h : Converses held log turns (.error e : Except ExecutionFault α) held') :
    Converses held log turns (.error e : Except ExecutionFault β) held' := by
  generalize hr : (Except.error e : Except ExecutionFault α) = r at h
  induction h with
  | done => exact .done
  | failed hc =>
      cases hr
      exact .failed hc
  | next hc _ ih => exact .next hc (ih hr)

theorem log_eq_nil {result : Except ExecutionFault α} (h : Converses held log turns result held')
    (ht : turns = []) :
    log = [] := by
  cases h with
  | done => rfl
  | failed | next => cases ht

theorem answered_eq {result : Except ExecutionFault α} (h : Converses held log turns result held') :
    answered log = successes turns := by
  induction h with
  | done => rfl
  | failed hc => exact hc.answered_eq
  | next hc _ ih => rw [answered_append, hc.answered_eq, ih, successes_ok, List.singleton_append]

theorem allAnswered {x : α} (h : Converses held log turns (.ok x) held') : AllAnswered turns := by
  generalize hr : (Except.ok x : Except ExecutionFault α) = r at h
  induction h with
  | done => simp [AllAnswered]
  | failed => cases hr
  | next _ _ ih => exact List.forall_mem_cons.mpr ⟨⟨_, rfl⟩, ih hr⟩

theorem of_carriesOut {asked : Asked} {answer : α → Answer} {result : Except ExecutionFault α}
    (h : CarriesOut asked held log (result.map answer) held') :
    Converses held log [(asked, result.map answer)] result held' := by
  cases result with
  | error fault => exact .failed h
  | ok x =>
      rw [← List.append_nil log]
      exact .next h .done

end Converses

open Connection

variable {τ α β γ : Type} (t : Transport τ) (settings : Settings)

/-- Every run of the action is a conversation with the service in which `Q` holds of the
connection before, the turns, the result and the connection after. -/
def Meets (a : Act (Connection (Logged τ)) ExecutionFault α)
    (Q : Connection (Logged τ) → List Turn → Except ExecutionFault α → Connection (Logged τ) →
      Prop) : Prop :=
  ∀ k, ∃ log turns r k', Act.runFrom k a = (r, k') ∧ Extends t k.service log k'.service ∧
    Converses k.session log turns r k'.session ∧ Q k turns r k'

/-- One action for each element of a list, up to the first that fails. `F` is what an action
does for its element. -/
inductive Sequence (F : γ → List Turn → Except ExecutionFault β → Prop) :
    List γ → List Turn → Except ExecutionFault (List β) → Prop
  | nil : Sequence F [] [] (.ok [])
  | failed {x xs turns fault} : F x turns (.error fault) → Sequence F (x :: xs) turns (.error fault)
  | cons {x xs turns y turns' r} : AllAnswered turns → F x turns (.ok y) → Sequence F xs turns' r →
      Sequence F (x :: xs) (turns ++ turns') (r.map (y :: ·))

namespace Meets

variable {t} {a : Act (Connection (Logged τ)) ExecutionFault α}
  {P Q : Connection (Logged τ) → List Turn → Except ExecutionFault α → Connection (Logged τ) → Prop}
  {R : Connection (Logged τ) → List Turn → Except ExecutionFault β → Connection (Logged τ) → Prop}

theorem mono (h : Meets t a P) (hpq : ∀ {k turns r k'}, P k turns r k' → Q k turns r k') :
    Meets t a Q := by
  intro k
  obtain ⟨log, turns, r, k', hrun, hext, hconv, hp⟩ := h k
  exact ⟨log, turns, r, k', hrun, hext, hconv, hpq hp⟩

theorem pure {x : α} (h : ∀ k, Q k [] (.ok x) k) : Meets t (Pure.pure x) Q :=
  fun k => ⟨[], [], .ok x, k, rfl, .refl _, .done, h k⟩

theorem throw {e : ExecutionFault} (h : ∀ k, Q k [] (.error e) k) :
    Meets t (MonadExcept.throw e) Q :=
  fun k => ⟨[], [], .error e, k, rfl, .refl _, .done, h k⟩

theorem ofExcept {r : Except ExecutionFault α} (h : ∀ k, Q k [] r k) :
    Meets t (Act.ofExcept r) Q := by
  cases r with
  | ok x => exact pure h
  | error e => exact throw h

theorem bind {f : α → Act (Connection (Logged τ)) ExecutionFault β}
    {F : α → Connection (Logged τ) → List Turn → Except ExecutionFault β →
      Connection (Logged τ) → Prop}
    (ha : Meets t a P) (hf : ∀ x, Meets t (f x) (F x))
    (herror : ∀ {k turns e k'}, P k turns (.error e) k' → R k turns (.error e) k')
    (hok : ∀ {k k₁ k' turns turns' x r}, Act.runFrom k a = (.ok x, k₁) → AllAnswered turns →
      P k turns (.ok x) k₁ →
      F x k₁ turns' r k' → R k (turns ++ turns') r k') : Meets t (a >>= f) R := by
  intro k
  obtain ⟨log, turns, r, k₁, hrun, hext, hconv, hp⟩ := ha k
  cases r with
  | error e =>
      exact ⟨log, turns, .error e, k₁, by rw [Act.runFrom_bind, hrun], hext,
        hconv.of_error, herror hp⟩
  | ok x =>
      obtain ⟨log', turns', r, k', hrun', hext', hconv', hq⟩ := hf x k₁
      refine ⟨log ++ log', turns ++ turns', r, k', ?_, hext.trans hext', hconv.append hconv', ?_⟩
      · rw [Act.runFrom_bind, hrun]
        exact hrun'
      · exact hok hrun hconv.allAnswered hp hq

theorem bind_pure {g : α → β} (ha : Meets t a P)
    (hr : ∀ {k turns r k'}, P k turns r k' → R k turns (r.map g) k') :
    Meets t (a >>= fun x => Pure.pure (g x)) R := by
  refine ha.bind (F := fun x k turns r k' => turns = [] ∧ r = .ok (g x) ∧ k' = k)
    (fun x => pure fun _ => ⟨rfl, rfl, rfl⟩)
    (fun hp => hr hp) ?_
  rintro k k₁ k' turns turns' x r - - hp ⟨rfl, rfl, rfl⟩
  rw [List.append_nil]
  exact hr hp

theorem mapM {f : γ → Act (Connection (Logged τ)) ExecutionFault β}
    {F : γ → List Turn → Except ExecutionFault β → Prop}
    (hf : ∀ x, Meets t (f x) fun _ turns r _ => F x turns r) (xs : List γ) :
    Meets t (xs.mapM f) fun _ turns r _ => Sequence F xs turns r := by
  induction xs with
  | nil => exact pure fun _ => .nil
  | cons x xs ih =>
      rw [List.mapM_cons]
      refine (hf x).bind
        (F := fun y _ turns r _ => ∃ r', Sequence F xs turns r' ∧ r = r'.map (y :: ·))
        (fun y => ih.bind_pure fun hs => ⟨_, hs, rfl⟩) .failed ?_
      rintro k k₁ k' turns turns' y r - hall hy ⟨r', hs, rfl⟩
      exact .cons hall hy hs

theorem call (c : Call α) : Meets t (call t.logged settings c) fun _ turns r _ =>
    turns = [(c.asked, r.map c.answer)] := by
  intro k
  obtain ⟨log, r, held, l', hrun, hext, hc⟩ := carriesOut_call t settings c k
  exact ⟨log, _, r, ⟨held, l'⟩, hrun, hext, .of_carriesOut hc, rfl⟩

end Meets

end TableFlow.Bulk
