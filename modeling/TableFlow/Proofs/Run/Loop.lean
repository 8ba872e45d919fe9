import TableFlow.Proofs.Scope.Accumulator
import TableFlow.Run.Walk

namespace TableFlow.Run

variable {σ : Type}

def driverValues (param : String) (outcome : Option Outcome) : List String :=
  let table := (outcome.map Outcome.toTable).getD .empty
  table.rows.map (rowValue table param)

/-- Iterations one after the other, up to the last or to the first that fails. Each body starts
in the scope around the loop as the driver left it, and nothing that it binds goes back there;
`ends` are the scopes in which bodies ended. -/
inductive Iterations (o : RunOptions) (param loopId : String) (body : Run σ Unit) :
    RunState σ → List String → List Scope → Except JobError Unit → RunState σ → Prop
  | nil (s) : Iterations o param loopId body s [] [] (.ok ()) s
  | failed {s value values e inner} :
      Act.runFrom { s with scope := iterationScope o.accumulator param loopId value s.scope } body =
        (.error e, inner) →
      Iterations o param loopId body s (value :: values) [] (.error e)
        { inner with scope := s.scope }
  | cons {s inner u value values ends r} :
      Act.runFrom { s with scope := iterationScope o.accumulator param loopId value s.scope } body =
        (.ok (), inner) →
      Iterations o param loopId body
        { inner with scope := s.scope, iterations := inner.iterations + 1 } values ends r u →
      Iterations o param loopId body s (value :: values) (inner.scope :: ends) r u

theorem Iterations.scope_eq {o : RunOptions} {param loopId : String} {body : Run σ Unit}
    {s u : RunState σ} {values : List String} {ends : List Scope} {r : Except JobError Unit}
    (h : Iterations o param loopId body s values ends r u) : u.scope = s.scope := by
  induction h with
  | nil | failed => rfl
  | cons _ _ ih => exact ih

theorem Iterations.length_eq_iff {o : RunOptions} {param loopId : String} {body : Run σ Unit}
    {s u : RunState σ} {values : List String} {ends : List Scope} {r : Except JobError Unit}
    (h : Iterations o param loopId body s values ends r u) :
    r = .ok () ↔ ends.length = values.length := by
  induction h with
  | nil | failed => simp
  | cons _ _ ih => simpa using ih

variable (b : Backends σ) (o : RunOptions) (param loopId : String)

theorem runFrom_iterate (body : Run σ Unit) (value : String) (s : RunState σ) :
    Act.runFrom s (iterate o param loopId body value) =
      match Act.runFrom { s with scope := iterationScope o.accumulator param loopId value s.scope }
        body with
      | (.ok _, inner) => (.ok (), { inner with
          scope := s.scope.absorb inner.scope o.accumulator, iterations := inner.iterations + 1 })
      | (.error e, inner) => (.error e, { inner with scope := s.scope }) := by
  simp only [iterate, inScope, Act.runFrom_bind, Act.runFrom_get, Act.runFrom_ofFun,
    Act.runFrom_modify]
  generalize Act.runFrom { s with scope := iterationScope o.accumulator param loopId value s.scope }
    body = p
  obtain ⟨_ | _, inner⟩ := p <;> rfl

theorem iterationScope_gathered (accumulator value : String) (s : Scope) (ends : List Scope) :
    iterationScope accumulator param loopId value (s.gathered accumulator ends) =
      iterationScope accumulator param loopId value s := by
  rw [iterationScope, Scope.child_gathered, iterationScope]

def handedBack (s : RunState σ) (done : List Scope) : RunState σ :=
  { s with scope := s.scope.gathered o.accumulator done }

theorem runFrom_iterate_handedBack (body : Run σ Unit) (value : String) (s : RunState σ)
    (done : List Scope) :
    Act.runFrom (handedBack o s done) (iterate o param loopId body value) =
      match Act.runFrom { s with scope := iterationScope o.accumulator param loopId value s.scope }
        body with
      | (.ok _, inner) => (.ok (),
          handedBack o { inner with scope := s.scope,
                                    iterations := inner.iterations + 1 } (done ++ [inner.scope]))
      | (.error e, inner) => (.error e, handedBack o { inner with scope := s.scope } done) := by
  rw [runFrom_iterate]
  simp only [handedBack, iterationScope_gathered, Scope.gathered_absorb]

/-- The walk hands scopes back as it goes on. It comes to the same result as iterations that
hand back nothing, and the scope around the loop is then the gathered one. -/
theorem runFrom_forM_iterate (body : Run σ Unit) (values : List String) (s : RunState σ)
    (done : List Scope) :
    ∃ ends r u, Iterations o param loopId body s values ends r u ∧
      Act.runFrom (handedBack o s done) (forM values (iterate o param loopId body)) =
        (r, handedBack o u (done ++ ends)) := by
  induction values generalizing s done with
  | nil => exact ⟨[], .ok (), s, .nil s, by rw [List.append_nil]; rfl⟩
  | cons value values ih =>
      rw [List.forM_cons, Act.runFrom_bind, runFrom_iterate_handedBack]
      cases hb : Act.runFrom
        { s with scope := iterationScope o.accumulator param loopId value s.scope } body with
      | mk r inner =>
          cases r with
          | error e => exact ⟨[], .error e, _, .failed hb, by rw [List.append_nil]⟩
          | ok =>
              obtain ⟨ends, r, u, hi, hr⟩ :=
                ih { inner with scope := s.scope,
                                iterations := inner.iterations + 1 } (done ++ [inner.scope])
              refine ⟨inner.scope :: ends, r, u, .cons hb hi, ?_⟩
              rw [List.append_assoc] at hr
              exact hr

theorem runFrom_loop (driver : Step) (body : List StepNode) (s : RunState σ) :
    Act.runFrom s (runNode b o (.loop param loopId driver body)) =
      match Act.runFrom s (runStep b o driver .table) with
      | (.ok outcome, t) =>
          Act.runFrom t
            (forM (driverValues param outcome) (iterate o param loopId (runNodes b o body)))
      | (.error e, t) => (.error e, t) := by
  rw [runNode, Act.runFrom_bind]
  rcases Act.runFrom s (runStep b o driver .table) with ⟨d, t⟩
  cases d with
  | error e => rfl
  | ok outcome => simp only [driverValues, List.forM_map, List.forM_eq_forM]

/-- After the driver, a loop changes nothing but the accumulator in the scope around it. Its
binding there is what it held before, and after that what each iteration that came to its end
had bound to it, in the order of the driver's rows. -/
theorem scope_after_loop (driver : Step) (body : List StepNode) (s : RunState σ) :
    match Act.runFrom s (runStep b o driver .table) with
    | (.error e, t) => Act.runFrom s (runNode b o (.loop param loopId driver body)) = (.error e, t)
    | (.ok outcome, t) => ∃ ends r u,
        Iterations o param loopId (runNodes b o body) t (driverValues param outcome) ends r u ∧
        (r = .ok () ↔ ends.length = (driverValues param outcome).length) ∧
        Act.runFrom s (runNode b o (.loop param loopId driver body)) =
          (r, { u with scope := t.scope.gathered o.accumulator ends }) := by
  rw [runFrom_loop]
  cases hd : Act.runFrom s (runStep b o driver .table) with
  | mk d t =>
      cases d with
      | error e => rfl
      | ok outcome =>
          obtain ⟨ends, r, u, hi, hr⟩ :=
            runFrom_forM_iterate o param loopId (runNodes b o body)
              (driverValues param outcome) t []
          refine ⟨ends, r, u, hi, hi.length_eq_iff, ?_⟩
          simpa only [handedBack, Scope.gathered_nil, List.nil_append, hi.scope_eq] using hr

end TableFlow.Run
