import TableFlow.Proofs.Run.Loop

namespace TableFlow

/-- A row's value in the column named `param` or, if the table has no such column, in the first
one. -/
inductive Table.Gives (t : Table) (param : String) (row : List String) : String → Prop
  | named {i : Nat} {value} : t.fields[i]? = some param → row[i]? = some value →
      Gives t param row value
  | first : param ∉ t.fields → Gives t param row (row.head?.getD "")

namespace Scope

/-- An iteration's scope at its start: the scope around the loop without the accumulator, and
then the row's value under the loop's parameter and under its id. -/
def Begins (outer : Scope) (accumulator param loopId value : String) (inner : Scope) : Prop :=
  ∀ name, inner.get? name =
    if name = param ∨ name = loopId then some (.text value) else if name = accumulator then
      none else outer.get? name

/-- Whatever an iteration hands back, the next one starts as if it had not been. -/
theorem child_absorb (s inner : Scope) (accumulator : String) :
    (s.absorb inner accumulator).child accumulator = s.child accumulator := by
  have hgathered := gathered_absorb s inner accumulator []
  rw [gathered_nil, List.nil_append] at hgathered
  rw [hgathered, child_gathered]

end Scope

namespace Run

theorem gives_iff {t : Table} {row : List String} (hrow : row ∈ t.rows) (param value : String) :
    t.Gives param row value ↔ value = rowValue t param row := by
  have hlength := t.rows_length row hrow
  rw [rowValue, Table.columnIndex]
  constructor
  · intro h
    cases h with
    | @named i _ hparam hcell =>
        obtain ⟨hlt, rfl⟩ := List.getElem?_eq_some_iff.mp hparam
        have hi : t.fields.idxOf? t.fields[i] = some i :=
          List.idxOf?_eq_some_iff.mpr
            ⟨hlt, rfl, fun j hj => List.pairwise_iff_getElem.mp t.fields_nodup j i
              (Nat.lt_trans hj hlt) hlt hj⟩
        simp [hi, hcell]
    | first hparam =>
        rw [List.idxOf?_eq_none_iff.mpr hparam]
        cases row <;> rfl
  · rintro rfl
    cases hi : t.fields.idxOf? param with
    | none =>
        have hfirst : row.getD 0 "" = row.head?.getD "" := by cases row <;> rfl
        rw [Option.getD_none, hfirst]
        exact .first (List.idxOf?_eq_none_iff.mp hi)
    | some i =>
        obtain ⟨hlt, hparam, _⟩ := List.idxOf?_eq_some_iff.mp hi
        have hcell : i < row.length := by rwa [hlength]
        exact .named (List.getElem?_eq_some_iff.mpr ⟨hlt, hparam⟩) (by simp [hcell])

theorem begins_iterationScope (accumulator param loopId value : String) (outer : Scope) :
    outer.Begins accumulator param loopId value
      (iterationScope accumulator param loopId value outer) := by
  intro name
  simp only [iterationScope, Scope.child, Scope.get?_set, Scope.get?_erase]
  by_cases hid : name = loopId
  · rw [if_pos hid, if_pos (.inr hid)]
  · by_cases hp : name = param <;> simp [hid, hp]

variable {σ : Type}

/-- The iterations of a loop as the walk makes them, each with the scope in which its body
starts. What a body has bound to the accumulator goes into the scope from which the next
iteration is made. -/
inductive Rounds (o : RunOptions) (param loopId : String) (body : Run σ Unit) :
    RunState σ → List String → List Scope → Except JobError Unit → RunState σ → Prop
  | nil (s) : Rounds o param loopId body s [] [] (.ok ()) s
  | failed {s start value values e inner} : start =
      iterationScope o.accumulator param loopId value s.scope →
      Act.runFrom { s with scope := start } body = (.error e, inner) →
      Rounds o param loopId body s (value :: values) [start] (.error e)
        { inner with scope := s.scope }
  | cons {s start inner u value values starts r} : start =
      iterationScope o.accumulator param loopId value s.scope →
      Act.runFrom { s with scope := start } body = (.ok (), inner) →
      Rounds o param loopId body
        { inner with scope := s.scope.absorb inner.scope o.accumulator,
                     iterations := inner.iterations + 1 }
        values starts r u →
      Rounds o param loopId body s (value :: values) (start :: starts) r u

/-- In a run of a loop from `s`, the driver gives `table` and leaves the scope `outer`, and the
bodies of the iterations start in `starts`, one for each row up to the last or to the first that
fails. -/
def Starts (b : Backends σ) (o : RunOptions) (param loopId : String) (driver : Step)
    (body : List StepNode) (s : RunState σ) (table : Table) (outer : Scope) (starts : List Scope) :
    Prop :=
  ∃ outcome t r u, Act.runFrom s (runStep b o driver .table) = (.ok outcome, t) ∧
    table = (outcome.map Outcome.toTable).getD .empty ∧ outer = t.scope ∧
    Rounds o param loopId (runNodes b o body) t (table.rows.map (rowValue table param)) starts r u ∧
    Act.runFrom s (runNode b o (.loop param loopId driver body)) = (r, u) ∧
    (r = .ok () → starts.length = table.rows.length)

variable {o : RunOptions} {param loopId : String} {body : Run σ Unit} {s u : RunState σ}
  {values : List String} {starts : List Scope} {start : Scope} {r : Except JobError Unit}

theorem exists_rounds (o : RunOptions) (param loopId : String) (body : Run σ Unit) (s : RunState σ)
    (values : List String) :
    ∃ starts r u, Rounds o param loopId body s values starts r u ∧
      Act.runFrom s (forM values (iterate o param loopId body)) = (r, u) := by
  induction values generalizing s with
  | nil => exact ⟨[], .ok (), s, .nil s, rfl⟩
  | cons value values ih =>
      rw [List.forM_cons, Act.runFrom_bind, runFrom_iterate]
      cases hb : Act.runFrom
        { s with scope := iterationScope o.accumulator param loopId value s.scope } body with
      | mk r inner =>
          cases r with
          | error e => exact ⟨_, _, _, .failed rfl hb, rfl⟩
          | ok =>
              obtain ⟨starts, r, u, hrounds, hrun⟩ :=
                ih { inner with scope := s.scope.absorb inner.scope o.accumulator,
                                iterations := inner.iterations + 1 }
              exact ⟨_, r, u, .cons rfl hb hrounds, hrun⟩

theorem Rounds.length_of_ok (h : Rounds o param loopId body s values starts r u) (hr : r = .ok ()) :
    starts.length = values.length := by
  induction h with
  | nil => rfl
  | failed => cases hr
  | cons _ _ _ ih => rw [List.length_cons, List.length_cons, ih hr]

/-- Every iteration starts as if it were the first one. -/
theorem Rounds.start_eq (h : Rounds o param loopId body s values starts r u) {i : Nat}
    (hi : starts[i]? = some start) :
    ∃ value, values[i]? = some value ∧ start =
      iterationScope o.accumulator param loopId value s.scope := by
  induction h generalizing i with
  | nil => simp at hi
  | @failed _ _ value _ _ _ hstart =>
      cases i with
      | zero =>
          cases hi
          exact ⟨value, rfl, hstart⟩
      | succ i => simp at hi
  | @cons _ _ _ _ value _ _ _ hstart _ _ ih =>
      cases i with
      | zero =>
          cases hi
          exact ⟨value, rfl, hstart⟩
      | succ i =>
          obtain ⟨later, hlater, hscope⟩ := ih (by simpa using hi)
          refine ⟨later, by simpa using hlater, ?_⟩
          rw [hscope, iterationScope, Scope.child_absorb, ← iterationScope]

theorem exists_starts {b : Backends σ} {driver : Step} {body : List StepNode}
    {outcome : Option Outcome} {t : RunState σ}
    (hd : Act.runFrom s (runStep b o driver .table) = (.ok outcome, t)) :
    ∃ starts, Starts b o param loopId driver body s ((outcome.map Outcome.toTable).getD .empty)
      t.scope starts := by
  obtain ⟨starts, r, u, hrounds, hrun⟩ :=
    exists_rounds o param loopId (runNodes b o body) t (driverValues param outcome)
  refine ⟨starts, outcome, t, r, u, hd, rfl, rfl, hrounds, ?_, fun hr => ?_⟩
  · rw [runFrom_loop, hd]
    exact hrun
  · rw [hrounds.length_of_ok hr, driverValues, List.length_map]

theorem Starts.start_eq {b : Backends σ} {driver : Step} {body : List StepNode} {table : Table}
    {outer : Scope} (h : Starts b o param loopId driver body s table outer starts) {i : Nat}
    (hi : starts[i]? = some start) :
    ∃ row value, table.rows[i]? = some row ∧ table.Gives param row value ∧
      start = iterationScope o.accumulator param loopId value outer := by
  obtain ⟨_, t, _, _, _, _, rfl, hrounds, _⟩ := h
  obtain ⟨value, hvalue, hstart⟩ := hrounds.start_eq hi
  rw [List.getElem?_map] at hvalue
  obtain ⟨row, hrow, rfl⟩ := Option.map_eq_some_iff.mp hvalue
  exact ⟨row, _, hrow, (gives_iff (List.mem_of_getElem? hrow) param _).mpr rfl, hstart⟩

/-- Every iteration of a loop starts from the scope that the driver has left, and nothing but
the value of its own row makes it differ from another one, of this run of the loop or of any
other. -/
theorem iterations_start_alike (b : Backends σ) (o : RunOptions) (param loopId : String)
    (driver : Step) (body : List StepNode) (s : RunState σ) :
    (∀ outcome t, Act.runFrom s (runStep b o driver .table) = (.ok outcome, t) →
      ∃ starts, Starts b o param loopId driver body s ((outcome.map Outcome.toTable).getD .empty)
        t.scope starts) ∧
    ∀ table outer starts, Starts b o param loopId driver body s table outer starts →
      (∀ (i : Nat) start, starts[i]? = some start → ∃ row value, table.rows[i]? = some row ∧
        table.Gives param row value ∧
        outer.Begins o.accumulator param loopId value start) ∧
      (∀ (i j : Nat) (start other : Scope), starts[i]? = some start → starts[j]? = some other →
        ∀ name, name ≠ param → name ≠ loopId → start.get? name = other.get? name) ∧
      ∀ (τ : Type) (b' : Backends τ) (o' : RunOptions) (s' : RunState τ) table' starts',
        o'.accumulator = o.accumulator →
          Starts b' o' param loopId driver body s' table' outer starts' →
        ∀ (i j : Nat) row row' value start other, table.rows[i]? = some row →
          table'.rows[j]? = some row' →
          table.Gives param row value → table'.Gives param row' value →
          starts[i]? = some start → starts'[j]? = some other → start = other := by
  have hbegins {table : Table} {outer : Scope} {starts : List Scope} {i : Nat} {start : Scope}
      (h : Starts b o param loopId driver body s table outer starts)
      (hi : starts[i]? = some start) :
      ∃ row value, table.rows[i]? = some row ∧ table.Gives param row value ∧
        outer.Begins o.accumulator param loopId value start := by
    obtain ⟨row, value, hrow, hvalue, rfl⟩ := h.start_eq hi
    exact ⟨row, value, hrow, hvalue, begins_iterationScope _ _ _ _ _⟩
  refine ⟨fun outcome t hd => exists_starts hd, fun table outer starts h =>
    ⟨fun i start hi => hbegins h hi, ?_, ?_⟩⟩
  · intro i j start other hi hj name hparam hid
    obtain ⟨_, _, _, _, hstart⟩ := hbegins h hi
    obtain ⟨_, _, _, _, hother⟩ := hbegins h hj
    have hneither : ¬ (name = param ∨ name = loopId) := fun hor => hor.elim hparam hid
    rw [hstart, hother, if_neg hneither, if_neg hneither]
  · intro τ b' o' s' table' starts' hacc h' i j row row' value start other hrow hrow'
      hvalue hvalue' hi hj
    obtain ⟨_, first, hr, hfirst, rfl⟩ := h.start_eq hi
    obtain ⟨_, second, hr', hsecond, rfl⟩ := h'.start_eq hj
    obtain rfl := Option.some.inj (hrow.symm.trans hr)
    obtain rfl := Option.some.inj (hrow'.symm.trans hr')
    have hmem := List.mem_of_getElem? hrow
    have hmem' := List.mem_of_getElem? hrow'
    have hvalues : first = second := by
      rw [(gives_iff hmem param first).mp hfirst, ← (gives_iff hmem param value).mp hvalue,
        (gives_iff hmem' param value).mp hvalue', ← (gives_iff hmem' param second).mp hsecond]
    rw [hvalues, hacc]

end Run
end TableFlow
