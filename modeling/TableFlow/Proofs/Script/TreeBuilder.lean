import TableFlow.Script.Tree

namespace TableFlow

theorem bind_eq_ok_iff {ε α β : Type} {x : Except ε α} {f : α → Except ε β} {b : β} :
    x >>= f = .ok b ↔ ∃ a, x = .ok a ∧ f a = .ok b := by
  cases x with
  | error e => simp [bind, Except.bind]
  | ok a => simp [bind, Except.bind]

theorem bind_eq_error_iff {ε α β : Type} {x : Except ε α} {f : α → Except ε β} {e : ε} :
    x >>= f = .error e ↔ x = .error e ∨ ∃ a, x = .ok a ∧ f a = .error e := by
  cases x with
  | error e => simp [bind, Except.bind]
  | ok a => simp [bind, Except.bind]

def Step.canDrive (s : Step) : Bool := s.hasQuery && s.marker == .plain

/-- A line that opens a loop and has no query of its own. It leaves no node in the tree. -/
def Step.opensBare (s : Step) : Bool :=
  match s.marker with
  | .opens _ _ => !s.hasQuery
  | _ => false

@[simp] theorem Step.canDrive_iff (s : Step) : s.canDrive = true ↔
    s.hasQuery = true ∧ s.marker = .plain := by
  simp [canDrive]

@[simp] theorem Step.opensBare_iff (s : Step) :
    s.opensBare = true ↔ s.hasQuery = false ∧ ∃ param loopId, s.marker = .opens param loopId := by
  cases h : s.marker <;> simp [opensBare, h]

namespace TreeBuilder

def ids (b : TreeBuilder) : List String := b.loops.map (·.loopId)

def enter (b : TreeBuilder) (l : OpenLoop) : TreeBuilder := { b with loops := l :: b.loops }

def leave (b : TreeBuilder) (outer : List OpenLoop) : TreeBuilder := { b with loops := outer }

@[simp] theorem ids_enter (b : TreeBuilder) (l : OpenLoop) : (b.enter l).ids = l.loopId :: b.ids :=
  rfl

@[simp] theorem ids_leave (b : TreeBuilder) (outer : List OpenLoop) :
    (b.leave outer).ids = outer.map (·.loopId) := rfl

@[simp] theorem current_enter (b : TreeBuilder) (l : OpenLoop) : (b.enter l).current = l.body := rfl

@[simp] theorem ids_withCurrent (b : TreeBuilder) (nodes : List StepNode) :
    (b.withCurrent nodes).ids = b.ids := by
  rcases b with ⟨root, _ | ⟨l, outer⟩⟩ <;> rfl

@[simp] theorem current_withCurrent (b : TreeBuilder) (nodes : List StepNode) :
    (b.withCurrent nodes).current = nodes := by
  rcases b with ⟨root, _ | ⟨l, outer⟩⟩ <;> rfl

@[simp] theorem ids_push (b : TreeBuilder) (node : StepNode) : (b.push node).ids = b.ids :=
  ids_withCurrent _ _

@[simp] theorem current_push (b : TreeBuilder) (node : StepNode) :
    (b.push node).current = b.current ++ [node] :=
  current_withCurrent _ _

/-- All that a step can do to a builder that takes it. -/
inductive Adds (b : TreeBuilder) (step : Step) : TreeBuilder → Prop
  | leaf : step.marker = .plain → Adds b step (b.push (.leaf step))
  | opens {param loopId} : step.marker = .opens param loopId → loopId ∉ b.ids →
      step.hasQuery = true →
      Adds b step (b.enter ⟨step.line, param, loopId, step, []⟩)
  | opensBare {param loopId nodes driver} : step.marker = .opens param loopId → loopId ∉ b.ids →
      step.hasQuery = false → b.current = nodes ++ [.leaf driver] → driver.canDrive = true →
      Adds b step ((b.withCurrent nodes).enter ⟨step.line, param, loopId, driver, []⟩)
  | closes {l outer} : b.loops = l :: outer → step.marker = .closes l.loopId →
      Adds b step ((b.leave outer).push (.loop l.param l.loopId l.driver (l.body ++ [.leaf step])))

inductive Misnests (b : TreeBuilder) (step : Step) : StructureFault → Prop
  | reusedId {param loopId} : step.marker = .opens param loopId → loopId ∈ b.ids →
      Misnests b step (.reusedId loopId)
  | noDriver {param loopId} : step.marker = .opens param loopId → step.hasQuery = false →
      b.current = [] →
      Misnests b step (.noDriver loopId)
  | unfitDriver {param loopId nodes node} : step.marker = .opens param loopId →
      step.hasQuery = false →
      b.current = nodes ++ [node] → (∀ driver, node = .leaf driver → driver.canDrive = false) →
      Misnests b step (.unfitDriver loopId)
  | neverOpened {loopId} : step.marker = .closes loopId → b.loops = [] →
      Misnests b step (.neverOpened loopId)
  | crosses {loopId l outer} : step.marker = .closes loopId → b.loops = l :: outer →
      l.loopId ≠ loopId →
      Misnests b step (.crosses loopId l.loopId l.line)

theorem detachDriver_eq_ok_iff {loopId : String} {nodes rest : List StepNode} {driver : Step} :
    detachDriver loopId nodes = .ok (rest, driver) ↔ nodes = rest ++ [.leaf driver] ∧
      driver.canDrive = true := by
  constructor
  · intro h
    unfold detachDriver at h
    split at h
    · simp at h
    · rename_i step hlast
      obtain ⟨before, rfl⟩ := List.getLast?_eq_some_iff.mp hlast
      split at h
      · rename_i hd
        simp only [List.dropLast_concat, Except.ok.injEq, Prod.mk.injEq] at h
        obtain ⟨rfl, rfl⟩ := h
        exact ⟨rfl, hd⟩
      · simp at h
    · simp at h
  · rintro ⟨rfl, hd⟩
    unfold Step.canDrive at hd
    simp [detachDriver, hd]

theorem openLoop_eq_ok_iff {b b' : TreeBuilder} {step : Step} {param loopId : String}
    (hm : step.marker = .opens param loopId) : b.openLoop step param loopId = .ok b' ↔
      Adds b step b' := by
  have hids : b.loops.any (·.loopId == loopId) = true ↔ loopId ∈ b.ids := by simp [ids]
  constructor
  · intro h
    unfold openLoop at h
    split at h
    · simp at h
    · rename_i hid
      rw [hids] at hid
      split at h
      · rename_i hq
        obtain rfl := Except.ok.inj h
        exact .opens hm hid hq
      · rename_i hq
        cases hd : detachDriver loopId b.current with
        | error e => simp [hd, bind, Except.bind] at h
        | ok p =>
            obtain ⟨nodes, driver⟩ := p
            rw [hd] at h
            obtain rfl := Except.ok.inj h
            obtain ⟨hc, hdrive⟩ := detachDriver_eq_ok_iff.mp hd
            exact .opensBare hm hid (by simpa using hq) hc hdrive
  · intro h
    cases h with
    | leaf h | closes _ h => simp [hm] at h
    | opens hm' hid hq =>
        rw [hm] at hm'
        cases hm'
        rw [openLoop, if_neg (mt hids.mp hid), if_pos hq]
        rfl
    | opensBare hm' hid hq hc hdrive =>
        rw [hm] at hm'
        cases hm'
        rw [openLoop, if_neg (mt hids.mp hid), if_neg (by simp [hq]),
          detachDriver_eq_ok_iff.mpr ⟨hc, hdrive⟩]
        rfl

theorem closeLoop_eq_ok_iff {b b' : TreeBuilder} {step : Step} {loopId : String}
    (hm : step.marker = .closes loopId) :
    b.closeLoop step loopId = .ok b' ↔ Adds b step b' := by
  constructor
  · intro h
    unfold closeLoop at h
    split at h
    · simp at h
    · rename_i l outer hl
      split at h
      · rename_i hid
        obtain rfl := Except.ok.inj h
        exact .closes hl (hm.trans (congrArg _ hid.symm))
      · simp at h
  · intro h
    cases h with
    | leaf h | opens h | opensBare h => simp [hm] at h
    | closes hl hm' =>
        rw [hm] at hm'
        cases hm'
        simp [closeLoop, hl, leave]

theorem mapError_eq_ok_iff {α ε δ : Type} {f : ε → δ} {x : Except ε α} {a : α} :
    x.mapError f = .ok a ↔ x = .ok a := by
  cases x with
  | error e => exact ⟨nofun, nofun⟩
  | ok b =>
      constructor
      · intro h
        cases h
        rfl
      · intro h
        cases h
        rfl

theorem mapError_eq_error_iff {α ε δ : Type} {f : ε → δ} {x : Except ε α} {e : δ} :
    x.mapError f = .error e ↔ ∃ fault, x = .error fault ∧ e = f fault := by
  cases x with
  | ok a => exact iff_of_false nofun fun ⟨_, h, _⟩ => nomatch h
  | error fault =>
      constructor
      · intro h
        cases h
        exact ⟨fault, rfl, rfl⟩
      · rintro ⟨_, ⟨⟩, rfl⟩
        rfl

theorem add_eq_ok_iff {b b' : TreeBuilder} {step : Step} : b.add step = .ok b' ↔
    Adds b step b' := by
  cases hm : step.marker with
  | plain =>
      simp only [add, hm, Except.ok.injEq]
      constructor
      · rintro rfl
        exact .leaf hm
      · intro h
        cases h with
        | leaf => rfl
        | opens h | opensBare h | closes _ h => simp [hm] at h
  | opens param loopId => simp only [add, hm, mapError_eq_ok_iff, openLoop_eq_ok_iff hm]
  | closes loopId => simp only [add, hm, mapError_eq_ok_iff, closeLoop_eq_ok_iff hm]

theorem foldlM_cons_eq_ok_iff {step : Step} {rest : List Step} {b b' : TreeBuilder} :
    (step :: rest).foldlM add b = .ok b' ↔ ∃ next, Adds b step next ∧
      rest.foldlM add next = .ok b' := by
  rw [List.foldlM_cons, bind_eq_ok_iff]
  simp only [add_eq_ok_iff]

/-- What each step keeps holds at the end of a run. `done` are the steps that the builder has
taken. -/
theorem invariant_of_foldlM {I : List Step → TreeBuilder → Prop}
    (hadd : ∀ {done b step b'}, I done b → Adds b step b' → I (done ++ [step]) b')
    {done steps : List Step} {b b' : TreeBuilder} (hb : I done b)
    (h : steps.foldlM add b = .ok b') :
    I (done ++ steps) b' := by
  induction steps generalizing done b with
  | nil =>
      obtain rfl := Except.ok.inj h
      simpa using hb
  | cons step rest ih =>
      obtain ⟨next, ha, hr⟩ := foldlM_cons_eq_ok_iff.mp h
      simpa using ih (hadd hb ha) hr

theorem ofSteps_eq_ok_iff {steps : List Step} {nodes : List StepNode} :
    StepNode.ofSteps steps = .ok nodes ↔ ∃ b : TreeBuilder, steps.foldlM add {} = .ok b ∧
      b.finish = .ok nodes :=
  bind_eq_ok_iff

theorem finish_eq_ok_iff {b : TreeBuilder} {nodes : List StepNode} :
    b.finish = .ok nodes ↔ b.loops = [] ∧ b.root = nodes := by
  rcases b with ⟨root, _ | ⟨l, outer⟩⟩ <;> simp [finish]

theorem invariant_of_ofSteps {I : List Step → TreeBuilder → Prop}
    (hadd : ∀ {done b step b'}, I done b → Adds b step b' → I (done ++ [step]) b')
    (hstart : I [] {}) {steps : List Step} {nodes : List StepNode}
    (h : StepNode.ofSteps steps = .ok nodes) : I steps ⟨nodes, []⟩ := by
  obtain ⟨⟨root, loops⟩, hrun, hf⟩ := ofSteps_eq_ok_iff.mp h
  obtain ⟨rfl, rfl⟩ := finish_eq_ok_iff.mp hf
  exact invariant_of_foldlM hadd hstart hrun

section Misnests

variable {b : TreeBuilder} {step : Step} {param loopId : String} {fault : StructureFault}
  {e : ScriptError}

theorem misnests_of_detachDriver (hm : step.marker = .opens param loopId)
    (hq : step.hasQuery = false) (h : detachDriver loopId b.current = .error fault) :
    Misnests b step fault := by
  unfold detachDriver at h
  split at h
  · rename_i hlast
    cases h
    exact .noDriver hm hq (List.getLast?_eq_none_iff.mp hlast)
  · rename_i driver hlast
    obtain ⟨nodes, hnodes⟩ := List.getLast?_eq_some_iff.mp hlast
    split at h
    · cases h
    · rename_i hdrive
      cases h
      refine .unfitDriver hm hq hnodes ?_
      rintro _ ⟨⟩
      exact Bool.eq_false_iff.mpr hdrive
  · rename_i hlast
    obtain ⟨nodes, hnodes⟩ := List.getLast?_eq_some_iff.mp hlast
    cases h
    exact .unfitDriver hm hq hnodes nofun

theorem misnests_of_openLoop (hm : step.marker = .opens param loopId)
    (h : b.openLoop step param loopId = .error fault) :
    Misnests b step fault := by
  unfold openLoop at h
  split at h
  · rename_i hid
    cases h
    exact .reusedId hm (by simpa [ids] using hid)
  · split at h
    · cases h
    · rename_i hq
      obtain h | ⟨_, -, h⟩ := bind_eq_error_iff.mp h
      · exact misnests_of_detachDriver hm (by simpa using hq) h
      · cases h

theorem misnests_of_closeLoop (hm : step.marker = .closes loopId)
    (h : b.closeLoop step loopId = .error fault) :
    Misnests b step fault := by
  unfold closeLoop at h
  split at h
  · rename_i hl
    cases h
    exact .neverOpened hm hl
  · rename_i l outer hl
    split at h
    · cases h
    · rename_i hid
      cases h
      exact .crosses hm hl hid

theorem misnests_of_add (h : b.add step = .error e) :
    ∃ fault, e = .misnested step.line fault ∧ Misnests b step fault := by
  unfold add at h
  split at h
  · cases h
  · rename_i hm
    obtain ⟨fault, hopen, rfl⟩ := mapError_eq_error_iff.mp h
    exact ⟨fault, rfl, misnests_of_openLoop hm hopen⟩
  · rename_i hm
    obtain ⟨fault, hclose, rfl⟩ := mapError_eq_error_iff.mp h
    exact ⟨fault, rfl, misnests_of_closeLoop hm hclose⟩

theorem misnests_of_foldlM {steps : List Step} (h : steps.foldlM add b = .error e) :
    ∃ front step back b' fault, steps = front ++ step :: back ∧ front.foldlM add b = .ok b' ∧
      e = .misnested step.line fault ∧ Misnests b' step fault := by
  induction steps generalizing b with
  | nil => cases h
  | cons step rest ih =>
      rw [List.foldlM_cons] at h
      obtain ha | ⟨next, ha, hr⟩ := bind_eq_error_iff.mp h
      · obtain ⟨fault, he, hfault⟩ := misnests_of_add ha
        exact ⟨[], step, rest, b, fault, rfl, rfl, he, hfault⟩
      · obtain ⟨front, other, back, b', fault, rfl, hfront, he, hfault⟩ := ih hr
        exact ⟨step :: front, other, back, b', fault, rfl,
          foldlM_cons_eq_ok_iff.mpr ⟨next, add_eq_ok_iff.mp ha, hfront⟩, he, hfault⟩

/-- A tree fails at a step that does not fit, or at the end for a loop that is still open. -/
theorem misnests_of_ofSteps {steps : List Step} (h : StepNode.ofSteps steps = .error e) :
    (∃ front step back b fault, steps = front ++ step :: back ∧ front.foldlM add {} = .ok b ∧
      e = .misnested step.line fault ∧ Misnests b step fault) ∨
    ∃ line loopId, e = .misnested line (.neverClosed loopId) := by
  obtain h | ⟨b, -, h⟩ := bind_eq_error_iff.mp h
  · exact .inl (misnests_of_foldlM h)
  · rcases b with ⟨root, _ | ⟨l, outer⟩⟩
    · cases h
    · exact .inr ⟨l.line, l.loopId, (Except.error.inj h).symm⟩

end Misnests

theorem misnested_of_ofSteps {steps : List Step} {e : ScriptError}
    (h : StepNode.ofSteps steps = .error e) :
    ∃ line fault, e = .misnested line fault := by
  obtain ⟨_, step, _, _, fault, -, -, he, -⟩ | ⟨line, loopId, he⟩ := misnests_of_ofSteps h
  · exact ⟨step.line, fault, he⟩
  · exact ⟨line, .neverClosed loopId, he⟩

end TreeBuilder
end TableFlow
