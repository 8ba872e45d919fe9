import TableFlow.Proofs.Script.TreeBuilder

namespace TableFlow

/-- Steps whose markers pair off, inside loops with the ids `outer`. What opens and what closes
a loop name one id, which no loop around has, and what is between them pairs off as well. -/
inductive Nested : List String → List Step → Prop
  | nil {outer} : Nested outer []
  | plain {outer step rest} : step.marker = .plain → Nested outer rest → Nested outer (step :: rest)
  | loop {outer opening param loopId body closing rest} :
      opening.marker = .opens param loopId → loopId ∉ outer → Nested (loopId :: outer) body →
      closing.marker = .closes loopId → Nested outer rest →
        Nested outer (opening :: body ++ closing :: rest)

/-- Each line that opens a loop and has no query comes right after a plain step that has one. -/
def Driven (steps : List Step) : Prop :=
  ∀ before opening after, steps = before ++ opening :: after → opening.opensBare = true →
    ∃ driver, before.getLast? = some driver ∧ driver.canDrive = true

def openIds (ids : List String) (step : Step) : Option (List String) :=
  match step.marker, ids with
  | .plain, _ => some ids
  | .opens _ loopId, _ => if loopId ∈ ids then none else some (loopId :: ids)
  | .closes loopId, innermost :: outer => if innermost = loopId then some outer else none
  | .closes _, [] => none

inductive Closing : List String → List Step → Prop
  | last {steps} : Nested [] steps → Closing [] steps
  | next {loopId outer body closing rest} : Nested (loopId :: outer) body →
      closing.marker = .closes loopId →
      Closing outer rest → Closing (loopId :: outer) (body ++ closing :: rest)

theorem Closing.plain {ids : List String} {step : Step} {rest : List Step}
    (hm : step.marker = .plain) (h : Closing ids rest) : Closing ids (step :: rest) := by
  cases h with
  | last h => exact .last (.plain hm h)
  | next h hc hr => exact .next (.plain hm h) hc hr

theorem Closing.loop {ids : List String} {opening : Step} {rest : List Step} {param loopId : String}
    (hm : opening.marker = .opens param loopId) (hid : loopId ∉ ids)
    (h : Closing (loopId :: ids) rest) :
    Closing ids (opening :: rest) := by
  cases h with
  | @next _ _ body closing _ hb hc hr =>
      -- what follows the end of this loop is either outside all loops or goes on to the end of
      -- the next one around
      cases hr with
      | last hr => exact .last (.loop hm hid hb hc hr)
      | @next _ _ body' closing' rest' hb' hc' hr =>
          have h := Closing.next (.loop hm hid hb hc hb') hc' hr
          simpa only [List.cons_append, List.append_assoc] using h

theorem closing_of_foldlM {ids : List String} {steps : List Step}
    (h : steps.foldlM openIds ids = some []) :
    Closing ids steps := by
  induction steps generalizing ids with
  | nil =>
      obtain rfl : ids = [] := by simpa using h
      exact .last .nil
  | cons step rest ih =>
      rw [List.foldlM_cons] at h
      obtain ⟨next, hs, hr⟩ := Option.bind_eq_some_iff.mp h
      have hrest := ih hr
      unfold openIds at hs
      split at hs
      · rename_i hm
        cases hs
        exact hrest.plain hm
      · rename_i hm
        split at hs
        · simp at hs
        · rename_i hid
          cases hs
          exact hrest.loop hm hid
      · rename_i hm
        split at hs
        · rename_i he
          cases hs
          exact .next .nil (hm.trans (congrArg _ he.symm)) hrest
        · simp at hs
      · simp at hs

theorem foldlM_of_nested {ids : List String} {steps : List Step} (h : Nested ids steps)
    (rest : List Step) :
    (steps ++ rest).foldlM openIds ids = rest.foldlM openIds ids := by
  induction h generalizing rest with
  | nil => rfl
  | @plain outer step steps hm _ ih =>
      have hs : openIds outer step = some outer := by simp [openIds, hm]
      rw [List.cons_append, List.foldlM_cons, hs]
      exact ih rest
  | @loop outer opening param loopId body closing after hm hid _ hc _ ihb iha =>
      have ho : openIds outer opening = some (loopId :: outer) := by simp [openIds, hm, hid]
      have hc : openIds (loopId :: outer) closing = some outer := by simp [openIds, hc]
      rw [List.append_assoc, List.cons_append, List.foldlM_cons, ho]
      change (body ++ (closing :: after ++ rest)).foldlM openIds (loopId :: outer) = _
      rw [ihb, List.cons_append, List.foldlM_cons, hc]
      exact iha rest

theorem nested_iff_foldlM (steps : List Step) :
    Nested [] steps ↔ steps.foldlM openIds [] = some [] := by
  constructor
  · intro h
    simpa using foldlM_of_nested h []
  · intro h
    cases closing_of_foldlM h with
    | last h => exact h

def DrivenAfter (last : Option Step) : List Step → Prop
  | [] => True
  | step :: rest =>
      (step.opensBare = true → ∃ driver, last = some driver ∧ driver.canDrive = true) ∧
        DrivenAfter (some step) rest

theorem drivenAfter_iff (last : Option Step) (steps : List Step) :
    DrivenAfter last steps ↔ ∀ before opening after, steps = before ++ opening :: after →
      opening.opensBare = true →
      ∃ driver, (last.toList ++ before).getLast? = some driver ∧ driver.canDrive = true := by
  induction steps generalizing last with
  | nil => simp [DrivenAfter]
  | cons step rest ih =>
      rw [DrivenAfter, ih]
      constructor
      · rintro ⟨hstep, hrest⟩ before opening after he ho
        cases before with
        | nil =>
            obtain ⟨rfl, rfl⟩ := List.cons.inj he
            obtain ⟨driver, rfl, hd⟩ := hstep ho
            exact ⟨driver, rfl, hd⟩
        | cons first before =>
            obtain ⟨rfl, hr⟩ := List.cons.inj he
            obtain ⟨driver, hl, hd⟩ := hrest before opening after hr ho
            refine ⟨driver, ?_, hd⟩
            rw [List.getLast?_append]
            simpa using hl
      · intro h
        refine ⟨?_, ?_⟩
        · intro ho
          obtain ⟨driver, hl, hd⟩ := h [] step rest rfl ho
          cases last with
          | none => simp at hl
          | some d => exact ⟨driver, by simpa using hl, hd⟩
        · intro before opening after he ho
          obtain ⟨driver, hl, hd⟩ :=
            h (step :: before) opening after (by rw [he, List.cons_append]) ho
          refine ⟨driver, ?_, hd⟩
          rw [List.getLast?_append] at hl
          simpa using hl

theorem driven_iff (steps : List Step) : Driven steps ↔ DrivenAfter none steps :=
  (drivenAfter_iff none steps).symm

namespace TreeBuilder

def Drivable (b : TreeBuilder) : Prop :=
  ∃ nodes driver, b.current = nodes ++ [.leaf driver] ∧ driver.canDrive = true

theorem openIds_of_adds {b b' : TreeBuilder} {step : Step} (h : Adds b step b') :
    openIds b.ids step = some b'.ids := by
  cases h with
  | leaf hm => simp [openIds, hm]
  | opens hm hid | opensBare hm hid => simp [openIds, hm, hid]
  | @closes l outer hl hm =>
      have hids : b.ids = l.loopId :: outer.map (·.loopId) := by rw [ids, hl, List.map_cons]
      simp [openIds, hm, hids]

/-- Whether the next line finds a driver in the tree depends on this step alone: a plain step is
the last node, a line that opens a loop has none after it, and a line that closes one leaves the
loop there. -/
theorem drivable_of_adds {b b' : TreeBuilder} {step : Step} (h : Adds b step b') :
    b'.Drivable ↔ step.canDrive = true := by
  cases h with
  | leaf hm =>
      simp only [Drivable, current_push]
      constructor
      · rintro ⟨nodes, driver, he, hd⟩
        obtain ⟨-, he⟩ := List.append_inj' he rfl
        cases he
        exact hd
      · exact fun hd => ⟨b.current, step, rfl, hd⟩
  | opens hm | opensBare hm => simp [Drivable, hm]
  | closes hl hm =>
      simp only [Drivable, current_push, Step.canDrive_iff, hm, reduceCtorEq, and_false, iff_false]
      rintro ⟨nodes, driver, he, -⟩
      obtain ⟨-, he⟩ := List.append_inj' he rfl
      cases he

theorem exists_adds_iff (b : TreeBuilder) (step : Step) :
    (∃ b', Adds b step b') ↔ (∃ ids, openIds b.ids step = some ids) ∧
      (step.opensBare = true → b.Drivable) := by
  constructor
  · rintro ⟨b', h⟩
    refine ⟨⟨b'.ids, openIds_of_adds h⟩, ?_⟩
    intro ho
    cases h with
    | opensBare _ _ _ hc hd => exact ⟨_, _, hc, hd⟩
    | leaf hm | closes _ hm => simp [hm] at ho
    | opens _ _ hq => simp [hq] at ho
  · rintro ⟨⟨ids, hs⟩, hd⟩
    unfold openIds at hs
    split at hs
    · rename_i hm
      exact ⟨_, .leaf hm⟩
    · rename_i param loopId hm
      split at hs
      · simp at hs
      · rename_i hid
        cases hq : step.hasQuery with
        | true => exact ⟨_, .opens hm hid hq⟩
        | false =>
            obtain ⟨nodes, driver, hc, hdrive⟩ := hd (by simp [hq, hm])
            exact ⟨_, .opensBare hm hid hq hc hdrive⟩
    · rename_i loopId innermost outer hm hids
      split at hs
      · rename_i he
        obtain ⟨l, rest, hl, rfl, -⟩ := List.map_eq_cons_iff.mp hids
        exact ⟨_, .closes hl (hm.trans (congrArg _ he.symm))⟩
      · simp at hs
    · simp at hs

theorem foldlM_add_eq_ok_iff (steps : List Step) (b : TreeBuilder) (last : Option Step)
    (hlast : b.Drivable ↔ ∃ driver, last = some driver ∧ driver.canDrive = true) :
    (∃ b' nodes, steps.foldlM add b = .ok b' ∧ b'.finish = .ok nodes) ↔
      steps.foldlM openIds b.ids = some [] ∧ DrivenAfter last steps := by
  induction steps generalizing b last with
  | nil => simp [DrivenAfter, finish_eq_ok_iff, ids, pure, Except.pure]
  | cons step rest ih =>
      have hnext {next : TreeBuilder} (ha : Adds b step next) :=
        ih next (some step) (by simpa using drivable_of_adds ha)
      constructor
      · rintro ⟨b', nodes, h, hf⟩
        obtain ⟨next, ha, hr⟩ := foldlM_cons_eq_ok_iff.mp h
        obtain ⟨hids, hd⟩ := (hnext ha).mp ⟨b', nodes, hr, hf⟩
        refine ⟨?_, ?_, hd⟩
        · rw [List.foldlM_cons, openIds_of_adds ha]
          exact hids
        · exact fun ho => hlast.mp (((exists_adds_iff b step).mp ⟨next, ha⟩).2 ho)
      · rintro ⟨hids, ho, hd⟩
        rw [List.foldlM_cons] at hids
        obtain ⟨ids, hs, hr⟩ := Option.bind_eq_some_iff.mp hids
        obtain ⟨next, ha⟩ := (exists_adds_iff b step).mpr ⟨⟨ids, hs⟩, fun h => hlast.mpr (ho h)⟩
        rw [openIds_of_adds ha] at hs
        obtain rfl := Option.some.inj hs
        obtain ⟨b', nodes, h, hf⟩ := (hnext ha).mpr ⟨hr, hd⟩
        exact ⟨b', nodes, foldlM_cons_eq_ok_iff.mpr ⟨next, ha, h⟩, hf⟩

end TreeBuilder

theorem exists_ofSteps_iff (steps : List Step) :
    (∃ nodes, StepNode.ofSteps steps = .ok nodes) ↔ Nested [] steps ∧ Driven steps := by
  have hstart : TreeBuilder.Drivable {} ↔ ∃ driver, (none : Option Step) = some driver ∧
      driver.canDrive = true := by
    simp [TreeBuilder.Drivable, TreeBuilder.current]
  rw [nested_iff_foldlM, driven_iff]
  simp only [TreeBuilder.ofSteps_eq_ok_iff]
  rw [exists_comm]
  exact TreeBuilder.foldlM_add_eq_ok_iff steps {} none hstart

/-- A list of steps has a tree exactly if its loops are nested and its drivers are in place.
Otherwise it is refused, and the reason is one of structure. -/
theorem ofSteps_accepts_iff_nested (steps : List Step) :
    ((∃ nodes, StepNode.ofSteps steps = .ok nodes) ↔ Nested [] steps ∧ Driven steps) ∧
      (¬ (Nested [] steps ∧ Driven steps) → ∃ line fault,
        StepNode.ofSteps steps = .error (.misnested line fault)) := by
  refine ⟨exists_ofSteps_iff steps, ?_⟩
  intro hn
  cases h : StepNode.ofSteps steps with
  | ok nodes => exact absurd ((exists_ofSteps_iff steps).mp ⟨nodes, h⟩) hn
  | error e =>
      obtain ⟨line, fault, rfl⟩ := TreeBuilder.misnested_of_ofSteps h
      exact ⟨line, fault, rfl⟩

end TableFlow
