import TableFlow.Scope.Basic

namespace TableFlow.Scope

/-- The scope around a loop whose iterations have ended in the scopes `ends`: what those bound
to the accumulator comes after the items held before. -/
def gathered (s : Scope) (accumulator : String) (ends : List Scope) : Scope :=
  if ends.all fun inner => (inner.get? accumulator).isNone then s
  else s.set accumulator (.list (s.collected accumulator ++ ends.flatMap (·.collected accumulator)))

theorem set_set (s : Scope) (name : String) (old new : Value) :
    (s.set name old).set name new = s.set name new := by
  apply ext_get?
  intro other
  by_cases h : other = name <;> simp [h]

theorem collected_eq_nil {s : Scope} {accumulator : String} (h : s.get? accumulator = none) :
    s.collected accumulator = [] := by
  simp [collected, h]

theorem get?_gathered_of_ne (s : Scope) (ends : List Scope) {name accumulator : String}
    (h : name ≠ accumulator) :
    (s.gathered accumulator ends).get? name = s.get? name := by
  unfold gathered
  split
  · rfl
  · rw [get?_set, if_neg h]

theorem collected_gathered (s : Scope) (accumulator : String) (ends : List Scope) :
    (s.gathered accumulator ends).collected accumulator =
      s.collected accumulator ++ ends.flatMap (·.collected accumulator) := by
  unfold gathered
  split
  · rename_i h
    have hnil : ends.flatMap (·.collected accumulator) = [] := by
      rw [List.flatMap_eq_nil_iff]
      intro inner hi
      exact collected_eq_nil (Option.isNone_iff_eq_none.mp (List.all_eq_true.mp h inner hi))
    rw [hnil, List.append_nil]
  · simp [collected, Value.items]

theorem gathered_nil (s : Scope) (accumulator : String) : s.gathered accumulator [] = s := rfl

theorem gathered_absorb (s inner : Scope) (accumulator : String) (ends : List Scope) :
    (s.gathered accumulator ends).absorb inner accumulator =
      s.gathered accumulator (ends ++ [inner]) := by
  cases h : inner.get? accumulator with
  | none =>
      simp [absorb, gathered, h, collected_eq_nil h]
  | some value =>
      have hinner : inner.collected accumulator = value.items := by simp [collected, h]
      have hall : ((ends ++ [inner]).all fun inner => (inner.get? accumulator).isNone) = false := by
        simp [h]
      rw [absorb, h]
      simp only [collected_gathered]
      rw [gathered, gathered, hall, if_neg Bool.false_ne_true, List.flatMap_append,
        List.flatMap_singleton, hinner,
        List.append_assoc]
      -- a list gathered before is overwritten by the longer one
      split
      · rfl
      · exact set_set _ _ _ _

/-- An iteration starts without the accumulator, so it cannot tell what the ones before it have
handed back. -/
theorem child_gathered (s : Scope) (accumulator : String) (ends : List Scope) :
    (s.gathered accumulator ends).child accumulator = s.child accumulator := by
  apply ext_get?
  intro name
  by_cases h : name = accumulator
  · simp [child, h]
  · simp [child, h, get?_gathered_of_ne]

end TableFlow.Scope
