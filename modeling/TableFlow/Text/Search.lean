namespace TableFlow.Text

def after? : List Char → List Char → Option (List Char)
  | [], cs => some cs
  | _ :: _, [] => none
  | p :: ps, c :: cs => if p = c then after? ps cs else none

theorem after?_eq_some_iff {pattern cs rest : List Char} : after? pattern cs = some rest ↔
    cs = pattern ++ rest := by
  fun_induction after? pattern cs with
  | case1 cs => simp
  | case2 => simp
  | case3 ps c cs ih => simp [ih]
  | case4 p ps c cs h => simp [Ne.symm h]

/-- What stands before the first occurrence of a pattern, and what stands after it. -/
def cut (pattern : List Char) : List Char → Option (List Char × List Char)
  | [] => (after? pattern []).map ([], ·)
  | c :: rest =>
    match after? pattern (c :: rest) with
    | some tail => some ([], tail)
    | none => (cut pattern rest).map fun r => (c :: r.1, r.2)

theorem eq_of_cut {pattern cs before tail : List Char} (h : cut pattern cs = some (before, tail)) :
    cs = before ++ pattern ++ tail := by
  induction cs generalizing before with
  | nil =>
    simp only [cut, Option.map_eq_some_iff, after?_eq_some_iff, Prod.mk.injEq] at h
    obtain ⟨_, h, rfl, rfl⟩ := h
    simpa using h
  | cons c rest ih =>
    unfold cut at h
    split at h
    · rename_i found
      simp only [Option.some.injEq, Prod.mk.injEq] at h
      obtain ⟨rfl, rfl⟩ := h
      simpa using after?_eq_some_iff.1 found
    · obtain ⟨r, hr, he⟩ := Option.map_eq_some_iff.1 h
      simp only [Prod.mk.injEq] at he
      obtain ⟨rfl, rfl⟩ := he
      simp [ih hr]

theorem length_of_cut {pattern cs before tail : List Char}
    (h : cut pattern cs = some (before, tail)) :
    cs.length = before.length + pattern.length + tail.length := by simp [eq_of_cut h, Nat.add_assoc]

def replace (first : Char) (more : List Char) (sub : Char) (cs : List Char) : List Char :=
  match _h : cut (first :: more) cs with
  | none => cs
  | some (before, tail) => before ++ sub :: replace first more sub tail
  termination_by cs.length
  decreasing_by
    have := length_of_cut _h
    simp at this
    omega

end TableFlow.Text
