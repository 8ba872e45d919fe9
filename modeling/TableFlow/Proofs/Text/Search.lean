import TableFlow.Text.Search

namespace TableFlow.Text

variable {first sub c : Char} {pattern more cs before tail rest block : List Char}

theorem after?_eq_none_iff : after? pattern cs = none ↔ ¬ pattern <+: cs := by
  constructor
  · rintro h ⟨rest, hrest⟩
    rw [after?_eq_some_iff.mpr hrest.symm] at h
    cases h
  · intro h
    rw [Option.eq_none_iff_forall_ne_some]
    exact fun rest hrest => h ⟨rest, (after?_eq_some_iff.mp hrest).symm⟩

theorem cut_pattern_append (first : Char) (more tail : List Char) :
    cut (first :: more) (first :: more ++ tail) = some ([], tail) := by
  have hafter : after? (first :: more) (first :: more ++ tail) = some tail :=
    after?_eq_some_iff.mpr rfl
  rw [List.cons_append] at hafter ⊢
  rw [cut, hafter]

theorem cut_of_not_begins (h : ¬ pattern <+: c :: cs) :
    cut pattern (c :: cs) = (cut pattern cs).map fun r => (c :: r.1, r.2) := by
  rw [cut, after?_eq_none_iff.mpr h]

theorem cut_eq_none_iff : cut pattern cs = none ↔ ¬ pattern <:+: cs := by
  induction cs with
  | nil => rw [cut, Option.map_eq_none_iff, after?_eq_none_iff, List.prefix_nil, List.infix_nil]
  | cons c cs ih =>
      rw [List.infix_cons_iff, not_or, ← ih]
      by_cases hprefix : pattern <+: c :: cs
      · obtain ⟨tail, htail⟩ := hprefix
        rw [cut, after?_eq_some_iff.mpr htail.symm, ← htail]
        simp
      · rw [cut_of_not_begins hprefix, Option.map_eq_none_iff]
        exact (and_iff_right hprefix).symm

/-- A pattern whose first character comes once in it cannot begin in what stands before it. -/
theorem prefix_of_prefix_append (hfirst : first ∉ more) (hne : cs ≠ [])
    (h : first :: more <+: cs ++ first :: tail) :
    first :: more <+: cs := by
  obtain ⟨rest, h⟩ := h
  obtain ⟨shared, hcs, -⟩ | ⟨shared, hpattern, hshared⟩ := List.append_eq_append_iff.mp h
  · exact ⟨shared, hcs.symm⟩
  · obtain ⟨c, cs, rfl⟩ := List.exists_cons_of_ne_nil hne
    cases shared with
    | nil => exact ⟨[], by simpa using hpattern⟩
    | cons d shared =>
        obtain ⟨rfl, -⟩ := List.cons.inj hshared
        obtain ⟨-, rfl⟩ := List.cons.inj hpattern
        simp at hfirst

/-- The first place of a pattern is the one where it is written, if it is not in the text
before. -/
theorem cut_written (hfirst : first ∉ more) (h : ¬ first :: more <:+: before) (tail : List Char) :
    cut (first :: more) (before ++ first :: more ++ tail) = some (before, tail) := by
  induction before with
  | nil => exact cut_pattern_append first more tail
  | cons c before ih =>
      rw [List.infix_cons_iff, not_or] at h
      have hnot : ¬ first :: more <+: c :: before ++ first :: more ++ tail := fun hprefix => by
        rw [List.append_assoc] at hprefix
        exact h.1 (prefix_of_prefix_append hfirst (List.cons_ne_nil c before) hprefix)
      rw [List.cons_append, List.cons_append] at hnot ⊢
      rw [cut_of_not_begins hnot, ih h.2]
      rfl

theorem replace_of_none (h : cut (first :: more) cs = none) : replace first more sub cs = cs := by
  rw [replace]
  split
  · rfl
  · rename_i hcut
    rw [h] at hcut
    cases hcut

theorem replace_of_cut (h : cut (first :: more) cs = some (before, tail)) :
    replace first more sub cs = before ++ sub :: replace first more sub tail := by
  rw [replace]
  split
  · rename_i hcut
    rw [h] at hcut
    cases hcut
  · rename_i hcut
    obtain ⟨rfl, rfl⟩ := Prod.mk.inj (Option.some.inj (hcut.symm.trans h))
    rfl

theorem replace_nil : replace first more sub [] = [] :=
  replace_of_none (cut_eq_none_iff.mpr (by simp))

theorem replace_pattern (rest : List Char) :
    replace first more sub (first :: more ++ rest) = sub :: replace first more sub rest :=
  replace_of_cut (cut_pattern_append first more rest)

theorem replace_cons (h : ¬ first :: more <+: c :: cs) :
    replace first more sub (c :: cs) = c :: replace first more sub cs := by
  have hcut := cut_of_not_begins h
  cases hrest : cut (first :: more) cs with
  | none =>
      rw [hrest] at hcut
      rw [replace_of_none hcut, replace_of_none hrest]
  | some p =>
      rw [hrest] at hcut
      rw [replace_of_cut hcut, replace_of_cut hrest]
      rfl

theorem replace_append_of_notMem (h : first ∉ block) (rest : List Char) :
    replace first more sub (block ++ rest) = block ++ replace first more sub rest := by
  induction block with
  | nil => rfl
  | cons c block ih =>
      rw [List.mem_cons, not_or] at h
      rw [List.cons_append, replace_cons, ih h.2, List.cons_append]
      exact fun hprefix => h.1 (List.cons_prefix_cons.mp hprefix).1

theorem replace_append (h : ¬ first :: more <+: block ++ rest) (htail : first ∉ block.tail) :
    replace first more sub (block ++ rest) = block ++ replace first more sub rest := by
  cases block with
  | nil => rfl
  | cons c block =>
      rw [List.tail_cons] at htail
      rw [List.cons_append] at h ⊢
      rw [replace_cons h, replace_append_of_notMem htail, List.cons_append]

end TableFlow.Text
