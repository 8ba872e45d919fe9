import Mathlib.Data.List.DropRight
import TableFlow.Text.Blank

namespace TableFlow.Text

variable {cs gap front back : List Char}

theorem trimEnd_eq_rdropWhile (cs : List Char) : trimEnd cs = cs.rdropWhile isBlank := rfl

theorem trimStart_gap_append (h : gap.all isBlank = true) (cs : List Char) :
    trimStart (gap ++ cs) = trimStart cs :=
  List.dropWhile_append_of_pos (List.all_eq_true.mp h)

theorem trimEnd_append_gap (h : gap.all isBlank = true) (cs : List Char) :
    trimEnd (cs ++ gap) = trimEnd cs := by
  rw [trimEnd, List.reverse_append, List.dropWhile_append_of_pos (by simpa using h), trimEnd]

theorem trimStart_of_head (h : cs.head?.all isBlank = false) : trimStart cs = cs := by
  cases cs with
  | nil => rfl
  | cons c rest => exact List.dropWhile_cons_of_neg (by simpa using h)

theorem trimEnd_of_last (h : cs.getLast?.all isBlank = false) : trimEnd cs = cs := by
  rw [trimEnd_eq_rdropWhile, List.rdropWhile_eq_self_iff]
  intro hne
  rw [List.getLast?_eq_some_getLast hne] at h
  simpa using h

theorem trimEnd_append (h : trimEnd back ≠ []) (front : List Char) :
    trimEnd (front ++ back) = front ++ trimEnd back := by
  have hne : back.reverse.dropWhile isBlank ≠ [] := fun hnil => h (by rw [trimEnd, hnil]; rfl)
  rw [trimEnd, List.reverse_append, List.dropWhile_append, if_neg (by simpa using hne),
    List.reverse_append, List.reverse_reverse, ← trimEnd]

theorem trimEnd_ne_nil (h : cs.head?.all isBlank = false) : trimEnd cs ≠ [] := by
  cases cs with
  | nil => simp at h
  | cons c rest =>
      rw [trimEnd_eq_rdropWhile, ne_eq, List.rdropWhile_eq_nil_iff]
      intro hall
      have hc := hall c List.mem_cons_self
      simp [hc] at h

theorem head?_trimEnd (h : cs.head?.all isBlank = false) : (trimEnd cs).head? = cs.head? := by
  obtain ⟨gap, hgap⟩ : trimEnd cs <+: cs := List.rdropWhile_prefix isBlank cs
  rw [← List.head?_append_of_ne_nil (trimEnd cs) (trimEnd_ne_nil h), hgap]

theorem trim_trimEnd (cs : List Char) : trim (trimEnd cs) = trim cs := by
  rw [trim, trim, trimEnd_eq_rdropWhile, trimEnd_eq_rdropWhile, List.rdropWhile_idempotent]

structure Tight (cs : List Char) : Prop where
  head : cs.head?.all isBlank = false
  last : cs.getLast?.all isBlank = false

theorem exists_append_trimEnd (cs : List Char) :
    ∃ gap, gap.all isBlank = true ∧ cs = trimEnd cs ++ gap := by
  refine ⟨(cs.reverse.takeWhile isBlank).reverse, ?_, ?_⟩
  · rw [List.all_reverse]
    exact List.all_takeWhile
  · rw [trimEnd, ← List.reverse_append, List.takeWhile_append_dropWhile, List.reverse_reverse]

theorem exists_append_trim (cs : List Char) :
    ∃ before after, before.all isBlank = true ∧ after.all isBlank = true ∧
      cs = before ++ trim cs ++ after := by
  obtain ⟨after, hafter, hcs⟩ := exists_append_trimEnd cs
  refine ⟨(trimEnd cs).takeWhile isBlank, after, List.all_takeWhile, hafter, ?_⟩
  rw [trim, trimStart, List.takeWhile_append_dropWhile, ← hcs]

theorem tight_trim (h : trim cs ≠ []) : Tight (trim cs) := by
  have hend : trimEnd cs ≠ [] := fun hnil => h (by rw [trim, hnil]; rfl)
  have hlast : (trimEnd cs).getLast?.all isBlank = false := by
    rw [List.getLast?_eq_some_getLast hend, Option.all_some]
    exact Bool.eq_false_iff.mpr (List.rdropWhile_last_not isBlank cs hend)
  obtain ⟨gap, hgap⟩ : trim cs <:+ trimEnd cs := List.dropWhile_suffix isBlank
  refine ⟨?_, ?_⟩
  · obtain ⟨c, rest, hcs⟩ := List.exists_cons_of_ne_nil h
    have hhead := List.head?_dropWhile_not isBlank (trimEnd cs)
    rw [← trimStart, ← trim, hcs] at hhead
    simpa [hcs] using hhead
  · rwa [← hgap, List.getLast?_append_of_ne_nil _ h] at hlast

theorem Tight.ne_nil (h : Tight cs) : cs ≠ [] := by
  rintro rfl
  cases h.head

theorem Tight.trim_eq (h : Tight cs) (hfront : front.all isBlank = true)
    (hgap : gap.all isBlank = true) :
    trim (front ++ cs ++ gap) = cs := by
  have hlast : (front ++ cs).getLast?.all isBlank = false := by
    rw [List.getLast?_append_of_ne_nil _ h.ne_nil]
    exact h.last
  rw [trim, trimEnd_append_gap hgap, trimEnd_of_last hlast, trimStart_gap_append hfront,
    trimStart_of_head h.head]

theorem trim_of_blank (h : gap.all isBlank = true) : trim gap = [] := by
  have hend := trimEnd_append_gap h []
  rw [List.nil_append] at hend
  rw [trim, hend]
  rfl

theorem dropEndOf_append {c : Char} {run : List Char} (hrun : ∀ d ∈ run, d = c)
    (hcs : cs.getLast? ≠ some c) :
    dropEndOf c (cs ++ run) = cs := by
  have hkeep : cs.reverse.dropWhile (· == c) = cs.reverse := by
    rw [← List.head?_reverse] at hcs
    cases hreverse : cs.reverse with
    | nil => rfl
    | cons d rest =>
        rw [hreverse] at hcs
        exact List.dropWhile_cons_of_neg (by simpa using hcs)
  rw [dropEndOf, List.reverse_append, List.dropWhile_append_of_pos (by simpa using hrun), hkeep,
    List.reverse_reverse]

theorem exists_append_dropEndOf (c : Char) (cs : List Char) :
    ∃ run, (∀ d ∈ run, d = c) ∧ cs = dropEndOf c cs ++ run := by
  refine ⟨(cs.reverse.takeWhile (· == c)).reverse, fun d hd => ?_, ?_⟩
  · rw [List.mem_reverse] at hd
    simpa using List.all_eq_true.mp List.all_takeWhile d hd
  · rw [dropEndOf, ← List.reverse_append, List.takeWhile_append_dropWhile, List.reverse_reverse]

end TableFlow.Text
