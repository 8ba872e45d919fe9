import TableFlow.Proofs.Text.Search
import TableFlow.Xml.Element

namespace TableFlow.Xml

def specials : List Char := ['&', '<', '>', '"', '\'']

/-- A character of a text in which some of the entities are replaced. -/
def escapedBut (done : List Char) (c : Char) : List Char := if c ∈ done then [c] else escapeChar c

variable {c special : Char} {done more : List Char}

theorem escapeChar_of_notMem (h : c ∉ specials) : escapeChar c = [c] := by
  simp only [specials, List.mem_cons, List.not_mem_nil, or_false, not_or] at h
  unfold escapeChar
  split <;> simp_all

theorem ampersand_notMem_tail (c : Char) : '&' ∉ (escapeChar c).tail := by
  by_cases h : c ∈ specials
  · exact (show ∀ c ∈ specials, '&' ∉ (escapeChar c).tail by simp [specials, escapeChar]) c h
  · simp [escapeChar_of_notMem h]

theorem lessThan_notMem_escape (cs : List Char) : '<' ∉ escape cs := by
  rw [escape, List.mem_flatMap]
  rintro ⟨c, -, hc⟩
  by_cases h : c ∈ specials
  · exact (show ∀ c ∈ specials, '<' ∉ escapeChar c by simp [specials, escapeChar]) c h hc
  · rw [escapeChar_of_notMem h, List.mem_singleton] at hc
    exact h (hc ▸ by decide)

theorem eq_of_prefix_escapeChar : ∀ c ∈ specials, ∀ special ∈ specials,
    escapeChar special <+: escapeChar c ∨ escapeChar c <+: escapeChar special → c = special := by
  simp [specials, escapeChar]

/-- Where an ampersand is still written as an entity, an entity begins only where its character
was. -/
theorem not_prefix_escapedBut (hspecial : special ∈ specials) (hne : c ≠ special)
    (hdone : '&' ∉ done) (rest : List Char) :
    ¬ escapeChar special <+: escapedBut done c ++ rest := by
  intro h
  have hplain (hc : c ≠ '&') : ¬ escapeChar special <+: c :: rest := fun h => by
    obtain ⟨more, hmore⟩ : ∃ more, escapeChar special = '&' :: more :=
      List.head?_eq_some_iff.mp
        ((show ∀ c ∈ specials, (escapeChar c).head? = some '&' by simp [specials, escapeChar])
          special hspecial)
    rw [hmore] at h
    exact hc (List.cons_prefix_cons.mp h).1.symm
  unfold escapedBut at h
  split at h
  · rename_i hmem
    exact hplain (fun hc => hdone (hc ▸ hmem)) h
  · by_cases hc : c ∈ specials
    · exact hne (eq_of_prefix_escapeChar c hc special hspecial
        (List.prefix_or_prefix_of_prefix h (List.prefix_append _ _)))
    · rw [escapeChar_of_notMem hc] at h
      exact hplain (fun he => hc (he ▸ by decide)) h

theorem replace_escapedBut (hspecial : special ∈ specials)
    (hmore : escapeChar special = '&' :: more) (hdone : '&' ∉ done) (hnew : special ∉ done)
    (cs : List Char) :
    Text.replace '&' more special (cs.flatMap (escapedBut done)) =
      cs.flatMap (escapedBut (special :: done)) := by
  induction cs with
  | nil => exact Text.replace_nil
  | cons c cs ih =>
      rw [List.flatMap_cons, List.flatMap_cons]
      by_cases hc : c = special
      · subst hc
        rw [escapedBut, if_neg hnew, hmore, Text.replace_pattern, ih, escapedBut,
          if_pos List.mem_cons_self]
        rfl
      · have hblock : escapedBut (special :: done) c = escapedBut done c := by simp [escapedBut, hc]
        have hnot := not_prefix_escapedBut hspecial hc hdone (cs.flatMap (escapedBut done))
        have htail : '&' ∉ (escapedBut done c).tail := by
          unfold escapedBut
          split
          · simp
          · exact ampersand_notMem_tail c
        rw [hmore] at hnot
        rw [Text.replace_append hnot htail, ih, hblock]

/-- The five replacements take the entities off one kind at a time, and the ampersands with the
last of them. -/
theorem unescape_escape (cs : List Char) : unescape (escape cs) = cs := by
  have hstart : escapedBut [] = escapeChar := by
    funext c
    simp [escapedBut]
  have hend : escapedBut ['&', '\'', '"', '>', '<'] = fun c => [c] := by
    funext c
    by_cases hc : c ∈ specials
    · exact (show ∀ c ∈ specials, escapedBut ['&', '\'', '"', '>', '<'] c =
        [c] by simp [specials, escapedBut]) c hc
    · rw [escapedBut, escapeChar_of_notMem hc, ite_self]
  unfold unescape escape
  dsimp only
  rw [← hstart, replace_escapedBut (by decide) rfl (by decide) (by decide),
    replace_escapedBut (by decide) rfl (by decide) (by decide),
      replace_escapedBut (by decide) rfl (by decide) (by decide),
    replace_escapedBut (by decide) rfl (by decide) (by decide),
      replace_escapedBut (by decide) rfl (by decide) (by decide),
    hend, List.flatMap_singleton']

end TableFlow.Xml
