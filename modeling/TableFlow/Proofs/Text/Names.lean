import TableFlow.Text.Blank
import TableFlow.Text.Word

namespace TableFlow.Text

def IsIdentifier (name : List Char) : Prop :=
  ∃ n rest, name = n :: rest ∧ isNameStart n = true ∧ ∀ c ∈ rest, isNameChar c = true

variable {c : Char}

theorem isWord_of_isBlank (h : isBlank c = true) : isWord c = false := by
  have hblanks : ∀ n ∈ [9, 10, 11, 12, 13, 0x20, 0x85, 0xA0, 0x1680, 0x2000, 0x2001, 0x2002, 0x2003,
      0x2004, 0x2005, 0x2006,
      0x2007, 0x2008, 0x2009, 0x200A, 0x2028, 0x2029, 0x202F, 0x205F, 0x3000],
        isWord (Char.ofNat n) = false := by decide +kernel
  rw [← Char.ofNat_toNat c]
  apply hblanks
  simp only [isBlank, Bool.or_eq_true, Bool.and_eq_true, decide_eq_true_eq, beq_iff_eq] at h
  simp only [List.mem_cons, List.not_mem_nil, or_false]
  omega

theorem isNameChar_of_isBlank (h : isBlank c = true) : isNameChar c = false := by
  have hword := isWord_of_isBlank h
  cases hname : isNameChar c with
  | false => rfl
  | true => rw [isWord_of_isNameChar hname] at hword; cases hword

theorem not_isNameStart_of_isDigit (h : c.isDigit = true) : isNameStart c = false := by
  have hdigits : ∀ n ∈ [48, 49, 50, 51, 52, 53, 54, 55, 56, 57], isNameStart (Char.ofNat n) =
      false := by decide
  rw [← Char.ofNat_toNat c]
  apply hdigits
  have hcode : c.toNat = c.val.toNat := rfl
  have hzero : '0'.val.toNat = 48 := rfl
  have hnine : '9'.val.toNat = 57 := rfl
  simp only [Char.isDigit, Bool.and_eq_true, decide_eq_true_eq, ge_iff_le,
    UInt32.le_iff_toNat_le] at h
  simp only [List.mem_cons, List.not_mem_nil, or_false]
  omega

theorem isNameStart_or_isDigit (h : isNameChar c = true) :
    isNameStart c = true ∨ c.isDigit = true := by
  simp only [isNameChar, isNameStart, Char.isAlphanum, Bool.or_eq_true] at h ⊢
  exact or_right_comm.mp h

variable {name after : List Char}

theorem IsIdentifier.isNameChar (h : IsIdentifier name) : ∀ c ∈ name, isNameChar c = true := by
  obtain ⟨n, rest, rfl, hn, hrest⟩ := h
  exact List.forall_mem_cons.mpr ⟨isNameChar_of_isNameStart hn, hrest⟩

/-- A name goes on up to a character that it cannot hold, whatever comes after that. -/
theorem nameChars_append (cs : List Char) (hafter : ∀ c ∈ after.head?, isNameChar c = false) :
    (cs ++ after).takeWhile isNameChar = cs.takeWhile isNameChar ∧
      (cs ++ after).dropWhile isNameChar = cs.dropWhile isNameChar ++ after := by
  induction cs with
  | nil =>
      cases after with
      | nil => exact ⟨rfl, rfl⟩
      | cons c after => simp [hafter c rfl]
  | cons c cs ih =>
      by_cases hc : isNameChar c = true
      · simp [hc, ih]
      · simp [hc]

theorem nameChars_name (hname : ∀ c ∈ name, isNameChar c = true)
    (hafter : ∀ c ∈ after.head?, isNameChar c = false) :
    (name ++ after).takeWhile isNameChar = name ∧ (name ++ after).dropWhile isNameChar = after := by
  obtain ⟨htake, hdrop⟩ := nameChars_append [] hafter
  rw [List.nil_append] at htake hdrop
  rw [List.takeWhile_append_of_pos hname, List.dropWhile_append_of_pos hname, htake, hdrop]
  exact ⟨List.append_nil name, rfl⟩

end TableFlow.Text
