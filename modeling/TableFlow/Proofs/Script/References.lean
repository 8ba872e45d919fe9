import TableFlow.Proofs.Text.Names
import TableFlow.Script.Reference

namespace TableFlow.Reference

variable {before : Option Char} {b : Char} {cs w name after : List Char}
  {endpoint : Option Endpoint}

def opening : Option Endpoint → List Char
  | none => ['c', 's', 'v', '.']
  | some .src => ['s', 'r', 'c', '.']
  | some .dst => ['d', 's', 't', '.']

theorem qualifier?_eq_some_iff {rest : List Char} : qualifier? cs = some (endpoint, rest) ↔
    cs = opening endpoint ++ rest := by
  constructor
  · intro h
    unfold qualifier? at h
    split at h <;> cases h
    all_goals rfl
  · rintro rfl
    rcases endpoint with _ | _ | _ <;> rfl

theorem isNameChar_or_dot {c : Char} (h : c ∈ opening endpoint) :
    Text.isNameChar c = true ∨ c = '.' := by
  have hall : (opening endpoint).all (fun c => Text.isNameChar c || c == '.') = true := by
    rcases endpoint with _ | _ | _ <;> rfl
  have hc := List.all_eq_true.mp hall c h
  simpa using hc

theorem qualifier?_append (hb : Text.isNameChar b = false) (hdot : b ≠ '.') :
    qualifier? (cs ++ b :: w) = (qualifier? cs).map fun p => (p.1, p.2 ++ b :: w) := by
  cases hq : qualifier? cs with
  | some p =>
      obtain ⟨endpoint, rest⟩ := p
      rw [qualifier?_eq_some_iff.mp hq, List.append_assoc]
      exact qualifier?_eq_some_iff.mpr rfl
  | none =>
      have hnone (endpoint : Option Endpoint) (rest : List Char) : cs ≠ opening endpoint ++ rest :=
        fun hcs => by
        rw [qualifier?_eq_some_iff.mpr hcs] at hq
        cases hq
      rw [Option.map_none, Option.eq_none_iff_forall_ne_some]
      rintro ⟨endpoint, rest⟩ hsome
      obtain ⟨more, hopening, hmore⟩ | ⟨more, hcs, _⟩ :=
        List.append_eq_append_iff.mp (qualifier?_eq_some_iff.mp hsome)
      · cases more with
        | nil => exact hnone endpoint [] (by simp [hopening])
        | cons c more =>
            obtain ⟨rfl, _⟩ := List.cons.inj hmore
            have hc : b ∈ opening endpoint := by simp [hopening]
            rcases isNameChar_or_dot hc with hname | hname
            · rw [hname] at hb
              cases hb
            · exact hdot hname
      · exact hnone endpoint more hcs

theorem at?_append (hb : Text.isNameChar b = false) (hdot : b ≠ '.') :
    at? before (cs ++ b :: w) = (at? before cs).map fun p => (p.1, p.2 ++ b :: w) := by
  have hstart : Text.isNameStart b = false := by
    cases hs : Text.isNameStart b with
    | false => rfl
    | true => rw [Text.isNameChar_of_isNameStart hs] at hb; cases hb
  rw [at?.eq_def, at?.eq_def, qualifier?_append hb hdot]
  rcases qualifier? cs with _ | ⟨endpoint, _ | ⟨n, rest⟩⟩
  · rfl
  · simp [hstart]
  · have hstop : ∀ c ∈ (b :: w).head?, Text.isNameChar c = false := by simpa using hb
    obtain ⟨htake, hdrop⟩ := Text.nameChars_append rest hstop
    simp only [Option.map_some, List.cons_append, htake, hdrop]
    split <;> rfl

theorem scan_of_none {c : Char} (h : at? before (c :: cs) = none) :
    scan before (c :: cs) = .char c :: scan (some c) cs := by
  rw [scan]
  split
  · rename_i hsome
    rw [h] at hsome
    cases hsome
  · rfl

theorem scan_of_some {r : Reference} (h : at? before cs = some (r, after)) :
    scan before cs = .reference r :: scan r.name.getLast? after := by
  cases cs with
  | nil => cases h
  | cons c cs =>
      rw [scan]
      split
      · rename_i hsome
        rw [h] at hsome
        cases hsome
        rfl
      · rename_i hnone
        rw [h] at hnone
        cases hnone

/-- What comes before such a character is scanned as if nothing came after it. -/
theorem scan_append (hb : Text.isNameChar b = false) (hdot : b ≠ '.') :
    scan before (cs ++ b :: w) = scan before cs ++ .char b :: scan (some b) w := by
  fun_induction scan before cs with
  | case1 before =>
      apply scan_of_none
      rw [← List.nil_append (b :: w), at?_append hb hdot]
      rfl
  | case2 before c rest r after hat ih =>
      have hat' : at? before (c :: rest ++ b :: w) = some (r, after ++ b :: w) := by
        rw [at?_append hb hdot, hat]
        rfl
      rw [scan_of_some hat', ih, List.cons_append]
  | case3 before c rest hat ih =>
      have hat' : at? before (c :: (rest ++ b :: w)) = none := by
        rw [← List.cons_append, at?_append hb hdot, hat]
        rfl
      rw [List.cons_append, scan_of_none hat', ih, List.cons_append]

theorem at?_qualified (endpoint : Option Endpoint) {n : Char}
    (hbefore : Text.startsWord before = true) (hn : Text.isNameStart n = true)
    (hname : ∀ c ∈ name, Text.isNameChar c = true)
    (hafter : ∀ c ∈ after.head?, Text.isNameChar c = false) :
    at? before (opening endpoint ++ (n :: name ++ after)) =
      some (⟨endpoint, n :: name⟩, after) := by
  obtain ⟨htake, hdrop⟩ := Text.nameChars_name hname hafter
  rw [at?, qualifier?_eq_some_iff.mpr rfl]
  simp [hn, hbefore, htake, hdrop]

/-- A qualified name after a character that is no part of a word is a reference. -/
theorem scan_qualified (endpoint : Option Endpoint) {n : Char}
    (hbefore : Text.startsWord before = true) (hn : Text.isNameStart n = true)
    (hname : ∀ c ∈ name, Text.isNameChar c = true)
    (hafter : ∀ c ∈ after.head?, Text.isNameChar c = false) :
    scan before (opening endpoint ++ (n :: name ++ after)) =
      .reference ⟨endpoint, n :: name⟩ :: scan (n :: name).getLast? after :=
  scan_of_some (at?_qualified endpoint hbefore hn hname hafter)

theorem isNameStart_of_at? {r : Reference} (h : at? before cs = some (r, after)) :
    ∀ c ∈ r.name.head?, Text.isNameStart c = true := by
  unfold at? at h
  split at h
  · split at h
    · rename_i hstart
      rw [Bool.and_eq_true] at hstart
      obtain ⟨rfl, -⟩ := Prod.mk.inj (Option.some.inj h)
      intro c hc
      rw [List.head?_cons, Option.mem_some_iff] at hc
      rw [← hc]
      exact hstart.1
    · cases h
  · cases h

theorem exists_at?_of_mem_scan {r : Reference} (h : .reference r ∈ scan before cs) :
    ∃ before cs after, at? before cs = some (r, after) := by
  fun_induction scan before cs with
  | case1 => cases h
  | case2 before c rest r' after hat ih =>
      rcases List.mem_cons.mp h with he | hm
      · cases he
        exact ⟨_, _, _, hat⟩
      · exact ih hm
  | case3 before c rest _ ih =>
      rcases List.mem_cons.mp h with he | hm
      · cases he
      · exact ih hm

end TableFlow.Reference

namespace TableFlow.SqlPiece

theorem exists_at?_of_mem_references {p : SqlPiece} {r : Reference} (h : r ∈ p.references) :
    ∃ before cs after, Reference.at? before cs = some (r, after) := by
  obtain ⟨item, hitem, hr⟩ := List.mem_filterMap.mp h
  cases item with
  | char c => cases hr
  | reference r' =>
      cases hr
      cases p with
      | code t => exact Reference.exists_at?_of_mem_scan hitem
      | literal t | comment t => simp [items] at hitem

end TableFlow.SqlPiece
