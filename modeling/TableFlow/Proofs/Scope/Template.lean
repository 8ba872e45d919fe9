import TableFlow.Proofs.Text.Names
import TableFlow.Scope.Template

namespace TableFlow

namespace Template

variable {cs w name after : List Char} {n : Char}

theorem hole?_of_not_start (h : Text.isNameStart n = false) : hole? (n :: cs) = none := by
  rw [hole?.eq_def]
  simp [h]

/-- No placeholder holds an opening brace but its own. -/
theorem hole?_append : hole? (cs ++ '\x7b' :: w) = (hole? cs).map fun p =>
    (p.1, p.2 ++ '\x7b' :: w) := by
  cases cs with
  | nil => exact hole?_of_not_start rfl
  | cons n rest =>
      have hbrace : ∀ c ∈ ('\x7b' :: w).head?, Text.isNameChar c = false := by
        simp [Text.isNameChar]
      obtain ⟨htake, hdrop⟩ := Text.nameChars_append rest hbrace
      rw [List.cons_append, hole?.eq_def, hole?.eq_def]
      simp only [htake, hdrop]
      cases Text.isNameStart n with
      | false => simp
      | true =>
          cases rest.dropWhile Text.isNameChar with
          | nil => rfl
          | cons c rest' =>
              by_cases hc : c = '\x7d'
              · subst hc
                rfl
              · simp [hc]

theorem scan_of_some (h : hole? cs = some (name, after)) :
    scan ('\x7b' :: cs) = .hole name :: scan after := by
  rw [scan.eq_def]
  dsimp only
  split
  · rename_i hsome _
    rw [h] at hsome
    cases hsome
    rfl
  · rename_i hshorter hother
    exact (hother name after (fun he => hshorter (h.trans he)) rfl h (proof_irrel_heq _ _)).elim

theorem scan_of_none {c : Char} (h : c = '\x7b' → hole? cs = none) :
    scan (c :: cs) = .char c :: scan cs := by
  rw [scan.eq_def]
  dsimp only
  split
  · rename_i hsome _
    rw [h rfl] at hsome
    cases hsome
  · rfl

theorem scan_nil : scan [] = [] := by rw [scan.eq_def]

theorem scan_induction {motive : List Char → Prop} (nil : motive [])
    (hole : ∀ rest name after, hole? rest = some (name, after) → motive after →
      motive ('\x7b' :: rest))
    (char : ∀ c rest, (c = '\x7b' → hole? rest = none) → motive rest → motive (c :: rest))
    (cs : List Char) :
    motive cs := by
  induction cs using scan.induct with
  | case1 => exact nil
  | case2 rest name after _ hsome ih => exact hole rest name after hsome ih
  | case3 rest c hshorter hother ih =>
      refine char c rest (fun hc => ?_) ih
      rw [Option.eq_none_iff_forall_ne_some]
      rintro ⟨name, after⟩ hsome
      exact hother name after (fun he => hshorter (hsome.trans he)) hc hsome (proof_irrel_heq _ _)

theorem scan_append_brace : scan (cs ++ '\x7b' :: w) = scan cs ++ scan ('\x7b' :: w) := by
  induction cs using scan_induction with
  | nil => rw [scan_nil, List.nil_append, List.nil_append]
  | hole rest name after hsome ih =>
      have hwhole : hole? (rest ++ '\x7b' :: w) = some (name, after ++ '\x7b' :: w) := by
        rw [hole?_append, hsome]
        rfl
      rw [List.cons_append, scan_of_some hwhole, scan_of_some hsome, ih, List.cons_append]
  | char c rest hnone ih =>
      have hwhole : c = '\x7b' → hole? (rest ++ '\x7b' :: w) = none := by
        intro hc
        rw [hole?_append, hnone hc]
        rfl
      rw [List.cons_append, scan_of_none hwhole, scan_of_none hnone, ih, List.cons_append]

theorem scan_chars (w : List Char) (h : '\x7b' ∉ cs) : scan (cs ++ w) = cs.map .char ++ scan w := by
  induction cs with
  | nil => rfl
  | cons c cs ih =>
      rw [List.mem_cons, not_or] at h
      rw [List.cons_append, scan_of_none fun he => absurd he.symm h.1, ih h.2]
      rfl

theorem hole?_name (hn : Text.isNameStart n = true) (hname : ∀ c ∈ name, Text.isNameChar c = true) :
    hole? (n :: name ++ '\x7d' :: after) = some (n :: name, after) := by
  have hbrace : ∀ c ∈ ('\x7d' :: after).head?, Text.isNameChar c = false := by
    simp [Text.isNameChar]
  obtain ⟨htake, hdrop⟩ := Text.nameChars_name hname hbrace
  rw [List.cons_append, hole?.eq_def]
  simp only [hn, htake, hdrop]

theorem scan_hole (hn : Text.isNameStart n = true) (hname : ∀ c ∈ name, Text.isNameChar c = true) :
    scan (cs ++ '\x7b' :: (n :: name ++ '\x7d' :: after)) =
      scan cs ++ .hole (n :: name) :: scan after := by
  rw [scan_append_brace, scan_of_some (hole?_name hn hname)]

/-- What looks like a placeholder, but has a name that begins with a digit, is text. -/
theorem scan_not_hole (hn : Text.isNameStart n = false)
    (hname : ∀ c ∈ n :: name, Text.isNameChar c = true) :
    scan (cs ++ '\x7b' :: (n :: name ++ '\x7d' :: after)) =
      scan cs ++ ('\x7b' :: n :: name ++ ['\x7d']).map .char ++ scan after := by
  have hbrace : '\x7b' ∉ n :: name ++ ['\x7d'] := by
    rw [List.mem_append, not_or]
    refine ⟨fun hmem => ?_, by simp⟩
    have hchar := hname _ hmem
    simp [Text.isNameChar] at hchar
  have hnone : hole? (n :: name ++ '\x7d' :: after) = none := hole?_of_not_start hn
  have hrest := scan_chars after hbrace
  rw [List.append_assoc, List.singleton_append] at hrest
  rw [scan_append_brace, scan_of_none fun _ => hnone, hrest]
  simp

def placeholder (name : String) : String := "\x7b" ++ name ++ "\x7d"

theorem toList_placeholder (name : String) : (placeholder name).toList =
    '\x7b' :: (name.toList ++ ['\x7d']) := by
  simp [placeholder]

end Template

namespace Scope

open Template

variable {s : Scope} {before after name : String} {n : Char} {rest : List Char} {value : Value}

theorem join_fill_chars (s : Scope) (cs : List Char) :
    String.join ((cs.map Item.char).map (Item.fill s)) = String.ofList cs := by
  apply String.toList_injective
  rw [String.toList_join, String.toList_ofList, List.map_map, List.flatMap_map]
  simp [Item.fill]

theorem interpolate_placeholder (hname : name.toList = n :: rest) (hn : Text.isNameStart n = true)
    (hrest : ∀ c ∈ rest, Text.isNameChar c = true) (hvalue : s.get? name = some value) :
    s.interpolate (before ++ placeholder name ++ after) = s.interpolate before ++ value.render ++
      s.interpolate after := by
  have htext : (before ++ placeholder name ++ after).toList =
      before.toList ++ '\x7b' :: (n :: rest ++ '\x7d' :: after.toList) := by
    simp [toList_placeholder, hname]
  have hfill : Item.fill s (.hole (n :: rest)) = value.render := by
    rw [Item.fill, ← hname, String.ofList_toList, hvalue]
  rw [interpolate, htext, scan_hole hn hrest, List.map_append, List.map_cons, String.join_append,
    String.join_cons, hfill, String.append_assoc]
  rfl

theorem interpolate_not_placeholder (hname : name.toList = n :: rest)
    (hn : Text.isNameStart n = false) (hall : ∀ c ∈ name.toList, Text.isNameChar c = true) :
    s.interpolate (before ++ placeholder name ++ after) =
      s.interpolate before ++ placeholder name ++ s.interpolate after := by
  have htext : (before ++ placeholder name ++ after).toList =
      before.toList ++ '\x7b' :: (n :: rest ++ '\x7d' :: after.toList) := by
    simp [toList_placeholder, hname]
  have hplain : String.ofList ('\x7b' :: n :: rest ++ ['\x7d']) = placeholder name := by
    rw [← String.ofList_toList (s := placeholder name), toList_placeholder, hname]
    rfl
  rw [hname] at hall
  rw [interpolate, htext, scan_not_hole hn hall, List.map_append, List.map_append,
    String.join_append, String.join_append,
    join_fill_chars, hplain]
  rfl

end Scope
end TableFlow
