import TableFlow.Proofs.Script.Pieces
import TableFlow.Proofs.Text.Trim

namespace TableFlow.SqlPiece

def codeUnits (t : List Char) : List SqlPiece := t.map fun c => .code [c]

def units : SqlPiece → List SqlPiece
  | code t => codeUnits t
  | literal t => [.literal t]
  | comment t => [.comment t]

def unitsOf (cs : List Char) : List SqlPiece := (ofQuery cs).flatMap units

def semicolon : SqlPiece := .code [';']

def hasContent : SqlPiece → Bool
  | code t => !t.all Text.isBlank
  | literal _ => true
  | comment _ => false

/-- The texts between semicolons, without those of blanks and comments alone. -/
def statementsIn (us : List SqlPiece) : List (List Char) :=
  ((us.splitOn semicolon).filter (·.any hasContent)).map (·.flatMap text)

def statements (cs : List Char) : List (List Char) := statementsIn (unitsOf cs)

def closes : SqlPiece → Bool
  | code _ => true
  | literal t => t.count '\'' % 2 == 0
  | comment _ => false

/-- Whether a text ends in code or with the last quote of a literal. -/
def isClosed (cs : List Char) : Bool := (ofQuery cs).getLast?.all closes

variable {p : SqlPiece} {front us : List SqlPiece} {c : Char} {cs t rest run : List Char}

theorem flatMap_text_codeUnits (t : List Char) : (codeUnits t).flatMap text = t := by
  simp [codeUnits, text, List.flatMap_map]

theorem flatMap_text_units (p : SqlPiece) : p.units.flatMap text = p.text := by
  cases p with
  | code t => exact flatMap_text_codeUnits t
  | literal | comment => simp [units]

theorem flatMap_text_unitsOf (cs : List Char) : (unitsOf cs).flatMap text = cs := by
  rw [unitsOf, List.flatMap_assoc]
  simp only [flatMap_text_units]
  exact flatMap_text_ofQuery cs

theorem semicolon_notMem (h : ';' ∉ us.flatMap text) : semicolon ∉ us := fun hmem =>
  h (List.mem_flatMap.mpr ⟨semicolon, hmem, List.mem_singleton_self _⟩)

theorem semicolon_notMem_unitsOf (h : ';' ∉ cs) : semicolon ∉ unitsOf cs :=
  semicolon_notMem (by rwa [flatMap_text_unitsOf])

theorem semicolon_notMem_append (ht : ';' ∉ t) (hus : semicolon ∉ us) :
    semicolon ∉ codeUnits t ++ us := by
  rw [List.mem_append, not_or]
  exact ⟨semicolon_notMem (by rwa [flatMap_text_codeUnits]), hus⟩

theorem unitsOf_nil : unitsOf [] = [] := by
  rw [unitsOf, ofQuery]
  rfl

theorem unitsOf_spanCode (cs : List Char) :
    unitsOf cs = codeUnits (spanCode cs).1 ++ unitsOf (spanCode cs).2 := by
  cases cs with
  | nil => rfl
  | cons c cs =>
      rw [spanCode]
      split
      · rfl
      · rename_i hstays
        rw [unitsOf, ofQuery_of_stays (by simpa using hstays)]
        rfl

theorem unitsOf_cons (h : leavesCode (c :: cs) = false) :
    unitsOf (c :: cs) = .code [c] :: unitsOf cs := by
  rw [unitsOf, ofQuery_of_stays h, unitsOf_spanCode cs]
  rfl

theorem unitsOf_plain_append (h : Plain t rest) :
    unitsOf (t ++ rest) = codeUnits t ++ unitsOf rest := by
  induction t with
  | nil => rfl
  | cons c t ih =>
      obtain ⟨hstays, ht⟩ := plain_cons.mp h
      rw [List.cons_append, unitsOf_cons hstays, ih ht]
      rfl

theorem unitsOf_of_ends (h : p.Ends rest) : unitsOf (p.text ++ rest) = p.units ++ unitsOf rest := by
  cases hcode : p.isCode with
  | false =>
      rw [unitsOf, ofQuery_of_ends h hcode]
      rfl
  | true =>
      cases h with
      | code hne hplain => exact unitsOf_plain_append hplain
      | terminated | unterminated | comment => cases hcode

/-- What comes after a text can change its last piece alone. -/
theorem unitsOf_divided_append (h : Divided (front ++ [p])) (rest : List Char) :
    unitsOf ((front ++ [p]).flatMap text ++ rest) =
      front.flatMap units ++ unitsOf (p.text ++ rest) := by
  induction front with
  | nil => simp
  | cons q front ih =>
      rw [List.cons_append] at h ⊢
      cases h with
      | cons hq _ hrest =>
          have hne : (front ++ [p]).flatMap text ≠ [] := by
            have hp := hrest.ends.text_ne_nil
            simp [hp]
          have hhead : ((front ++ [p]).flatMap text ++ rest).head? =
              ((front ++ [p]).flatMap text).head? :=
            List.head?_append_of_ne_nil _ hne
          have hends := hq.congr_head hhead
          rw [List.flatMap_cons, List.append_assoc, unitsOf_of_ends hends, ih hrest]
          simp

theorem exists_last_piece (h : cs ≠ []) :
    ∃ front p, ofQuery cs = front ++ [p] ∧ Divided (front ++ [p]) ∧ p.Ends [] ∧
      (front ++ [p]).flatMap text = cs := by
  have hne : ofQuery cs ≠ [] := fun hnil => h (by rw [← flatMap_text_ofQuery cs, hnil]; rfl)
  have hlast := List.dropLast_append_getLast hne
  have hdivided := divided_ofQuery cs
  have htext := flatMap_text_ofQuery cs
  rw [← hlast] at hdivided htext
  exact ⟨_, _, hlast.symm, hdivided, hdivided.ends, htext⟩

theorem Paired.even_count (h : Paired t) : t.count '\'' % 2 = 0 := by
  induction h with
  | nil => rfl
  | char hc _ ih => rwa [List.count_cons_of_ne hc]
  | quotes _ ih =>
      rw [List.count_cons_self, List.count_cons_self, Nat.add_assoc, Nat.add_mod_right, ih]

/-- What is still open at the end of a text is a comment or a literal. -/
theorem exists_open_piece (h : isClosed cs = false) :
    ∃ front p, Divided (front ++ [p]) ∧ (front ++ [p]).flatMap text = cs ∧
    ((∃ body, Paired body ∧ p = .literal ('\'' :: body)) ∨ ∃ body, '\n' ∉ body ∧
      p = .comment ('-' :: '-' :: body)) := by
  have hne : cs ≠ [] := by
    rintro rfl
    rw [isClosed, ofQuery] at h
    cases h
  obtain ⟨front, p, hpieces, hdivided, hends, hcs⟩ := exists_last_piece hne
  have hopen : p.closes = false := by simpa [isClosed, hpieces] using h
  refine ⟨front, p, hdivided, hcs, ?_⟩
  generalize hrest : ([] : List Char) = rest at hends
  cases hends with
  | code => cases hopen
  | unterminated hbody => exact .inl ⟨_, hbody, rfl⟩
  | comment hbody => exact .inr ⟨_, hbody, rfl⟩
  | @terminated body _ hbody =>
      have heven := hbody.even_count
      simp [closes, List.count_append, Nat.add_assoc, Nat.add_mod_right, heven] at hopen

theorem Ends.of_closes (h : p.Ends []) (hcloses : p.closes = true) (hquote : rest.head? ≠ some '\'')
    (hhyphen : rest.head? ≠ some '-') : p.Ends rest := by
  generalize hnil : ([] : List Char) = back at h
  cases h with
  | code hne hplain => exact .code hne ⟨hplain.noQuote, hplain.noHyphens, fun _ => hhyphen⟩
  | terminated hbody => exact .terminated hbody hquote
  | comment => cases hcloses
  | unterminated hbody =>
      have heven := hbody.even_count
      simp [closes, Nat.add_mod, heven] at hcloses

theorem unitsOf_closed_append (h : isClosed cs = true) (hquote : rest.head? ≠ some '\'')
    (hhyphen : rest.head? ≠ some '-') :
    unitsOf (cs ++ rest) = unitsOf cs ++ unitsOf rest := by
  by_cases hne : cs = []
  · rw [hne, unitsOf_nil]
    rfl
  · obtain ⟨front, p, hpieces, hdivided, hends, hcs⟩ := exists_last_piece hne
    have hcloses : p.closes = true := by simpa [isClosed, hpieces] using h
    have happend := unitsOf_divided_append hdivided rest
    rw [hcs, unitsOf_of_ends (hends.of_closes hcloses hquote hhyphen)] at happend
    rw [happend, unitsOf, unitsOf, hpieces]
    simp

theorem hasContent_of_closed (h : isClosed cs = true)
    (hlast : cs.getLast?.all Text.isBlank = false) :
    (unitsOf cs).any hasContent = true := by
  have hne : cs ≠ [] := by
    rintro rfl
    cases hlast
  obtain ⟨front, p, hpieces, _, hends, hcs⟩ := exists_last_piece hne
  have hcloses : p.closes = true := by simpa [isClosed, hpieces] using h
  rw [unitsOf, hpieces, List.flatMap_append, List.any_append, Bool.or_eq_true]
  right
  cases p with
  | comment => cases hcloses
  | literal t => rfl
  | code t =>
      have htext : t ≠ [] := hends.text_ne_nil
      rw [← hcs, List.flatMap_append, List.flatMap_singleton, text,
        List.getLast?_append_of_ne_nil _ htext,
        List.getLast?_eq_some_getLast htext] at hlast
      rw [List.any_eq_true]
      exact ⟨.code [t.getLast htext], by simp [units, codeUnits], by simpa [hasContent] using hlast⟩

theorem statementsIn_of_notMem (h : semicolon ∉ us) :
    statementsIn us = if us.any hasContent then [us.flatMap text] else [] := by
  rw [statementsIn, List.splitOn_eq_singleton h]
  by_cases hcontent : us.any hasContent = true <;> simp [hcontent]

theorem statementsIn_append (us back : List SqlPiece) :
    statementsIn (us ++ semicolon :: back) = statementsIn us ++ statementsIn back := by
  rw [statementsIn, List.splitOn_append_cons_self, List.filter_append, List.map_append]
  rfl

theorem statementsIn_append_run (h : semicolon ∉ us)
    (hrun : ∀ c ∈ run, Text.isBlank c = true ∨ c = ';') :
    statementsIn (us ++ codeUnits run) =
      if us.any hasContent then [us.flatMap text ++ run.takeWhile (· != ';')] else [] := by
  induction run generalizing us with
  | nil => simpa [codeUnits] using statementsIn_of_notMem h
  | cons c run ih =>
      obtain ⟨hc, hrest⟩ := List.forall_mem_cons.mp hrun
      rw [codeUnits, List.map_cons, ← codeUnits]
      by_cases hsemicolon : c = ';'
      · subst hsemicolon
        have hnothing : semicolon ∉ ([] : List SqlPiece) := List.not_mem_nil
        have hnone := ih hnothing hrest
        rw [List.nil_append] at hnone
        have happend := statementsIn_append us (codeUnits run)
        rw [hnone, statementsIn_of_notMem h] at happend
        simpa [semicolon] using happend
      · have hblank : Text.isBlank c = true := hc.resolve_right hsemicolon
        have hnext : semicolon ∉ us ++ [.code [c]] := by
          rw [List.mem_append, not_or]
          exact ⟨h, by simpa [semicolon] using Ne.symm hsemicolon⟩
        have hstep := ih hnext hrest
        rw [List.append_assoc, List.singleton_append] at hstep
        rw [hstep]
        simp [hasContent, hblank, text, hsemicolon]

theorem statementsIn_of_content (h : semicolon ∉ us) (hcontent : us.any hasContent = true) :
    statementsIn us = [us.flatMap text] := by rw [statementsIn_of_notMem h, if_pos hcontent]

theorem length_statementsIn_append_run (h : semicolon ∉ us)
    (hrun : ∀ c ∈ run, Text.isBlank c = true ∨ c = ';') :
    (statementsIn (us ++ codeUnits run)).length ≤ 1 := by
  rw [statementsIn_append_run h hrun]
  split <;> simp

theorem plain_of_notMem (hquote : '\'' ∉ t) (hhyphen : '-' ∉ t) (rest : List Char) : Plain t rest :=
  ⟨hquote, fun hin => hhyphen (hin.subset List.mem_cons_self), fun hlast =>
    absurd (List.mem_of_getLast? hlast) hhyphen⟩

theorem notMem_run (hrun : ∀ c ∈ run, Text.isBlank c = true ∨ c = ';')
    (hblank : Text.isBlank c = false) (hc : c ≠ ';') :
    c ∉ run := fun hmem => by
  obtain hgap | hsemicolon := hrun c hmem
  · rw [hblank] at hgap
    cases hgap
  · exact hc hsemicolon

theorem plain_of_run (hrun : ∀ c ∈ run, Text.isBlank c = true ∨ c = ';') (rest : List Char) :
    Plain run rest :=
  plain_of_notMem (notMem_run hrun rfl (by decide)) (notMem_run hrun rfl (by decide)) rest

theorem unitsOf_run (hrun : ∀ c ∈ run, Text.isBlank c = true ∨ c = ';') :
    unitsOf run = codeUnits run := by
  have hunits := unitsOf_plain_append (plain_of_run hrun [])
  rwa [List.append_nil, unitsOf_nil, List.append_nil] at hunits

/-- What comes after an open text goes on with its last piece, at least a semicolon does. -/
theorem exists_unitsOf_open_append (h : isClosed cs = false) (hcs : ';' ∉ cs) (after : List Char) :
    ∃ us absorbed rest, after = absorbed ++ rest ∧ (after.head? = some ';' → absorbed ≠ []) ∧
      semicolon ∉ us ∧
      unitsOf (cs ++ after) = us ++ unitsOf rest := by
  obtain ⟨front, p, hdivided, rfl, hpiece⟩ := exists_open_piece h
  have hfront : semicolon ∉ front.flatMap units := by
    refine semicolon_notMem fun hmem => hcs ?_
    rw [List.flatMap_assoc] at hmem
    simp only [flatMap_text_units] at hmem
    simp [hmem]
  rw [unitsOf_divided_append hdivided]
  obtain ⟨body, hbody, rfl⟩ | ⟨body, hbody, rfl⟩ := hpiece
  · refine ⟨front.flatMap units ++ [.literal ('\'' :: (body ++ (spanLiteral after).1))],
      (spanLiteral after).1, (spanLiteral after).2, (spanLiteral_append after).symm, ?_, ?_, ?_⟩
    · intro hhead
      obtain ⟨rest, rfl⟩ := List.head?_eq_some_iff.mp hhead
      rw [spanLiteral.eq_def]
      simp
    · rw [List.mem_append, not_or]
      exact ⟨hfront, by simp [semicolon]⟩
    · rw [text, List.cons_append, unitsOf, ofQuery_quote, spanLiteral_paired_append hbody]
      simp [units, unitsOf]
  · have hall : ∀ c ∈ body, (c != '\n') = true := fun c hc => by
      simpa using fun he : c = '\n' => hbody (he ▸ hc)
    refine ⟨front.flatMap units ++ [.comment ('-' :: '-' :: (body ++ after.takeWhile (· != '\n')))],
      after.takeWhile (· != '\n'), after.dropWhile (· != '\n'),
        List.takeWhile_append_dropWhile.symm, ?_, ?_, ?_⟩
    · intro hhead
      obtain ⟨rest, rfl⟩ := List.head?_eq_some_iff.mp hhead
      simp
    · rw [List.mem_append, not_or]
      exact ⟨hfront, by simp [semicolon]⟩
    · rw [text, List.cons_append, List.cons_append, unitsOf, ofQuery_hyphens,
        List.takeWhile_append_of_pos hall,
        List.dropWhile_append_of_pos hall]
      simp [units, unitsOf]

end TableFlow.SqlPiece
