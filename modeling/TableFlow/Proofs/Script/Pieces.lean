import TableFlow.Script.Reference

namespace TableFlow.SqlPiece

def isCode : SqlPiece → Bool
  | .code _ => true
  | .literal _ | .comment _ => false

inductive Paired : List Char → Prop
  | nil : Paired []
  | char {c cs} : c ≠ '\'' → Paired cs → Paired (c :: cs)
  | quotes {cs} : Paired cs → Paired ('\'' :: '\'' :: cs)

/-- Text in which neither a literal nor a comment begins, given what follows it. -/
structure Plain (t rest : List Char) : Prop where
  noQuote : '\'' ∉ t
  noHyphens : ¬ ['-', '-'] <:+: t
  edge : t.getLast? = some '-' → rest.head? ≠ some '-'

/-- What a piece is, given what follows it in the query. -/
inductive Ends : SqlPiece → List Char → Prop
  | code {t rest} : t ≠ [] → Plain t rest → Ends (.code t) rest
  | terminated {body rest} : Paired body → rest.head? ≠ some '\'' →
      Ends (.literal ('\'' :: (body ++ ['\'']))) rest
  | unterminated {body} : Paired body → Ends (.literal ('\'' :: body)) []
  | comment {body rest} : '\n' ∉ body → (rest = [] ∨ rest.head? = some '\n') →
      Ends (.comment ('-' :: '-' :: body)) rest

/-- Pieces of which each ends where the next one begins, and no two neighbours are code. -/
inductive Divided : List SqlPiece → Prop
  | nil : Divided []
  | cons {p back} : p.Ends (back.flatMap text) →
      (p.isCode = true → ∀ next ∈ back.head?, next.isCode = false) →
      Divided back → Divided (p :: back)

variable {p p' : SqlPiece} {front back pieces : List SqlPiece} {cs t t' rest body : List Char}

theorem leavesCode_eq_false_iff (c : Char) (cs : List Char) :
    leavesCode (c :: cs) = false ↔ c ≠ '\'' ∧ (c = '-' → cs.head? ≠ some '-') := by
  rw [leavesCode.eq_def]
  split
  · simp_all
  · simp_all
  · cases cs <;> simp_all

theorem hyphens_prefix_iff (c : Char) (cs : List Char) : ['-', '-'] <+:
    c :: cs ↔ c = '-' ∧ cs.head? = some '-' := by
  cases cs <;> simp [List.cons_prefix_cons, eq_comm]

theorem plain_nil (rest : List Char) : Plain [] rest := ⟨by simp, by simp, nofun⟩

theorem plain_cons {c : Char} : Plain (c :: t) rest ↔ leavesCode (c :: (t ++ rest)) = false ∧
    Plain t rest := by
  rw [leavesCode_eq_false_iff]
  constructor
  · rintro ⟨hquote, hhyphens, hedge⟩
    rw [List.mem_cons, not_or] at hquote
    rw [List.infix_cons_iff, not_or, hyphens_prefix_iff] at hhyphens
    refine ⟨⟨Ne.symm hquote.1, fun hc hhead => ?_⟩, hquote.2, hhyphens.2, fun hlast => ?_⟩
    · cases t with
      | nil => exact hedge (by rw [hc]; rfl) hhead
      | cons d t => exact hhyphens.1 ⟨hc, hhead⟩
    · cases t with
      | nil => cases hlast
      | cons d t => exact hedge hlast
  · rintro ⟨⟨hc, hnext⟩, hquote, hhyphens, hedge⟩
    refine ⟨?_, ?_, fun hlast => ?_⟩
    · rw [List.mem_cons, not_or]
      exact ⟨Ne.symm hc, hquote⟩
    · rw [List.infix_cons_iff, not_or, hyphens_prefix_iff]
      refine ⟨fun hh => hnext hh.1 ?_, hhyphens⟩
      rw [List.head?_append, hh.2]
      rfl
    · cases t with
      | nil => exact hnext (Option.some.inj hlast)
      | cons d t => exact hedge hlast

theorem plain_spanCode (cs : List Char) :
    Plain (spanCode cs).1 (spanCode cs).2 ∧
      ((spanCode cs).2 = [] ∨ leavesCode (spanCode cs).2 = true) := by
  induction cs with
  | nil => exact ⟨plain_nil _, .inl rfl⟩
  | cons c cs ih =>
      rw [spanCode]
      split
      · rename_i hleaves
        exact ⟨plain_nil _, .inr hleaves⟩
      · rename_i hstays
        refine ⟨plain_cons.mpr ⟨?_, ih.1⟩, ih.2⟩
        rw [spanCode_append]
        simpa using hstays

theorem spanCode_of_plain (h : Plain t rest) (hrest : rest = [] ∨ leavesCode rest = true) :
    spanCode (t ++ rest) = (t, rest) := by
  induction t with
  | nil =>
      obtain rfl | hleaves := hrest
      · rfl
      · cases rest with
        | nil => rfl
        | cons c rest => rw [List.nil_append, spanCode, if_pos hleaves]
  | cons c t ih =>
      obtain ⟨hstays, ht⟩ := plain_cons.mp h
      rw [List.cons_append, spanCode, if_neg (by simp [hstays]), ih ht]

theorem Ends.text_ne_nil (h : p.Ends rest) : p.text ≠ [] := by
  cases h with
  | code hne => exact hne
  | terminated | unterminated | comment => exact List.cons_ne_nil _ _

theorem Paired.append (h : Paired t) (hbody : Paired body) : Paired (t ++ body) := by
  induction h with
  | nil => exact hbody
  | char hc _ ih => exact .char hc ih
  | quotes _ ih => exact .quotes ih

theorem paired_of_notMem (h : '\'' ∉ t) : Paired t := by
  induction t with
  | nil => exact .nil
  | cons c t ih =>
      rw [List.mem_cons, not_or] at h
      exact .char (Ne.symm h.1) (ih h.2)

theorem paired_spanLiteral (cs : List Char) :
    (∃ body, Paired body ∧ (spanLiteral cs).1 = body ++ ['\''] ∧
      (spanLiteral cs).2.head? ≠ some '\'') ∨
      Paired (spanLiteral cs).1 ∧ (spanLiteral cs).2 = [] := by
  fun_induction spanLiteral cs with
  | case1 => exact .inr ⟨.nil, rfl⟩
  | case2 rest p ih =>
      obtain ⟨body, hbody, hp, hrest⟩ | ⟨hp, hrest⟩ := ih
      · exact .inl ⟨'\'' :: '\'' :: body, hbody.quotes, by simp [p, hp], hrest⟩
      · exact .inr ⟨hp.quotes, hrest⟩
  | case3 rest hrest =>
      refine .inl ⟨[], .nil, rfl, ?_⟩
      cases rest with
      | nil => simp
      | cons c rest => simpa using fun hc => hrest rest (by rw [hc])
  | case4 c rest _ hc p ih =>
      obtain ⟨body, hbody, hp, hrest⟩ | ⟨hp, hrest⟩ := ih
      · exact .inl ⟨c :: body, .char hc hbody, by simp [p, hp], hrest⟩
      · exact .inr ⟨.char hc hp, hrest⟩

theorem spanLiteral_paired_append (h : Paired body) (rest : List Char) :
    spanLiteral (body ++ rest) = (body ++ (spanLiteral rest).1, (spanLiteral rest).2) := by
  induction h with
  | nil => rfl
  | @char c cs hc _ ih =>
      rw [List.cons_append, spanLiteral.eq_def]
      simp [hc, ih]
  | quotes _ ih =>
      rw [List.cons_append, List.cons_append, spanLiteral, ih]
      rfl

theorem spanLiteral_of_paired (h : Paired body) (hrest : rest.head? ≠ some '\'') :
    spanLiteral (body ++ '\'' :: rest) = (body ++ ['\''], rest) := by
  have hquote : spanLiteral ('\'' :: rest) = (['\''], rest) := by
    cases rest with
    | nil => rfl
    | cons c rest =>
        have hc : c ≠ '\'' := by simpa using hrest
        rw [spanLiteral.eq_def]
        simp [hc]
  rw [spanLiteral_paired_append h, hquote]

theorem spanLiteral_unterminated (h : Paired body) : spanLiteral body = (body, []) := by
  have happend := spanLiteral_paired_append h []
  rwa [List.append_nil, spanLiteral, List.append_nil] at happend

theorem ofQuery_quote (cs : List Char) :
    ofQuery ('\'' :: cs) = .literal ('\'' :: (spanLiteral cs).1) :: ofQuery (spanLiteral cs).2 := by
      rw [ofQuery]

theorem ofQuery_hyphens (cs : List Char) :
    ofQuery ('-' :: '-' :: cs) = .comment ('-' :: '-' :: cs.takeWhile (· != '\n')) ::
      ofQuery (cs.dropWhile (· != '\n')) := by
  rw [ofQuery]

theorem ofQuery_of_stays {c : Char} (h : leavesCode (c :: cs) = false) :
    ofQuery (c :: cs) = .code (c :: (spanCode cs).1) :: ofQuery (spanCode cs).2 := by
  obtain ⟨hquote, hhyphen⟩ := (leavesCode_eq_false_iff c cs).mp h
  rw [ofQuery]
  · exact hquote
  · rintro rest rfl rfl
    exact hhyphen rfl rfl

theorem head_ofQuery (h : leavesCode cs = true) :
    ∀ next ∈ (ofQuery cs).head?, next.isCode = false := by
  rw [leavesCode.eq_def] at h
  split at h
  · rw [ofQuery_quote]
    simp [isCode]
  · rw [ofQuery_hyphens]
    simp [isCode]
  · cases h

theorem flatMap_text_ofQuery (cs : List Char) : (ofQuery cs).flatMap text = cs := by
  fun_induction ofQuery cs with
  | case1 => rfl
  | case2 rest ih => simp [text, ih, spanLiteral_append]
  | case3 rest ih => simp [text, ih]
  | case4 c rest _ _ ih => simp [text, ih, spanCode_append]

theorem divided_ofQuery (cs : List Char) : Divided (ofQuery cs) := by
  fun_induction ofQuery cs with
  | case1 => exact .nil
  | case2 rest ih =>
      refine .cons ?_ nofun ih
      rw [flatMap_text_ofQuery]
      obtain ⟨body, hbody, hp, hrest⟩ | ⟨hp, hrest⟩ := paired_spanLiteral rest
      · rw [hp]
        exact .terminated hbody hrest
      · rw [hrest]
        exact .unterminated hp
  | case3 rest ih =>
      refine .cons ?_ nofun ih
      rw [flatMap_text_ofQuery]
      refine .comment (fun hmem => by simpa using List.all_eq_true.mp List.all_takeWhile _ hmem) ?_
      cases hrest : rest.dropWhile (· != '\n') with
      | nil => exact .inl rfl
      | cons c cs =>
          have hc := List.head?_dropWhile_not (· != '\n') rest
          rw [hrest] at hc
          exact .inr (by simpa using hc)
  | case4 c rest hquote hhyphen ih =>
      obtain ⟨hplain, hrest⟩ := plain_spanCode rest
      have hstays : leavesCode (c :: rest) = false := by
        refine (leavesCode_eq_false_iff c rest).mpr ⟨hquote, fun hc hhead => ?_⟩
        obtain ⟨cs, rfl⟩ := List.head?_eq_some_iff.mp hhead
        exact hhyphen cs hc rfl
      refine .cons ?_ (fun _ => ?_) ih
      · rw [flatMap_text_ofQuery]
        refine .code (List.cons_ne_nil _ _) (plain_cons.mpr ⟨?_, hplain⟩)
        rwa [spanCode_append]
      · obtain hnil | hleaves := hrest
        · rw [hnil, ofQuery]
          exact nofun
        · exact head_ofQuery hleaves

theorem Divided.leavesCode (h : Divided back) (hnext : ∀ next ∈ back.head?, next.isCode = false) :
    back.flatMap text = [] ∨ leavesCode (back.flatMap text) = true := by
  cases h with
  | nil => exact .inl rfl
  | @cons _ back hp =>
      refine .inr ?_
      rw [List.flatMap_cons]
      generalize back.flatMap text = rest at hp ⊢
      cases hp with
      | code => cases hnext _ rfl
      | terminated | unterminated | comment => rfl

theorem ofQuery_of_ends (h : p.Ends rest) (hcode : p.isCode = false) :
    ofQuery (p.text ++ rest) = p :: ofQuery rest := by
  cases h with
  | code => cases hcode
  | terminated hbody hquote =>
      rw [text, List.cons_append, List.append_assoc, List.singleton_append, ofQuery_quote,
        spanLiteral_of_paired hbody hquote]
  | unterminated hbody =>
      rw [text, List.append_nil, ofQuery_quote, spanLiteral_unterminated hbody, ofQuery]
  | @comment body _ hbody hend =>
      have hall : ∀ c ∈ body, (c != '\n') = true := fun c hc => by
        simpa using fun he : c = '\n' => hbody (he ▸ hc)
      have hnone : rest.takeWhile (· != '\n') = [] ∧ rest.dropWhile (· != '\n') = rest := by
        cases rest with
        | nil => exact ⟨rfl, rfl⟩
        | cons c cs =>
            obtain rfl : c = '\n' := by simpa using hend
            simp
      rw [text, List.cons_append, List.cons_append, ofQuery_hyphens,
        List.takeWhile_append_of_pos hall,
        List.dropWhile_append_of_pos hall, hnone.1, hnone.2, List.append_nil]

theorem ofQuery_of_divided (h : Divided pieces) : ofQuery (pieces.flatMap text) = pieces := by
  induction h with
  | nil => rw [List.flatMap_nil, ofQuery]
  | @cons p back hp hcode hback ih =>
      rw [List.flatMap_cons]
      cases hkind : p.isCode with
      | false => rw [ofQuery_of_ends hp hkind, ih]
      | true =>
          generalize hrest : back.flatMap text = rest at hp
          cases hp with
          | @code t _ hne hplain =>
              obtain ⟨c, t, rfl⟩ := List.exists_cons_of_ne_nil hne
              obtain ⟨hstays, ht⟩ := plain_cons.mp hplain
              have hleaves := hback.leavesCode (hcode rfl)
              rw [hrest] at hleaves
              rw [text, List.cons_append, ofQuery_of_stays hstays,
                spanCode_of_plain ht hleaves, ← hrest, ih]
          | terminated | unterminated | comment => cases hkind

theorem Ends.congr_head (h : p.Ends rest) (hhead : cs.head? = rest.head?) : p.Ends cs := by
  cases h with
  | code hne hplain =>
      exact .code hne ⟨hplain.noQuote, hplain.noHyphens, fun hlast => hhead ▸ hplain.edge hlast⟩
  | terminated hbody hquote => exact .terminated hbody (hhead ▸ hquote)
  | unterminated hbody =>
      obtain rfl := List.head?_eq_none_iff.mp hhead
      exact .unterminated hbody
  | comment hbody hend =>
      refine .comment hbody ?_
      rwa [← List.head?_eq_none_iff, hhead, List.head?_eq_none_iff]

/-- The kind of a piece and its first character are all that the pieces before it depend on. -/
theorem Divided.replace (h : Divided (front ++ p :: back)) (hkind : p'.isCode = p.isCode)
    (hhead : p'.text.head? = p.text.head?) (hp : Divided (p :: back) → Divided (p' :: back)) :
    Divided (front ++ p' :: back) := by
  induction front with
  | nil => exact hp h
  | cons q front ih =>
      cases h with
      | cons hq hcode hrest =>
          refine .cons (hq.congr_head ?_) (fun hc => ?_) (ih hrest)
          · cases front <;> simp [hhead]
          · have hnext := hcode hc
            cases front with
            | nil => simpa [hkind] using hnext
            | cons q' front => exact hnext

/-- Two pieces that are alike but for a text: one without quotes in a literal that ends, or one
without line feeds in a comment. -/
inductive Differ (t t' : List Char) : SqlPiece → SqlPiece → Prop
  | literal {before after} : Paired before → Paired after → '\'' ∉ t → '\'' ∉ t' →
      Differ t t' (.literal ('\'' :: (before ++ t ++ after ++ ['\''])))
        (.literal ('\'' :: (before ++ t' ++ after ++ ['\''])))
  | comment {before after} : '\n' ∉ t' →
      Differ t t' (.comment ('-' :: '-' :: (before ++ t ++ after)))
        (.comment ('-' :: '-' :: (before ++ t' ++ after)))

theorem Differ.isCode (h : Differ t t' p p') : p.isCode = false ∧ p'.isCode = false := by
  cases h <;> exact ⟨rfl, rfl⟩

theorem Differ.text_eq (h : Differ t t' p p') :
    ∃ opening closing, p.text = opening ++ t ++ closing ∧
    p'.text = opening ++ t' ++ closing := by
  cases h with
  | @literal before after => exact ⟨'\'' :: before, after ++ ['\''], by simp [text], by simp [text]⟩
  | @comment before after => exact ⟨'-' :: '-' :: before, after, by simp [text], by simp [text]⟩

theorem Differ.divided (h : Differ t t' p p') (hp : Divided (p :: back)) :
    Divided (p' :: back) := by
  cases hp with
  | cons hends _ hback =>
      refine .cons ?_ (fun hc => by simp [h.isCode] at hc) hback
      generalize back.flatMap text = rest at hends ⊢
      cases h with
      | @literal before after hbefore hafter ht ht' =>
          have hpaired {t : List Char} (ht : '\'' ∉ t) : Paired (before ++ t ++ after) :=
            (hbefore.append (paired_of_notMem ht)).append hafter
          refine .terminated (hpaired ht') ?_
          generalize hbody : '\'' :: (before ++ t ++ after ++ ['\'']) = whole at hends
          cases hends with
          | terminated _ hrest => exact hrest
          | unterminated => simp
      | @comment before after ht' =>
          cases hends with
          | comment hbody hrest =>
              simp only [List.mem_append, not_or] at hbody
              exact .comment (by simp [hbody, ht']) hrest

theorem ofQuery_of_differ (h : Differ t t' p p') (hpieces : ofQuery cs = front ++ p :: back) :
    ofQuery ((front ++ p' :: back).flatMap text) = front ++ p' :: back := by
  have hdivided := divided_ofQuery cs
  rw [hpieces] at hdivided
  have hhead : p'.text.head? = p.text.head? := by cases h <;> rfl
  exact ofQuery_of_divided (hdivided.replace (by rw [h.isCode.1, h.isCode.2]) hhead h.divided)

theorem Divided.ends (h : Divided (front ++ p :: back)) : p.Ends (back.flatMap text) := by
  induction front with
  | nil =>
      cases h with
      | cons hp => exact hp
  | cons q front ih =>
      cases h with
      | cons _ _ hrest => exact ih hrest

theorem references_of_not_code (h : p.isCode = false) : p.references = [] := by
  cases p with
  | code => cases h
  | literal t | comment t => simp [references, items, Reference.Item.reference?]

theorem bare_of_not_code (h : p.isCode = false) : p.bare = p.text := by
  cases p with
  | code => cases h
  | literal t | comment t => simp [bare, items, text, List.flatMap_map, Reference.Item.bare]

end TableFlow.SqlPiece
