import TableFlow.Proofs.Script.Continuation
import TableFlow.Proofs.Script.Names

namespace TableFlow.Segment

def IsGap (cs : List Char) : Prop := ∀ c ∈ cs, c = ' ' ∨ c = '\t'

def NoArrow (cs : List Char) : Prop := ¬ ['=', '>'] <:+: cs

structure IsField (cs : List Char) : Prop where
  nonempty : cs ≠ []
  plain : ∀ c ∈ cs, c ≠ ':' ∧ c ≠ ' ' ∧ c ≠ '\t'
  noArrow : NoArrow cs

inductive WritesFields : List String → List Char → Prop
  | nil : WritesFields [] []
  | cons {gap gap' field fields rest} : IsGap gap → IsGap gap' → IsField field.toList →
      WritesFields fields rest →
      WritesFields (field :: fields) (gap ++ ':' :: (gap' ++ (field.toList ++ rest)))

inductive Writes : List Segment → List Char → Prop
  | nil {gap} : IsGap gap → Writes [] gap
  | cons {gap gap' kind fields segments back rest} : IsGap gap → IsGap gap' →
      Directive.isName kind = true →
      WritesFields fields back → Writes segments rest →
      Writes (⟨kind, fields⟩ :: segments)
        (gap ++ '=' :: '>' :: (gap' ++ (kind.toList ++ (back ++ rest))))

variable {cs gap rest text after : List Char} {c : Char} {fields : List String}
  {segments : List Segment}

theorem atArrow_cons : atArrow (c :: cs) = true ↔ c = '=' ∧ cs.head? = some '>' := by
  rw [atArrow.eq_def]
  split
  · rename_i he
    obtain ⟨rfl, rfl⟩ := List.cons.inj he
    simp
  · rename_i hne
    simp only [Bool.false_eq_true, false_iff, not_and]
    rintro rfl hhead
    obtain ⟨rest, rfl⟩ := List.head?_eq_some_iff.mp hhead
    exact hne rest rfl

theorem noArrow_cons : NoArrow (c :: cs) ↔ atArrow (c :: cs) = false ∧ NoArrow cs := by
  have hprefix : ['=', '>'] <+: c :: cs ↔ atArrow (c :: cs) = true := by
    rw [atArrow_cons]
    cases cs <;> simp [List.cons_prefix_cons, eq_comm]
  rw [NoArrow, List.infix_cons_iff, not_or, hprefix, Bool.not_eq_true, NoArrow]

/-- An arrow neither ends before these characters nor begins in front of them. -/
theorem atArrow_append (h : NoArrow (c :: text)) (hrest : rest.head? ≠ some '>') :
    atArrow (c :: (text ++ rest)) = false := by
  have hc := (noArrow_cons.mp h).1
  rw [← Bool.not_eq_true, atArrow_cons] at hc ⊢
  rintro ⟨rfl, hhead⟩
  cases text with
  | nil => exact hrest hhead
  | cons d text => exact hc ⟨rfl, hhead⟩

theorem noArrow_cons_of_append (hc : ¬ atArrow (c :: (text ++ rest)) = true) (h : NoArrow text) :
    NoArrow (c :: text) := by
  refine noArrow_cons.mpr ⟨?_, h⟩
  rw [← Bool.not_eq_true, atArrow_cons]
  rw [atArrow_cons] at hc
  rintro ⟨rfl, hhead⟩
  exact hc ⟨rfl, by rw [List.head?_append, hhead]; rfl⟩

theorem IsGap.noArrow (h : IsGap gap) : NoArrow gap := by
  intro harrow
  have hc := h '=' (harrow.subset List.mem_cons_self)
  simp at hc

theorem IsGap.skip (h : IsGap gap) (rest : List Char) : skipGap (gap ++ rest) = skipGap rest :=
  List.dropWhile_append_of_pos fun c hc => by
    rcases h c hc with rfl | rfl <;> rfl

theorem isGap_eq_true : isGap c = true ↔ c = ' ' ∨ c = '\t' := by simp [isGap]

theorem exists_gap (cs : List Char) : ∃ gap, IsGap gap ∧ cs = gap ++ skipGap cs :=
  ⟨cs.takeWhile isGap, fun _ hc => isGap_eq_true.mp (List.all_eq_true.mp List.all_takeWhile _ hc),
    List.takeWhile_append_dropWhile.symm⟩

theorem IsField.skip (h : IsField text) (rest : List Char) :
    skipGap (text ++ rest) = text ++ rest := by
  obtain ⟨c, text, rfl⟩ := List.exists_cons_of_ne_nil h.nonempty
  have hc := (h.plain c List.mem_cons_self).2
  refine List.dropWhile_cons_of_neg ?_
  rw [isGap_eq_true, not_or]
  exact hc

theorem spanQuery_of_noArrow (h : NoArrow text) (hrest : rest.head? ≠ some '>') :
    spanQuery (text ++ rest) = (text ++ (spanQuery rest).1, (spanQuery rest).2) := by
  induction text with
  | nil => rfl
  | cons c text ih =>
      rw [List.cons_append, spanQuery, atArrow_append h hrest, ih (noArrow_cons.mp h).2]
      rfl

theorem spanQuery_sound (cs : List Char) : (spanQuery cs).1 ++ (spanQuery cs).2 = cs ∧
    NoArrow (spanQuery cs).1 := by
  induction cs with
  | nil => exact ⟨rfl, by simp [NoArrow, spanQuery]⟩
  | cons c cs ih =>
      rw [spanQuery]
      split
      · exact ⟨rfl, by simp [NoArrow]⟩
      · rename_i hc
        rw [← ih.1] at hc
        exact ⟨congrArg _ ih.1, noArrow_cons_of_append hc ih.2⟩

theorem endsField_cons : endsField (c :: cs) = true ↔ c = ':' ∨ (c = ' ' ∨ c = '\t') ∨
    atArrow (c :: cs) = true := by
  simp [endsField, isGap_eq_true, or_assoc]

theorem head?_of_endsField (h : endsField rest = true) : rest.head? ≠ some '>' := by
  cases rest with
  | nil => simp
  | cons c rest =>
      rw [endsField_cons, atArrow_cons] at h
      rw [List.head?_cons]
      rintro he
      cases he
      simp at h

theorem spanField_of_isField (h : IsField text) (hends : endsField rest = true) :
    spanField (text ++ rest) = (text, rest) := by
  obtain ⟨-, hplain, harrow⟩ := h
  induction text with
  | nil =>
      cases rest with
      | nil => rfl
      | cons c rest => rw [List.nil_append, spanField, if_pos hends]
  | cons c text ih =>
      have hgoes : ¬ endsField (c :: (text ++ rest)) = true := by
        obtain ⟨hcolon, hspace, htab⟩ := hplain c List.mem_cons_self
        rw [endsField_cons, atArrow_append harrow (head?_of_endsField hends)]
        simp [hcolon, hspace, htab]
      rw [List.cons_append, spanField, if_neg hgoes,
        ih (fun d hd => hplain d (List.mem_cons_of_mem _ hd)) (noArrow_cons.mp harrow).2]

theorem isField_spanField (cs : List Char) (hne : (spanField cs).1 ≠ []) :
    IsField (spanField cs).1 := by
  suffices h : (∀ c ∈ (spanField cs).1, c ≠ ':' ∧ c ≠ ' ' ∧ c ≠ '\t') ∧
      NoArrow (spanField cs).1 from
    ⟨hne, h.1, h.2⟩
  clear hne
  induction cs with
  | nil => exact ⟨by simp [spanField], by simp [NoArrow, spanField]⟩
  | cons c cs ih =>
      rw [spanField]
      split
      · exact ⟨by simp, by simp [NoArrow]⟩
      · rename_i hc
        rw [endsField_cons, not_or, not_or, not_or] at hc
        obtain ⟨hcolon, hblank, hc⟩ := hc
        rw [← spanField_append cs] at hc
        exact ⟨List.forall_mem_cons.mpr ⟨⟨hcolon, hblank⟩, ih.1⟩, noArrow_cons_of_append hc ih.2⟩

theorem readFields_of_colon {more : List Char} (h : skipGap cs = ':' :: more) :
    readFields cs =
      if (spanField (skipGap more)).1.isEmpty then .error ⟨.field, (spanField (skipGap more)).2⟩
      else readFields (spanField (skipGap more)).2 >>= fun p =>
        .ok (String.ofList (spanField (skipGap more)).1 :: p.1, p.2) := by
  rw [readFields]
  split
  · rename_i rest hrest
    obtain ⟨rfl⟩ : more = rest := by
      rw [h] at hrest
      exact (List.cons.inj hrest).2
    rfl
  · rename_i hne
    exact absurd h (hne more)

theorem readFields_of_stop (h : ∀ more, skipGap cs ≠ ':' :: more) :
    readFields cs = .ok ([], cs) := by
  rw [readFields]
  split
  · rename_i rest hrest
    exact absurd hrest (h rest)
  · rfl

theorem endsField_gap (h : IsGap gap) (hrest : endsField rest = true) :
    endsField (gap ++ rest) = true := by
  cases gap with
  | nil => exact hrest
  | cons c gap => exact endsField_cons.mpr (.inr (.inl (h c List.mem_cons_self)))

theorem endsField_fields (h : WritesFields fields text) (hrest : endsField rest = true) :
    endsField (text ++ rest) = true := by
  cases h with
  | nil => exact hrest
  | cons hgap =>
      rw [List.append_assoc]
      exact endsField_gap hgap rfl

theorem endsField_segments (h : Writes segments rest) : endsField rest = true := by
  cases h with
  | nil hgap =>
      rw [← List.append_nil rest]
      exact endsField_gap hgap rfl
  | cons hgap => exact endsField_gap hgap rfl

theorem skipGap_segments (h : Writes segments rest) : ∀ more, skipGap rest ≠ ':' :: more := by
  intro more
  cases h with
  | nil hgap =>
      rw [← List.append_nil rest, hgap.skip]
      simp [skipGap]
  | cons hgap =>
      rw [hgap.skip]
      simp [skipGap, isGap]

theorem readFields_of_writes (h : WritesFields fields text) (hrest : Writes segments rest) :
    readFields (text ++ rest) = .ok (fields, rest) := by
  induction h with
  | nil => exact readFields_of_stop (skipGap_segments hrest)
  | @cons gap gap' field fields text hgap hgap' hfield hfields ih =>
      have hskip : skipGap (gap ++ ':' :: (gap' ++ (field.toList ++ text)) ++ rest) =
          ':' :: (gap' ++ (field.toList ++ (text ++ rest))) := by
        rw [List.append_assoc, hgap.skip]
        simp [skipGap, isGap]
      have hspan : spanField (skipGap (gap' ++ (field.toList ++ (text ++ rest)))) =
          (field.toList, text ++ rest) := by
        rw [hgap'.skip, hfield.skip, spanField_of_isField hfield
          (endsField_fields hfields (endsField_segments hrest))]
      have hne : field.toList.isEmpty = false := by simpa using hfield.nonempty
      rw [readFields_of_colon hskip, hspan, hne, ih, String.ofList_toList]
      rfl

theorem readFields_cases (h : readFields cs = .ok (fields, after)) :
    fields = [] ∧ after = cs ∨
      ∃ more rest, skipGap cs = ':' :: more ∧ IsField (spanField (skipGap more)).1 ∧
        readFields (spanField (skipGap more)).2 = .ok (rest, after) ∧
        fields = String.ofList (spanField (skipGap more)).1 :: rest := by
  by_cases hcolon : ∃ more, skipGap cs = ':' :: more
  · obtain ⟨more, hcolon⟩ := hcolon
    rw [readFields_of_colon hcolon] at h
    split at h
    · cases h
    · rename_i hsome
      obtain ⟨⟨rest, after⟩, hread, hok⟩ := bind_eq_ok_iff.mp h
      cases hok
      exact .inr ⟨more, rest, hcolon, isField_spanField _ (by simpa using hsome), hread, rfl⟩
  · rw [readFields_of_stop (not_exists.mp hcolon)] at h
    cases h
    exact .inl ⟨rfl, rfl⟩

theorem writesFields_of_readFields (h : readFields cs = .ok (fields, after)) :
    ∃ text, cs = text ++ after ∧ WritesFields fields text := by
  induction fields generalizing cs with
  | nil =>
      obtain ⟨-, rfl⟩ | ⟨more, rest, _, _, _, hcons⟩ := readFields_cases h
      · exact ⟨[], rfl, .nil⟩
      · cases hcons
  | cons field fields ih =>
      obtain ⟨hnil, -⟩ | ⟨more, rest, hcolon, hfield, hread, hcons⟩ := readFields_cases h
      · cases hnil
      · obtain ⟨rfl, rfl⟩ := List.cons.inj hcons
        obtain ⟨text, htext, hwrites⟩ := ih hread
        obtain ⟨gap, hgap, hcs⟩ := exists_gap cs
        obtain ⟨gap', hgap', hmore⟩ := exists_gap more
        refine ⟨_, ?_, .cons hgap hgap' (by rwa [String.toList_ofList]) hwrites⟩
        rw [String.toList_ofList]
        calc cs = gap ++ ':' :: more := by rw [← hcolon, ← hcs]
          _ =
            gap ++ ':' ::
              (gap' ++ ((spanField (skipGap more)).1 ++ (spanField (skipGap more)).2)) := by
            rw [spanField_append, ← hmore]
          _ = gap ++ ':' :: (gap' ++ ((spanField (skipGap more)).1 ++ text)) ++ after := by
            simp only [htext, List.append_assoc, List.cons_append]

theorem readSegments_of_end (h : skipGap cs = []) : readSegments cs = .ok [] := by
  rw [readSegments]
  split
  · rfl
  · rename_i hne
    rw [h] at hne
    cases hne
  · rename_i hne _
    exact absurd h hne

theorem readSegments_of_arrow {more : List Char} (h : skipGap cs = '=' :: '>' :: more) :
    readSegments cs =
      if ((skipGap more).takeWhile Text.isNameChar).isEmpty then .error ⟨.kind, skipGap more⟩
      else readFields ((skipGap more).dropWhile Text.isNameChar) >>= fun p =>
        readSegments p.2 >>= fun segments =>
        .ok (⟨String.ofList ((skipGap more).takeWhile Text.isNameChar), p.1⟩ :: segments) := by
  rw [readSegments]
  split
  · rename_i hne
    rw [h] at hne
    cases hne
  · rename_i rest hrest
    obtain ⟨rfl⟩ : more = rest := by
      rw [h] at hrest
      exact (List.cons.inj (List.cons.inj hrest).2).2
    dsimp only
    split
    · rfl
    · split
      · rename_i hread
        rw [hread]
        rfl
      · rename_i fields after hread
        rw [hread]
        rfl
  · rename_i hne
    exact absurd h (hne more)

theorem readSegments_of_stop (h : skipGap cs ≠ [])
    (hstop : ∀ more, skipGap cs ≠ '=' :: '>' :: more) :
    readSegments cs = .error ⟨.endOfLine, skipGap cs⟩ := by
  rw [readSegments]
  split
  · rename_i hnil
    exact absurd hnil h
  · rename_i rest hrest
    exact absurd hrest (hstop rest)
  · rfl

theorem readSegments_cases (h : readSegments cs = .ok segments) :
    skipGap cs = [] ∧ segments = [] ∨
      ∃ more fields after rest, skipGap cs = '=' :: '>' :: more ∧
        (skipGap more).takeWhile Text.isNameChar ≠ [] ∧
        readFields ((skipGap more).dropWhile Text.isNameChar) = .ok (fields, after) ∧
          readSegments after = .ok rest ∧
        segments = ⟨String.ofList ((skipGap more).takeWhile Text.isNameChar), fields⟩ :: rest := by
  by_cases harrow : ∃ more, skipGap cs = '=' :: '>' :: more
  · obtain ⟨more, harrow⟩ := harrow
    rw [readSegments_of_arrow harrow] at h
    split at h
    · cases h
    · rename_i hsome
      obtain ⟨⟨fields, after⟩, hread, h⟩ := bind_eq_ok_iff.mp h
      obtain ⟨rest, hrest, hok⟩ := bind_eq_ok_iff.mp h
      cases hok
      exact .inr ⟨more, fields, after, rest, harrow, by simpa using hsome, hread, hrest, rfl⟩
  · by_cases hnil : skipGap cs = []
    · rw [readSegments_of_end hnil] at h
      cases h
      exact .inl ⟨hnil, rfl⟩
    · rw [readSegments_of_stop hnil (not_exists.mp harrow)] at h
      cases h

theorem writes_of_readSegments (h : readSegments cs = .ok segments) : Writes segments cs := by
  induction segments generalizing cs with
  | nil =>
      obtain ⟨hend, -⟩ | ⟨_, _, _, _, _, _, _, _, hcons⟩ := readSegments_cases h
      · obtain ⟨gap, hgap, hcs⟩ := exists_gap cs
        rw [hend, List.append_nil] at hcs
        exact hcs ▸ .nil hgap
      · cases hcons
  | cons s segments ih =>
      obtain ⟨-, hnil⟩ | ⟨more, fields, after, rest, harrow, hkind, hfields, hrest, hcons⟩ :=
        readSegments_cases h
      · cases hnil
      · obtain ⟨rfl, rfl⟩ := List.cons.inj hcons
        obtain ⟨text, htext, hwrites⟩ := writesFields_of_readFields hfields
        obtain ⟨gap, hgap, hcs⟩ := exists_gap cs
        obtain ⟨gap', hgap', hmore⟩ := exists_gap more
        have hname : Directive.isName (String.ofList ((skipGap more).takeWhile Text.isNameChar)) =
            true := by
          simp [Directive.isName, hkind]
        have hwritten := Writes.cons hgap hgap' hname hwrites (ih hrest)
        rw [← htext, String.toList_ofList,
          List.takeWhile_append_dropWhile, ← hmore, ← harrow, ← hcs] at hwritten
        exact hwritten

theorem isNameChar_of_endsField (h : endsField rest = true) :
    ∀ c ∈ rest.head?, Text.isNameChar c = false := by
  intro c hc
  obtain ⟨rest, rfl⟩ := List.head?_eq_some_iff.mp hc
  rw [endsField_cons, atArrow_cons] at h
  rcases h with rfl | (rfl | rfl) | ⟨rfl, -⟩ <;> rfl

theorem isField_of_isName {name : String} (h : Directive.isName name = true) :
    IsField name.toList where
  nonempty := by
    rw [Directive.isName, Bool.and_eq_true] at h
    simpa using h.1
  plain c hc := by
    refine ⟨?_, ?_, ?_⟩ <;> rintro rfl <;> exact notMem_of_isName h rfl hc
  noArrow harrow := notMem_of_isName h rfl (harrow.subset List.mem_cons_self)

theorem readSegments_of_writes (h : Writes segments cs) : readSegments cs = .ok segments := by
  induction h with
  | @nil gap hgap =>
      apply readSegments_of_end
      rw [← List.append_nil gap, hgap.skip]
      rfl
  | @cons gap gap' kind fields segments back rest hgap hgap' hkind hfields hrest ih =>
      have harrow : skipGap (gap ++ '=' :: '>' :: (gap' ++ (kind.toList ++ (back ++ rest)))) =
          '=' :: '>' :: (gap' ++ (kind.toList ++ (back ++ rest))) := by
        rw [hgap.skip]
        simp [skipGap, isGap]
      have hfield := isField_of_isName hkind
      have hends := endsField_fields hfields (endsField_segments hrest)
      obtain ⟨htake, hdrop⟩ :=
        Text.nameChars_name (isNameChar_of_isName hkind) (isNameChar_of_endsField hends)
      have hne : kind.toList.isEmpty = false := by simpa using hfield.nonempty
      rw [readSegments_of_arrow harrow, hgap'.skip, hfield.skip, htake, hdrop, hne,
        readFields_of_writes hfields hrest,
        String.ofList_toList]
      simp only [Bool.false_eq_true, if_false]
      change readSegments rest >>= _ = _
      rw [ih]
      rfl

theorem trim_append_gap (h : IsGap gap) (text : List Char) :
    Text.trim (text ++ gap) = Text.trim text := by
  have hblank : gap.all Text.isBlank = true := by
    rw [List.all_eq_true]
    intro c hc
    rcases h c hc with rfl | rfl <;> rfl
  rw [Text.trim, Text.trim, Text.trimEnd_append_gap hblank]

/-- Blanks before the first arrow are taken with the query. -/
theorem Writes.exists_gap (h : Writes segments rest) :
    ∃ gap back, rest = gap ++ back ∧ IsGap gap ∧ Writes segments back ∧
      spanQuery back = ([], back) := by
  cases h with
  | nil hgap => exact ⟨rest, [], (List.append_nil rest).symm, hgap, .nil nofun, rfl⟩
  | @cons gap gap' kind fields segments back rest hgap hgap' hkind hfields hrest =>
      have hnone : IsGap [] := nofun
      exact ⟨gap, _, rfl, hgap, .cons hnone hgap' hkind hfields hrest, rfl⟩

/-- The lines that can be read are those that can be written: a text without arrows, then
segments, and what is read is the text without blanks at its ends and these segments. A name can
be written as a field. -/
theorem splitLine_reads_what_is_written :
    (∀ line query segments, splitLine line = .ok (query, segments) ↔
      ∃ text rest, line = text ++ rest ∧ NoArrow text ∧ Writes segments rest ∧
        query = Text.trim text) ∧
    ∀ name, Directive.isName name = true → IsField name.toList := by
  refine ⟨fun line query segments => ⟨fun h => ?_, ?_⟩, fun name => isField_of_isName⟩
  · obtain ⟨hline, harrow⟩ := spanQuery_sound line
    rw [splitLine] at h
    cases hread : readSegments (spanQuery line).2 with
    | error stop =>
        rw [hread] at h
        cases h
    | ok read =>
        rw [hread] at h
        cases h
        exact ⟨_, _, hline.symm, harrow, writes_of_readSegments hread, rfl⟩
  · rintro ⟨text, rest, rfl, harrow, hwrites, rfl⟩
    obtain ⟨gap, back, rfl, hgap, hback, hspan⟩ := hwrites.exists_gap
    have hquery : spanQuery (text ++ (gap ++ back)) = (text ++ gap, back) := by
      rw [spanQuery_of_noArrow harrow (head?_of_endsField (endsField_segments hwrites)),
        spanQuery_of_noArrow hgap.noArrow (head?_of_endsField (endsField_segments hback)), hspan,
          List.append_nil]
    rw [splitLine, hquery]
    simp only [readSegments_of_writes hback, trim_append_gap hgap]

example : (splitLine "a==>csv : t==> var:x ".toList).toOption =
    some ("a=".toList, [⟨"csv", ["t="]⟩, ⟨"var", ["x"]⟩]) := by decide +kernel

end TableFlow.Segment
