import TableFlow.Proofs.Xml.Elements

namespace TableFlow.Xml

def tagAt (cs : List Char) : Option (String × String) :=
  (Text.cut ['>'] (cs.takeWhile (· != '<'))).map fun p =>
    (String.ofList p.1, String.ofList (unescape p.2))

/-- A document as a reader takes it: its tags in order, without brackets, each with the text
that follows it. -/
def markup : List Char → List (String × String)
  | [] => []
  | c :: cs => if c = '<' then (tagAt cs).toList ++ markup cs else markup cs

def tags (document : String) : List String := (markup document.toList).map Prod.fst

def Flat (tag : String) : Prop := '<' ∉ tag.toList ∧ '>' ∉ tag.toList

def IsTag (tag : String) : Prop := Flat tag ∧ '/' ∉ tag.toList

instance (tag : String) : Decidable (Flat tag) := inferInstanceAs (Decidable (_ ∧ _))

instance (tag : String) : Decidable (IsTag tag) := inferInstanceAs (Decidable (_ ∧ _))

/-- Tags, each with a text after it, as a document has them. -/
def written : List (String × String) → String
  | [] => ""
  | (tag, text) :: rest => "<" ++ tag ++ ">" ++ String.ofList (escape text.toList) ++ written rest

structure Part where
  tag : String
  text : String
  after : String

def record (first : String) : List Part → String
  | [] => first
  | part :: parts => record (first ++ element part.tag part.text ++ part.after) parts

variable {tag text : String} {cs front back : List Char} {blocks : List (String × String)}

theorem Flat.append {other : String} (h : Flat tag) (hother : Flat other) :
    Flat (tag ++ other) := by
  simp only [Flat, String.toList_append, List.mem_append, not_or]
  exact ⟨⟨h.1, hother.1⟩, h.2, hother.2⟩

theorem markup_append_of_notMem (h : '<' ∉ cs) (back : List Char) :
    markup (cs ++ back) = markup back := by
  induction cs with
  | nil => rfl
  | cons c cs ih =>
      rw [List.mem_cons, not_or] at h
      rw [List.cons_append, markup, if_neg (Ne.symm h.1), ih h.2]

theorem takeWhile_append_of_notMem (h : '<' ∉ cs) (back : List Char) :
    (cs ++ back).takeWhile (· != '<') = cs ++ back.takeWhile (· != '<') :=
  List.takeWhile_append_of_pos fun c hc => by
    rw [bne_iff_ne]
    rintro rfl
    exact h hc

theorem takeWhile_append_bracket (front back : List Char) :
    (front ++ '<' :: back).takeWhile (· != '<') = front.takeWhile (· != '<') := by
  induction front with
  | nil => rfl
  | cons c front ih =>
      rw [List.cons_append, List.takeWhile_cons, List.takeWhile_cons, ih]

/-- What stands before an opening bracket is read as if nothing came after it. -/
theorem markup_append (front back : List Char) :
    markup (front ++ '<' :: back) = markup front ++ markup ('<' :: back) := by
  induction front with
  | nil => rfl
  | cons c front ih =>
      have htag : tagAt (front ++ '<' :: back) = tagAt front := by
        rw [tagAt, tagAt, takeWhile_append_bracket]
      rw [List.cons_append, markup, markup.eq_def (c :: front), ih, htag]
      dsimp only
      split
      · rw [List.append_assoc]
      · rfl

theorem markup_tag (htag : '<' ∉ cs) (hclose : '>' ∉ cs) (back : List Char) :
    markup ('<' :: (cs ++ '>' :: back)) =
      (String.ofList cs, String.ofList (unescape (back.takeWhile (· != '<')))) :: markup back := by
  have hcs : '<' ∉ cs ++ ['>'] := by simp [htag]
  have hcut : Text.cut ['>'] (cs ++ ['>'] ++ back.takeWhile (· != '<')) =
      some (cs, back.takeWhile (· != '<')) :=
    Text.cut_written (by simp) (fun hin => hclose (hin.subset List.mem_cons_self)) _
  have hwhole : cs ++ '>' :: back = cs ++ ['>'] ++ back := by simp
  rw [hwhole, markup, if_pos rfl, tagAt, takeWhile_append_of_notMem hcs, hcut,
    markup_append_of_notMem hcs]
  rfl

theorem takeWhile_escape (text back : List Char) :
    (escape text ++ '<' :: back).takeWhile (· != '<') = escape text := by
  have hall := takeWhile_append_of_notMem (lessThan_notMem_escape text) []
  rwa [List.append_nil, List.takeWhile_nil, List.append_nil, ← takeWhile_append_bracket] at hall

/-- An element is two tags, and no text between them makes more of it. -/
theorem markup_element (htag : Flat tag) (front : List Char) (text : String) (back : List Char) :
    markup (front ++ (element tag text).toList ++ back) =
      markup front ++ (tag, text) :: ("/" ++ tag,
        String.ofList (unescape (back.takeWhile (· != '<')))) :: markup back := by
  obtain ⟨hless, hgreater⟩ := htag
  have hless' : '<' ∉ '/' :: tag.toList := by simp [hless]
  have hgreater' : '>' ∉ '/' :: tag.toList := by simp [hgreater]
  have hwhole : front ++ (element tag text).toList ++ back =
      front ++ '<' ::
        (tag.toList ++ '>' ::
          (escape text.toList ++ '<' :: ('/' :: tag.toList ++ '>' :: back))) := by
    simp [element, opening, closing]
  rw [hwhole, markup_append, markup_tag hless hgreater, takeWhile_escape, unescape_escape,
    String.ofList_toList,
    markup_append_of_notMem (lessThan_notMem_escape _), markup_tag hless' hgreater']
  simp

theorem mem_tags_of_opening {document : String} (htag : Flat tag)
    (h : opening tag <:+: document.toList) : tag ∈ tags document := by
  obtain ⟨front, back, h⟩ := h
  have hwhole : document.toList = front ++ '<' :: (tag.toList ++ '>' :: back) := by
    rw [← h]
    simp [opening]
  rw [tags, hwhole, markup_append, markup_tag htag.1 htag.2]
  simp

theorem tags_element (htag : Flat tag) (front text back : String) :
    tags (front ++ element tag text ++ back) = tags front ++ tag :: ("/" ++ tag) :: tags back := by
  rw [tags, String.toList_append, String.toList_append, markup_element htag]
  simp [tags]

theorem written_append (front back : List (String × String)) :
    written (front ++ back) = written front ++ written back := by
  induction front with
  | nil => exact String.empty_append.symm
  | cons block front ih =>
      obtain ⟨tag, text⟩ := block
      simp only [List.cons_append, written, ih, String.append_assoc]

theorem takeWhile_written (blocks : List (String × String)) :
    (written blocks).toList.takeWhile (· != '<') = [] := by
  cases blocks with
  | nil => rfl
  | cons block blocks => simp [written]

theorem markup_written (h : ∀ block ∈ blocks, Flat block.1) :
    markup (written blocks).toList = blocks := by
  induction blocks with
  | nil => rfl
  | cons block blocks ih =>
      obtain ⟨tag, text⟩ := block
      obtain ⟨⟨hless, hgreater⟩, hrest⟩ := List.forall_mem_cons.mp h
      have hwhole : (written ((tag, text) :: blocks)).toList =
          '<' :: (tag.toList ++ '>' :: (escape text.toList ++ (written blocks).toList)) := by
        simp [written]
      have htext :=
        takeWhile_append_of_notMem (lessThan_notMem_escape text.toList) (written blocks).toList
      rw [takeWhile_written, List.append_nil] at htext
      rw [hwhole, markup_tag hless hgreater, htext, unescape_escape, String.ofList_toList,
        String.ofList_toList, markup_append_of_notMem (lessThan_notMem_escape _), ih hrest]

theorem written_element (tag text after : String) (rest : List (String × String)) :
    written ((tag, text) :: ("/" ++ tag, after) :: rest) =
      element tag text ++ String.ofList (escape after.toList) ++ written rest := by
  rw [← String.toList_inj]
  simp [written, element, opening, closing]

theorem tags_written (h : ∀ block ∈ blocks, Flat block.1) :
    tags (written blocks) = blocks.map Prod.fst := by
  rw [tags, markup_written h]

theorem texts_written {front back : List (String × String)} {after : String}
    (h : ∀ block ∈ front ++ (tag, text) :: ("/" ++ tag, after) :: back, Flat block.1)
    (hfront : tag ∉ front.map Prod.fst) (hback : tag ∉ back.map Prod.fst) :
    texts tag (written (front ++ (tag, text) :: ("/" ++ tag, after) :: back)) = [text] := by
  have htag : Flat tag := h (tag, text) (by simp)
  have hbefore : ¬ opening tag <:+: (written front).toList := fun hin => by
    refine hfront ?_
    rw [← tags_written fun block hblock => h block (List.mem_append_left _ hblock)]
    exact mem_tags_of_opening htag hin
  have hafter : Text.cut (opening tag) (escape after.toList ++ (written back).toList) = none := by
    refine Text.cut_eq_none_iff.mpr fun hin => hback ?_
    have hopening : opening tag <:+: (String.ofList (escape after.toList) ++
        written back).toList := by simpa using hin
    have hmem := mem_tags_of_opening htag hopening
    rw [tags, String.toList_append, String.toList_ofList,
      markup_append_of_notMem (lessThan_notMem_escape _)] at hmem
    rwa [← tags_written fun block hblock => h block (by simp [hblock])]
  rw [written_append, written_element, texts]
  simp only [String.toList_append, String.toList_ofList, ← List.append_assoc]
  rw [List.append_assoc _ (escape after.toList), textsIn_element htag.1 hbefore,
    textsIn_of_none hafter]

theorem text?_of_notMem (htag : Flat tag) {document : String} (h : tag ∉ tags document) :
    text? tag document = none := by
  have hnone : Text.cut (opening tag) document.toList = none :=
    Text.cut_eq_none_iff.mpr fun hin => h (mem_tags_of_opening htag hin)
  rw [text?, texts, textsIn_of_none hnone]
  rfl

theorem text?_element (htag : Flat tag) {first : String} (hfirst : tag ∉ tags first)
    (text rest : String) :
    text? tag (first ++ element tag text ++ rest) = some text := by
  have hopening : ¬ opening tag <:+: first.toList :=
    fun hin => hfirst (mem_tags_of_opening htag hin)
  rw [text?, texts, String.toList_append, String.toList_append, textsIn_element htag.1 hopening]
  rfl

theorem ne_closing (htag : IsTag tag) (other : String) : tag ≠ "/" ++ other := by
  rintro rfl
  exact htag.2 (by simp)

theorem exists_record_eq_append (first : String) (parts : List Part) :
    ∃ rest, record first parts = first ++ rest := by
  induction parts generalizing first with
  | nil => exact ⟨"", String.append_empty.symm⟩
  | cons part parts ih =>
      obtain ⟨rest, hrest⟩ := ih (first ++ element part.tag part.text ++ part.after)
      exact ⟨element part.tag part.text ++ part.after ++
        rest, by rw [record, hrest]; simp only [String.append_assoc]⟩

theorem text?_record (htag : IsTag tag) {first : String} {parts : List Part}
    (hparts : ∀ part ∈ parts, IsTag part.tag) (hfirst : tag ∉ tags first)
    (hafter : ∀ part ∈ parts, tag ∉ tags part.after) :
    text? tag (record first parts) = (parts.find? (·.tag = tag)).map Part.text := by
  induction parts generalizing first with
  | nil => exact text?_of_notMem htag.1 hfirst
  | cons part parts ih =>
      obtain ⟨hpart, hparts⟩ := List.forall_mem_cons.mp hparts
      obtain ⟨hback, hafter⟩ := List.forall_mem_cons.mp hafter
      rw [record]
      by_cases heq : part.tag = tag
      · obtain ⟨rest, hrest⟩ :=
          exists_record_eq_append (first ++ element part.tag part.text ++ part.after) parts
        rw [hrest, heq, String.append_assoc, text?_element htag.1 hfirst,
          List.find?_cons_of_pos (by simpa using heq)]
        rfl
      · have hnext : tag ∉ tags (first ++ element part.tag part.text ++ part.after) := by
          rw [tags_element hpart.1]
          simp [hfirst, hback, Ne.symm heq, ne_closing htag]
        rw [ih hparts hnext hafter, List.find?_cons_of_neg (by simpa using heq)]

end TableFlow.Xml
