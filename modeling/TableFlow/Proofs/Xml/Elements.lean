import TableFlow.Proofs.Xml.Entities

namespace TableFlow.Xml

/-- A text, then elements with a text after each. -/
def document (tag first : String) (parts : List (String × String)) : String :=
  first ++ String.join (parts.map fun part => element tag part.1 ++ part.2)

variable {tag : String} {doc before inner text rest filler : List Char}

theorem textsIn_of_none (h : Text.cut (opening tag) doc = none) : textsIn tag doc = [] := by
  rw [textsIn]
  split
  · rfl
  · rename_i hcut
    rw [h] at hcut
    cases hcut

theorem textsIn_of_cut (hopen : Text.cut (opening tag) doc = some (before, inner))
    (hclose : Text.cut (closing tag) inner = some (text, rest)) :
    textsIn tag doc = String.ofList (unescape text) :: textsIn tag rest := by
  rw [textsIn]
  split
  · rename_i hcut
    rw [hopen] at hcut
    cases hcut
  · rename_i hcut
    obtain ⟨rfl, rfl⟩ := Prod.mk.inj (Option.some.inj (hcut.symm.trans hopen))
    split
    · rename_i hcut
      rw [hclose] at hcut
      cases hcut
    · rename_i hcut
      obtain ⟨rfl, rfl⟩ := Prod.mk.inj (Option.some.inj (hcut.symm.trans hclose))
      rfl

theorem textsIn_element (htag : '<' ∉ tag.toList) (hfiller : ¬ opening tag <:+: filler)
    (text : String) (rest : List Char) :
    textsIn tag (filler ++ (element tag text).toList ++ rest) = text :: textsIn tag rest := by
  have hopen : Text.cut (opening tag)
      (filler ++ opening tag ++ (escape text.toList ++ closing tag ++ rest)) =
      some (filler, escape text.toList ++ closing tag ++ rest) :=
        Text.cut_written (by simp [htag]) hfiller _
  have hclose : Text.cut (closing tag) (escape text.toList ++ closing tag ++ rest) =
      some (escape text.toList, rest) := by
    refine Text.cut_written (by simp [htag]) (fun hin => ?_) rest
    exact lessThan_notMem_escape text.toList (hin.subset List.mem_cons_self)
  have hwhole : filler ++ (element tag text).toList ++ rest =
      filler ++ opening tag ++ (escape text.toList ++ closing tag ++ rest) := by
    simp [element]
  rw [hwhole, textsIn_of_cut hopen hclose, unescape_escape, String.ofList_toList]

theorem textsIn_document (htag : '<' ∉ tag.toList) {first : String} {parts : List (String × String)}
    (hfirst : ¬ opening tag <:+: first.toList)
    (hparts : ∀ part ∈ parts, ¬ opening tag <:+: part.2.toList) :
    textsIn tag (document tag first parts).toList = parts.map Prod.fst := by
  induction parts generalizing first with
  | nil =>
      rw [document, List.map_nil, String.join_nil, String.append_empty]
      exact textsIn_of_none (Text.cut_eq_none_iff.mpr hfirst)
  | cons part parts ih =>
      obtain ⟨hpart, hparts⟩ := List.forall_mem_cons.mp hparts
      have hdocument : (document tag first (part :: parts)).toList =
          first.toList ++ (element tag part.1).toList ++ (document tag part.2 parts).toList := by
        simp [document, String.join_cons]
      rw [hdocument, textsIn_element htag hfirst, ih hpart hparts, List.map_cons]

/-- The elements of a document are read back as the texts that they were written with, between
any texts in which no such element opens, and what is escaped is read back as it was. -/
theorem texts_document {tag first : String} {parts : List (String × String)}
    (htag : '<' ∉ tag.toList) (hfirst : ¬ opening tag <:+: first.toList)
    (hparts : ∀ part ∈ parts, ¬ opening tag <:+: part.2.toList) :
    texts tag (document tag first parts) = parts.map Prod.fst ∧ ∀ cs, unescape (escape cs) = cs :=
  ⟨textsIn_document htag hfirst hparts, unescape_escape⟩

theorem texts_document_nested :
    let parts := [("</id>&amp;lt; <id>", "<id"), ("", "d> & </id>")]
    document "id" "</id><jobId>7</jobId><i" parts =
      "</id><jobId>7</jobId><i<id>&lt;/id&gt;&amp;amp;lt; &lt;id&gt;</id><id<id></id>d> & </id>" ∧
    '<' ∉ "id".toList ∧ ¬ opening "id" <:+: "</id><jobId>7</jobId><i".toList ∧
    (∀ part ∈ parts, ¬ opening "id" <:+: part.2.toList) ∧
    texts "id" (document "id" "</id><jobId>7</jobId><i" parts) = ["</id>&amp;lt; <id>", ""] := by
  intro parts
  have htag : '<' ∉ "id".toList := by decide
  have hfirst : ¬ opening "id" <:+: "</id><jobId>7</jobId><i".toList :=
    Text.cut_eq_none_iff.mp (by decide)
  have hparts : ∀ part ∈ parts, ¬ opening "id" <:+: part.2.toList := by
    simp only [← Text.cut_eq_none_iff]
    decide
  exact ⟨by decide, htag, hfirst, hparts, (texts_document htag hfirst hparts).1⟩

end TableFlow.Xml
