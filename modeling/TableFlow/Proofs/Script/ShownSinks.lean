import TableFlow.Proofs.Script.Grammar
import TableFlow.Proofs.Script.Inference
import TableFlow.Proofs.Script.Marks
import TableFlow.Proofs.Script.Sinks
import TableFlow.Script.Listing

namespace TableFlow

open Text

theorem SqlPiece.bare_of_references_nil {p : SqlPiece} (h : p.references = []) :
    p.bare = p.text := by
  have hitem : ∀ item ∈ p.items, item.bare = item.text := by
    rintro (c | r) hitem
    · rfl
    · have hr : r ∈ p.references := List.mem_filterMap.mpr ⟨.reference r, hitem, rfl⟩
      rw [h] at hr
      cases hr
  rw [bare, List.flatMap_congr hitem, flatMap_text_items]

namespace Text

variable {cs back : List Char}

theorem getLast?_trim (h : trim cs ≠ []) : (trim cs).getLast? = (trimEnd cs).getLast? := by
  obtain ⟨front, hfront⟩ : trim cs <:+ trimEnd cs := List.dropWhile_suffix isBlank
  rw [← hfront, List.getLast?_append_of_ne_nil _ h]

theorem exists_trim_append (h : trim cs ≠ []) (hback : ∀ c ∈ back.getLast?, isBlank c = false) :
    ∃ gap, gap.all isBlank = true ∧ (back = [] → gap = []) ∧
      trim (cs ++ back) = trim cs ++ gap ++ back := by
  obtain ⟨before, after, hbefore, hafter, hcs⟩ := exists_append_trim cs
  have htight := tight_trim h
  by_cases hne : back = []
  · exact ⟨[], rfl, fun _ => rfl, by simp [hne]⟩
  · refine ⟨after, hafter, fun hnil => absurd hnil hne, ?_⟩
    have hlast : Tight (trim cs ++ after ++ back) := by
      refine ⟨?_, ?_⟩
      · rw [List.append_assoc, List.head?_append_of_ne_nil _ h]
        exact htight.head
      · rw [List.getLast?_append_of_ne_nil _ hne, List.getLast?_eq_some_getLast hne]
        exact hback _ (List.getLast?_eq_some_getLast hne)
    have hline := hlast.trim_eq hbefore List.all_nil
    rw [List.append_nil] at hline
    conv => lhs; rw [hcs]
    simpa using hline

theorem not_isBlank_of_isNameChar {c : Char} (h : isNameChar c = true) : isBlank c = false := by
  by_contra hblank
  rw [isNameChar_of_isBlank (by simpa using hblank)] at h
  cases h

end Text

theorem toList_intercalate_cons (first : String) (rest : List String) :
    (":".intercalate (first :: rest)).toList = first.toList ++ rest.flatMap fun field =>
      ':' :: field.toList := by
  induction rest generalizing first with
  | nil => simp
  | cons field rest ih =>
      rw [String.intercalate_cons_cons, String.toList_append, ih]
      simp

instance (cs : List Char) : Decidable (Segment.NoArrow cs) :=
  inferInstanceAs (Decidable (¬ ['=', '>'] <:+: cs))

theorem Segment.toList_text (s : Segment) :
    s.text.toList = s.kind.toList ++ s.fields.flatMap fun field => ':' :: field.toList :=
  toList_intercalate_cons s.kind s.fields

theorem Segment.writesFields_of_isName {fields : List String}
    (h : ∀ field ∈ fields, Directive.isName field = true) :
    WritesFields fields (fields.flatMap fun field => ':' :: field.toList) := by
  induction fields with
  | nil => exact .nil
  | cons field fields ih =>
      obtain ⟨hfield, hfields⟩ := List.forall_mem_cons.mp h
      have hnone : IsGap [] := nofun
      exact .cons hnone hnone (isField_of_isName hfield) (ih hfields)

theorem MutationOp.isName_name (op : MutationOp) : Directive.isName op.name = true := by
  cases op <;> decide

namespace Sink

def Proper (sink : Sink) : Prop := ∀ name ∈ sink.names, Directive.isName name = true

variable {sink : Sink}

theorem kind_mem (sink : Sink) : sink.segment.kind ∈ ["csv", "var", "dst"] := by
  rcases sink with ⟨name, _ | _⟩ | name | ⟨object, op, _ | idsTable⟩ <;> simp [segment]

theorem isName_kind (sink : Sink) : Directive.isName sink.segment.kind = true := by
  have hkinds : ∀ kind ∈ ["csv", "var", "dst"], Directive.isName kind = true := by decide
  exact hkinds _ sink.kind_mem

theorem isMarkerKind_kind (sink : Sink) : Directive.isMarkerKind sink.segment.kind = false := by
  have hkinds : ∀ kind ∈ ["csv", "var", "dst"], Directive.isMarkerKind kind = false := by decide
  exact hkinds _ sink.kind_mem

theorem isName_of_mem_fields (h : sink.Proper) :
    ∀ field ∈ sink.segment.fields, Directive.isName field = true := by
  have hcache : Directive.isName "cache" = true := by decide
  rcases sink with ⟨name, _ | _⟩ | name | ⟨object, op, _ | idsTable⟩
  all_goals simpa [Proper, names, segment, MutationOp.isName_name, hcache] using h

/-- No name is taken for a flag or an operation. -/
theorem ofSegment_segment (sink : Sink) : Directive.ofSegment sink.segment = .ok (.sink sink) := by
  rcases sink with ⟨name, _ | _⟩ | name | ⟨object, op, _ | idsTable⟩
  all_goals try rfl
  all_goals cases op <;> rfl

theorem isNameChar_text (h : sink.Proper) {c : Char} (hc : c ∈ sink.segment.text.toList) :
    isNameChar c = true ∨ c = ':' := by
  rw [Segment.toList_text, List.mem_append, List.mem_flatMap] at hc
  obtain hc | ⟨field, hfield, hc⟩ := hc
  · exact .inl (isNameChar_of_isName sink.isName_kind c hc)
  · obtain rfl | hc := List.mem_cons.mp hc
    · exact .inr rfl
    · exact .inl (isNameChar_of_isName (isName_of_mem_fields h field hfield) c hc)

end Sink

namespace Source

def ofSinks (sinks : List Sink) : Option Source :=
  if sinks.any Sink.isLocalTable then some (.localTables []) else none

theorem infer_unqualified (query : String) (sinks : List Sink)
    (h : (SqlPiece.ofQuery query.toList).flatMap SqlPiece.references = []) :
    infer query sinks = .ok (query, ofSinks sinks) := by
  rw [infer_eq_ok_iff, h]
  constructor
  · cases hany : sinks.any Sink.isLocalTable <;>
      simp [choose, ofSinks, hany, remoteObjects, localNames]
  · rw [strip, List.flatMap_congr fun p hp =>
      SqlPiece.bare_of_references_nil (List.flatMap_eq_nil_iff.mp h p hp)]
    exact (SqlPiece.flatMap_text_ofQuery query.toList).symm

end Source

namespace Draft

variable {d : Draft} {sink : Sink} {sinks : List Sink}

theorem add_segment (hproper : sink.Proper) (hkinds : d.sinks.any sink.sameKind = false) :
    d.add sink.segment = .ok { d with sinks := d.sinks ++ [sink] } := by
  have hfields : sink.segment.fields.find? (!Directive.isName ·) = none := by
    simpa using Sink.isName_of_mem_fields hproper
  rw [add, hfields, sink.isMarkerKind_kind, sink.ofSegment_segment]
  simp [bind, Except.bind, apply, hkinds]

theorem foldlM_segments (hproper : ∀ sink ∈ sinks, sink.Proper)
    (hkinds : Sink.Distinct (d.sinks ++ sinks)) :
    (sinks.map Sink.segment).foldlM add d = .ok { d with sinks := d.sinks ++ sinks } := by
  induction sinks generalizing d with
  | nil => simp [pure, Except.pure]
  | cons sink sinks ih =>
      obtain ⟨hsink, hsinks⟩ := List.forall_mem_cons.mp hproper
      have hnew : d.sinks.any sink.sameKind = false := by
        rw [List.any_eq_false]
        intro other hother
        rw [Sink.sameKind_comm, (List.pairwise_append.mp hkinds).2.2 other hother sink
          List.mem_cons_self]
        simp
      have hnext : Sink.Distinct (d.sinks ++ [sink] ++ sinks) := by simpa using hkinds
      rw [List.map_cons, List.foldlM_cons, add_segment hsink hnew]
      exact (ih (d := { d with sinks := d.sinks ++ [sink] }) hsinks hnext).trans (by simp)

end Draft

namespace Step

variable {s : Step} {text gap : List Char} {c : Char}

theorem proper_of_ofLogicalLines {opened : List String} {lines : List LogicalLine}
    {steps : List Step} (h : ofLogicalLines opened lines = .ok steps) :
    ∀ s ∈ steps, ∀ sink ∈ s.sinks, sink.Proper := by
  intro s hs sink hsink name hname
  have hsinks : name ∈ s.sinks.flatMap Sink.names := List.mem_flatMap.mpr ⟨sink, hsink, hname⟩
  exact isName_of_ofLogicalLines h s hs name
    (List.mem_append_left _ (List.mem_append_left _ hsinks))

theorem toList_sinkText (s : Step) :
    s.sinkText.toList = s.sinks.flatMap fun sink =>
      ' ' :: '=' :: '>' :: ' ' :: sink.segment.text.toList := by
  rw [sinkText, String.toList_join, List.flatMap_map]
  simp

theorem writes_sinkText (h : ∀ sink ∈ s.sinks, sink.Proper) :
    Segment.Writes (s.sinks.map Sink.segment) s.sinkText.toList := by
  rw [toList_sinkText]
  generalize s.sinks = sinks at h
  induction sinks with
  | nil => exact .nil nofun
  | cons sink sinks ih =>
      obtain ⟨hsink, hsinks⟩ := List.forall_mem_cons.mp h
      have hgap : Segment.IsGap [' '] := by simp [Segment.IsGap]
      have hfields := Segment.writesFields_of_isName (Sink.isName_of_mem_fields hsink)
      have hwrites := Segment.Writes.cons hgap hgap sink.isName_kind hfields (ih hsinks)
      rw [List.map_cons, List.flatMap_cons, Segment.toList_text]
      simpa using hwrites

theorem mem_text_of_getLast?_sinkText (hc : s.sinkText.toList.getLast? = some c) :
    ∃ sink ∈ s.sinks, c ∈ sink.segment.text.toList := by
  rw [toList_sinkText] at hc
  obtain hnil | ⟨front, sink, hsinks⟩ := s.sinks.eq_nil_or_concat
  · simp [hnil] at hc
  · refine ⟨sink, by simp [hsinks], ?_⟩
    have hne : sink.segment.text.toList ≠ [] := by
      have hkind := (Segment.isField_of_isName sink.isName_kind).nonempty
      simp [Segment.toList_text, hkind]
    rw [hsinks, List.concat_eq_append, List.flatMap_append, List.flatMap_singleton,
      List.getLast?_append_of_ne_nil _ (List.cons_ne_nil _ _)] at hc
    exact List.mem_of_getLast?
      ((List.getLast?_append_of_ne_nil [' ', '=', '>', ' '] hne).symm.trans hc)

theorem getLast?_sinkText (h : ∀ sink ∈ s.sinks, sink.Proper)
    (hc : s.sinkText.toList.getLast? = some c) : isBlank c = false ∧ c ≠ '\\' := by
  obtain ⟨sink, hsink, hmem⟩ := mem_text_of_getLast?_sinkText hc
  obtain hname | rfl := Sink.isNameChar_text (h sink hsink) hmem
  · refine ⟨not_isBlank_of_isNameChar hname, ?_⟩
    rintro rfl
    cases hname
  · exact ⟨rfl, by decide⟩

/-- A query that can stand in a line before sinks: a statement on a line of its own, without
arrows and qualified names. -/
structure PlainQuery (text : List Char) : Prop where
  nonempty : text ≠ []
  statement : isComment text = false
  ends : text.getLast? ≠ some '\\'
  noArrow : Segment.NoArrow text
  unqualified : (SqlPiece.ofQuery text).flatMap SqlPiece.references = []

namespace PlainQuery

theorem isComment_append (h : PlainQuery text) {rest : List Char} (hrest : rest.head? ≠ some '-') :
    isComment (text ++ rest) = false := by
  have hstatement := h.statement
  rcases text with _ | ⟨x, _ | ⟨y, text⟩⟩
  · exact absurd rfl h.nonempty
  · cases rest with
    | nil => exact hstatement
    | cons z rest =>
        have hz : '-' ≠ z := by simpa [eq_comm] using hrest
        simp [isComment, List.isPrefixOf, hz]
  · exact hstatement

end PlainQuery

/-- What is written before the first arrow is the query, blanks aside. -/
theorem splitLine_of_writes {segments : List Segment} {rest : List Char} (htext : Tight text)
    (harrow : Segment.NoArrow text) (hgap : gap.all isBlank = true)
    (h : Segment.Writes segments rest) :
    Segment.splitLine (text ++ gap ++ rest) = .ok (text, segments) := by
  have hblank : Segment.NoArrow gap := fun harrows => by
    have hequals := List.all_eq_true.mp hgap '=' (harrows.subset List.mem_cons_self)
    cases hequals
  have hhead : rest.head? ≠ some '>' := Segment.head?_of_endsField (Segment.endsField_segments h)
  have hhead' : (gap ++ rest).head? ≠ some '>' := by
    cases gap with
    | nil => exact hhead
    | cons c gap =>
        rintro ⟨⟩
        cases hgap
  obtain ⟨gap', back, rfl, hgap', hback, hspan⟩ := h.exists_gap
  have hquery : Segment.spanQuery (text ++ gap ++ (gap' ++ back)) =
      (text ++ (gap ++ gap'), back) := by
    rw [List.append_assoc, Segment.spanQuery_of_noArrow harrow hhead',
      Segment.spanQuery_of_noArrow hblank hhead,
      Segment.spanQuery_of_noArrow hgap'.noArrow
        (Segment.head?_of_endsField (Segment.endsField_segments hback)), hspan,
      List.append_nil]
  have htrim : trim (text ++ (gap ++ gap')) = text := by
    rw [← List.append_assoc, Segment.trim_append_gap hgap']
    have hnone : ([] : List Char).all isBlank = true := rfl
    exact htext.trim_eq hnone hgap
  rw [Segment.splitLine, hquery]
  simp only [Segment.readSegments_of_writes hback, htrim]

theorem ofStatement_of_writes (line : Nat) {sinks : List Sink} {rest : List Char}
    (htext : Tight text) (hplain : PlainQuery text) (hgap : gap.all isBlank = true)
    (hwrites : Segment.Writes (sinks.map Sink.segment) rest) (hproper : ∀ sink ∈ sinks, sink.Proper)
    (hkinds : Sink.Distinct sinks) (opened : List String) :
    ofStatement line (text ++ gap ++ rest) opened =
      .ok (some { line, query := String.ofList text, sinks, source := Source.ofSinks sinks,
                  text := String.ofList (text ++ gap ++ rest) }, opened) := by
  have hdraft : (sinks.map Sink.segment).foldlM Draft.add { opened } = .ok { sinks, opened } :=
    Draft.foldlM_segments (d := { opened }) hproper hkinds
  have hne : text.isEmpty = false := by simpa using hplain.nonempty
  have hsource :=
    Source.infer_unqualified (String.ofList text) sinks (by simpa using hplain.unqualified)
  rw [ofStatement, splitLine_of_writes htext hplain.noArrow hgap hwrites]
  simp only [bind, Except.bind, hdraft, hne, hsource]
  rfl

theorem ofLines_singleton {line : String} (hne : trim line.toList ≠ [])
    (hlast : (trim line.toList).getLast? ≠ some '\\')
    (hcomment : isComment (trim line.toList) = false) {step : Step}
    (h : ofStatement 1 (trim line.toList) [] = .ok (some step, [])) :
    ofLines [line] = .ok [step] := by
  have hunbroken : ∀ raw ∈ [line], (trimEnd raw.toList).getLast? ≠ some '\\' := by
    rw [List.forall_mem_singleton, ← getLast?_trim hne]
    exact hlast
  have hempty : (trim line.toList).isEmpty = false := by simpa using hne
  have hline : ofLine ⟨1, String.ofList (trimEnd line.toList)⟩ [] = .ok (some step, []) := by
    simp only [ofLine, String.toList_ofList, trim_trimEnd, hempty, hcomment, h]
    rfl
  rw [ofLines, LogicalLine.ofLines, LogicalLine.joinFrom_unbroken hunbroken]
  simp [ofLogicalLines, hline, bind, Except.bind]

/-- The sinks of a step, as they are shown, can be put after any plain query, and are read again
as they were. -/
theorem shown_sinks_read_back {lines : List String} {steps : List Step}
    (h : ofLines lines = .ok steps) :
    ∀ s ∈ steps, ∀ query, PlainQuery (trim query.toList) →
      ofLines [query ++ s.sinkText] =
        .ok [{ line := 1, query := trimmed query, sinks := s.sinks,
               source := Source.ofSinks s.sinks,
               text := trimmed (query ++ s.sinkText) }] := by
  intro s hs query hplain
  have hproper := proper_of_ofLogicalLines h s hs
  have hkinds : Sink.Distinct s.sinks :=
    forall_of_ofLogicalLines (fun _ _ _ _ _ => distinct_of_ofStatement)
      (fun _ _ _ _ _ => distinct_of_ofComment) h s hs
  obtain ⟨gap, hgap, hnone, htrim⟩ :=
    exists_trim_append hplain.nonempty fun c hc => (getLast?_sinkText hproper hc).1
  have hline : trim (query ++ s.sinkText).toList =
      trim query.toList ++ gap ++ s.sinkText.toList := by
    rw [String.toList_append, htrim]
  have hhead : (gap ++ s.sinkText.toList).head? ≠ some '-' := by
    rcases gap with _ | ⟨c, gap⟩
    · rw [List.nil_append, toList_sinkText]
      cases s.sinks <;> simp
    · rintro ⟨⟩
      cases hgap
  have hstatement :=
    ofStatement_of_writes 1 (tight_trim hplain.nonempty) hplain hgap (writes_sinkText hproper)
      hproper hkinds []
  rw [← hline] at hstatement
  refine ofLines_singleton ?_ ?_ ?_ hstatement
  · rw [hline]
    simp [hplain.nonempty]
  · rw [hline]
    by_cases hshown : s.sinkText.toList = []
    · simpa [hshown, hnone hshown] using hplain.ends
    · rw [List.getLast?_append_of_ne_nil _ hshown]
      exact fun hc => (getLast?_sinkText hproper hc).2 rfl
  · rw [hline, List.append_assoc]
    exact hplain.isComment_append hhead

def ambiguous : String := "SELECT 1 AS a => dst:update:insert:cache => csv:cache => var:update"

def ambiguousStep : Step :=
  { line := 1, query := "SELECT 1 AS a",
    sinks :=
      [.remoteObject "insert" .update (some "cache"), .localTable "cache" false,
        .variable "update"],
    source := some (.localTables []), text := ambiguous }

theorem ofLines_ambiguous : ofLines [ambiguous] = .ok [ambiguousStep] :=
  eq_ok_of_toOption (by decide +kernel)

theorem shown_sinks_read_back_ambiguous :
    ofLines [ambiguous] = .ok [ambiguousStep] ∧ PlainQuery (trim " SELECT '->', -1\t".toList) ∧
      ofLines [" SELECT '->', -1\t => dst:update:insert:cache => csv:cache => var:update"] =
        .ok [{ ambiguousStep with
                query := "SELECT '->', -1"
                text :=
                  "SELECT '->', -1\t => dst:update:insert:cache => csv:cache => var:update" }] := by
  have hplain : PlainQuery (trim " SELECT '->', -1\t".toList) :=
    ⟨by decide, by decide, by decide, by decide +kernel, by decide +kernel⟩
  refine ⟨ofLines_ambiguous, hplain, ?_⟩
  have hread :=
    shown_sinks_read_back ofLines_ambiguous ambiguousStep (List.mem_singleton_self _) _ hplain
  have hline : " SELECT '->', -1\t" ++ ambiguousStep.sinkText =
      " SELECT '->', -1\t => dst:update:insert:cache => csv:cache => var:update" := by
        decide +kernel
  rw [hline] at hread
  refine hread.trans ?_
  decide +kernel

def bareStep : Step := { line := 2, query := "SELECT 1", text := "SELECT 1" }

/-- Blanks around a query are not enough to make it plain: hyphens after them begin a comment,
and a backslash before them goes on in the next line. -/
theorem blanks_not_read_back :
    ofLines [ambiguous, "SELECT 1"] = .ok [ambiguousStep, bareStep] ∧
      (trim "  -- note".toList ≠ [] ∧ PlainQuery "  -- note".toList ∧
        ofLines ["  -- note" ++ ambiguousStep.sinkText] = .ok []) ∧
      trim "\\ ".toList ≠ [] ∧ PlainQuery "\\ ".toList ∧
        ofLines ["\\ " ++ bareStep.sinkText] = .ok [] := by
  have hnote : PlainQuery "  -- note".toList :=
    ⟨by decide, by decide, by decide, by decide +kernel, by decide +kernel⟩
  have hbackslash : PlainQuery "\\ ".toList :=
    ⟨by decide, by decide, by decide, by decide +kernel, by decide +kernel⟩
  refine ⟨eq_ok_of_toOption (by decide +kernel), ⟨by decide, hnote, ?_⟩, by decide, hbackslash, ?_⟩
  · decide +kernel
  · decide +kernel

end Step

end TableFlow
