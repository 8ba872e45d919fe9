import TableFlow.Proofs.Script.Comments
import TableFlow.Proofs.Script.Inference
import TableFlow.Proofs.Script.Nesting

namespace TableFlow

namespace LoopMarker

/-- The ids of the loops that are open after a marker, innermost first, where a loop may end
before one inside it does. -/
def openAfter (marker : LoopMarker) (ids : List String) : Option (List String) :=
  match marker with
  | .plain => some ids
  | .opens _ loopId => some (loopId :: ids)
  | .closes loopId => if loopId ∈ ids then some (ids.erase loopId) else none

def begins (loopId : String) : LoopMarker → Bool
  | .opens _ id => id == loopId
  | _ => false

def ends (loopId : String) : LoopMarker → Bool
  | .closes id => id == loopId
  | _ => false

variable {marker : LoopMarker} {ids ids' : List String}

theorem mem_of_openAfter {loopId : String} (h : (closes loopId).openAfter ids = some ids') :
    loopId ∈ ids := by
  rw [openAfter] at h
  split at h
  · assumption
  · cases h

/-- A marker changes for its own id alone how many loops are open. -/
theorem count_openAfter (h : marker.openAfter ids = some ids') (loopId : String) :
    (if marker.ends loopId then 1 else 0) + ids'.count loopId =
      (if marker.begins loopId then 1 else 0) + ids.count loopId := by
  cases marker with
  | plain =>
      cases h
      rfl
  | opens param id =>
      cases h
      rw [List.count_cons]
      by_cases hid : id = loopId <;> simp [ends, begins, hid, Nat.add_comm]
  | closes id =>
      have hopen := mem_of_openAfter h
      rw [openAfter, if_pos hopen] at h
      cases h
      rw [List.count_erase]
      by_cases hid : id = loopId
      · have hpos : 0 < ids.count loopId := List.count_pos_iff.mpr (hid ▸ hopen)
        simp [ends, begins, hid]
        omega
      · simp [ends, begins, hid]

end LoopMarker

namespace Step

def openAfter (ids : List String) (step : Step) : Option (List String) := step.marker.openAfter ids

def beginnings (loopId : String) (steps : List Step) : Nat := steps.countP (·.marker.begins loopId)

def endings (loopId : String) (steps : List Step) : Nat := steps.countP (·.marker.ends loopId)

variable {ids ids' : List String} {steps : List Step}

theorem foldlM_openAfter_cons {step : Step} {rest : List Step} :
    (step :: rest).foldlM openAfter ids = some ids' ↔
      ∃ next, step.marker.openAfter ids = some next ∧ rest.foldlM openAfter next = some ids' := by
  rw [List.foldlM_cons]
  exact Option.bind_eq_some_iff

theorem count_of_foldlM (h : steps.foldlM openAfter ids = some ids') (loopId : String) :
    endings loopId steps + ids'.count loopId = beginnings loopId steps + ids.count loopId := by
  induction steps generalizing ids with
  | nil =>
      cases h
      rfl
  | cons step rest ih =>
      obtain ⟨next, hstep, hrest⟩ := foldlM_openAfter_cons.mp h
      have hcount := LoopMarker.count_openAfter hstep loopId
      have hrest := ih hrest
      simp only [endings, beginnings, List.countP_cons] at hrest ⊢
      omega

end Step

theorem LogicalLine.pairwise_number {number : Nat} {pending : Option LogicalLine}
    {lines : List String} (hpending : ∀ line ∈ pending, line.number < number) :
    (joinFrom number pending lines).Pairwise (·.number < ·.number) := by
  induction lines generalizing number pending with
  | nil => cases pending <;> simp [joinFrom]
  | cons raw rest ih =>
      have hfirst : (take number pending raw).number ≤ number := by
        rw [number_take]
        cases pending with
        | none => exact Nat.le_refl _
        | some line => exact Nat.le_of_lt (hpending line rfl)
      rw [joinFrom_cons]
      split
      · apply ih
        intro line hline
        rw [← Option.some.inj hline]
        omega
      · refine List.pairwise_cons.mpr ⟨fun line hline => ?_, ih (by simp)⟩
        have hnumber := number_bounds rest (by simp) (Nat.le_refl _) line hline
        omega

theorem LogicalLine.number_lt_of_split {lines : List String} {before after : List LogicalLine}
    {line later : LogicalLine} (h : ofLines lines = before ++ line :: after)
    (hlater : later ∈ after) : line.number < later.number := by
  have hpairwise : (ofLines lines).Pairwise (·.number < ·.number) := pairwise_number (by simp)
  rw [h] at hpairwise
  exact (List.pairwise_cons.mp (List.pairwise_append.mp hpairwise).2.1).1 later hlater

namespace Directive

variable {s : Segment} {directive : Directive} {op object : String} {idsTable : Option String}

theorem sink_of_remoteSink (h : remoteSink op object idsTable = .ok directive) :
    ∃ sink, directive = .sink sink := by
  unfold remoteSink at h
  split at h <;> cases h
  exact ⟨_, rfl⟩

theorem isMarkerKind_of_ofSegment (h : ofSegment s = .ok directive)
    (hsink : ∀ sink, directive ≠ .sink sink) :
    isMarkerKind s.kind = true := by
  unfold ofSegment at h
  split at h
  case h_1 hkind _ | h_2 hkind _ => rw [hkind]; rfl
  case h_3 | h_4 | h_5 =>
    cases h
    exact absurd rfl (hsink _)
  case h_6 | h_7 =>
    obtain ⟨sink, hd⟩ := sink_of_remoteSink h
    exact absurd hd (hsink sink)
  case h_8 => cases h

theorem notOpen_ne_of_ofSegment {fault : SyntaxFault} (h : ofSegment s = .error fault)
    (loopId : String) :
    fault ≠ .notOpen loopId := by
  have hremote {op object : String} {idsTable : Option String}
      (h : remoteSink op object idsTable = .error fault) :
      fault ≠ .notOpen loopId := by
    unfold remoteSink at h
    split at h <;> cases h
    rintro ⟨⟩
  unfold ofSegment at h
  split at h
  case h_1 | h_2 | h_3 | h_4 | h_5 => cases h
  case h_6 | h_7 => exact hremote h
  case h_8 =>
    cases h
    split <;> rintro ⟨⟩

end Directive

namespace Draft

variable {d d' : Draft} {s : Segment} {segments : List Segment} {opened : List String}
  {fault : SyntaxFault}

/-- A segment leaves marker and open loops alone, or it is the first marker of its line. -/
theorem marker_of_add (h : d.add s = .ok d') :
    d'.marker = d.marker ∧ d'.opened = d.opened ∨
      d.marker = .plain ∧ d'.marker.openAfter d.opened = some d'.opened := by
  unfold add at h
  split at h
  · cases h
  · split at h
    · cases h
    · rename_i hfirst
      obtain ⟨directive, hs, ha⟩ := bind_eq_ok_iff.mp h
      have hplain (hsink : ∀ sink, directive ≠ .sink sink) : d.marker = .plain := by
        simpa [Directive.isMarkerKind_of_ofSegment hs hsink] using hfirst
      cases directive with
      | sink sink =>
          rw [apply] at ha
          split at ha <;> cases ha
          exact .inl ⟨rfl, rfl⟩
      | opens =>
          cases ha
          exact .inr ⟨hplain (by simp), rfl⟩
      | closes loopId =>
          rw [apply] at ha
          split at ha <;> cases ha
          rename_i hopen
          exact .inr ⟨hplain (by simp), if_pos hopen⟩

theorem openAfter_of_foldlM (h : segments.foldlM add { opened } = .ok d) :
    d.marker.openAfter opened = some d.opened := by
  refine foldlM_preserves (P := fun d => d.marker.openAfter opened = some d.opened)
    (fun s d d' hadd hd => ?_) h rfl
  obtain ⟨hmarker, hopened⟩ | ⟨hplain, hd'⟩ := marker_of_add hadd
  · rw [hmarker, hopened, hd]
  · rw [hplain] at hd
    rw [Option.some.inj hd, hd']

theorem notOpen_ne_of_add (hd : d.marker ≠ .plain) (h : d.add s = .error fault) (loopId : String) :
    fault ≠ .notOpen loopId := by
  unfold add at h
  split at h
  · cases h
    rintro ⟨⟩
  · split at h
    · cases h
      rintro ⟨⟩
    · rename_i hfirst
      obtain hs | ⟨directive, hs, ha⟩ := bind_eq_error_iff.mp h
      · exact Directive.notOpen_ne_of_ofSegment hs loopId
      · cases directive with
        | sink sink =>
            rw [apply] at ha
            split at ha <;> cases ha
            rintro ⟨⟩
        | opens => cases ha
        | closes id =>
            have hkind := Directive.isMarkerKind_of_ofSegment hs (by simp)
            simp [hkind, hd] at hfirst

theorem notOpen_ne_of_foldlM (hd : d.marker ≠ .plain) (h : segments.foldlM add d = .error fault)
    (loopId : String) :
    fault ≠ .notOpen loopId := by
  induction segments generalizing d with
  | nil => cases h
  | cons s rest ih =>
      rw [List.foldlM_cons] at h
      obtain ha | ⟨next, ha, hr⟩ := bind_eq_error_iff.mp h
      · exact notOpen_ne_of_add hd ha loopId
      · obtain ⟨hmarker, -⟩ | ⟨hplain, -⟩ := marker_of_add ha
        · exact ih (hmarker ▸ hd) hr
        · exact absurd hplain hd

theorem add_closing {loopId : String} (hd : d.marker = .plain)
    (hid : Directive.isName loopId = true) :
    d.add ⟨"batch_end", [loopId]⟩ = d.apply (.closes loopId) := by
  simp [add, hd, hid, Directive.ofSegment, bind, Except.bind]

end Draft

theorem Source.notOpen_ne_of_infer {query : String} {sinks : List Sink} {fault : SyntaxFault}
    (h : infer query sinks = .error fault) (loopId : String) : fault ≠ .notOpen loopId := by
  simp only [infer] at h
  split at h
  · split at h <;> cases h
  · split at h <;> cases h
    rintro ⟨⟩
  · cases h
    rintro ⟨⟩

namespace Step

variable {line : LogicalLine} {text query : List Char} {segments : List Segment}
  {opened opened' : List String} {step : Option Step} {d : Draft} {fault : SyntaxFault}

def counted (text : List Char) (segments : List Segment) : List Segment :=
  if isComment text then segments.filter isLoopSegment else segments

def ofDraft (line : Nat) (text query : List Char) (d : Draft) :
    Except SyntaxFault (Option Step × List String) :=
  if isComment text then
    .ok
      (if d.marker = .plain then none else some
        { line, marker := d.marker, text := String.ofList text }, d.opened)
  else if query.isEmpty && !d.sinks.isEmpty then .error .sinkWithoutQuery
  else do
    let (bare, source) ← Source.infer (String.ofList query) d.sinks
    .ok (some { line, query := bare, sinks := d.sinks, source, marker := d.marker,
                text := String.ofList text }, d.opened)

theorem ofLine_of_splitLine (hne : Text.trim line.text.toList ≠ [])
    (hsplit : Segment.splitLine (Text.trim line.text.toList) = .ok (query, segments)) :
    ofLine line opened =
      ((counted (Text.trim line.text.toList) segments).foldlM Draft.add { opened } >>=
      ofDraft line.number (Text.trim line.text.toList) query).mapError
        (.malformed line.number (String.ofList (Text.trim line.text.toList))) := by
  simp only [ofLine, List.isEmpty_eq_false_iff.mpr hne, Bool.false_eq_true, if_false]
  congr 1
  cases hcomment : isComment (Text.trim line.text.toList) with
  | true =>
      simp only [counted, hcomment, if_true, ofComment, hsplit]
      refine bind_congr fun d => ?_
      rw [ofDraft, if_pos hcomment]
  | false =>
      simp only [counted, hcomment, Bool.false_eq_true, if_false, ofStatement, hsplit]
      change (segments.foldlM Draft.add { opened } >>= _) = _
      refine bind_congr fun d => ?_
      simp only [ofDraft, hcomment, Bool.false_eq_true, if_false]

theorem openAfter_of_ofDraft {number : Nat} (h : ofDraft number text query d = .ok (step, opened'))
    (hd : d.marker.openAfter opened = some d.opened) :
    step.toList.foldlM openAfter opened = some opened' := by
  unfold ofDraft at h
  split at h
  · cases h
    by_cases hplain : d.marker = .plain
    · rw [hplain] at hd
      rw [if_pos hplain, ← Option.some.inj hd]
      rfl
    · rw [if_neg hplain]
      exact foldlM_openAfter_cons.mpr ⟨_, hd, rfl⟩
  · split at h
    · cases h
    · obtain ⟨_, _, h⟩ := bind_eq_ok_iff.mp h
      cases h
      exact foldlM_openAfter_cons.mpr ⟨_, hd, rfl⟩

theorem openAfter_of_ofLine (h : ofLine line opened = .ok (step, opened')) :
    step.toList.foldlM openAfter opened = some opened' := by
  by_cases hne : Text.trim line.text.toList = []
  · simp only [ofLine, hne] at h
    cases h
    rfl
  · cases hsplit : Segment.splitLine (Text.trim line.text.toList) with
    | error fault =>
        simp only [ofLine, List.isEmpty_eq_false_iff.mpr hne, Bool.false_eq_true, if_false] at h
        have h := TreeBuilder.mapError_eq_ok_iff.mp h
        split at h
        · rw [ofComment, hsplit] at h
          cases h
          rfl
        · rw [ofStatement, hsplit] at h
          cases h
    | ok parts =>
        rw [ofLine_of_splitLine hne hsplit] at h
        obtain ⟨d, hd, h⟩ := bind_eq_ok_iff.mp (TreeBuilder.mapError_eq_ok_iff.mp h)
        exact openAfter_of_ofDraft h (Draft.openAfter_of_foldlM hd)

theorem malformed_of_ofLine {e : ScriptError} (h : ofLine line opened = .error e) :
    ∃ fault, e = .malformed line.number (String.ofList (Text.trim line.text.toList)) fault := by
  simp only [ofLine] at h
  split at h
  · cases h
  · obtain ⟨fault, -, rfl⟩ := TreeBuilder.mapError_eq_error_iff.mp h
    exact ⟨fault, rfl⟩

/-- The steps of logical lines, and the loops that are open after them. -/
def readLines (opened : List String) : List LogicalLine →
    Except ScriptError (List Step × List String)
  | [] => .ok ([], opened)
  | line :: rest => do
    let (step, opened) ← ofLine line opened
    let (steps, opened) ← readLines opened rest
    .ok (step.toList ++ steps, opened)

variable {lines before after : List LogicalLine} {steps : List Step} {e : ScriptError}

theorem readLines_cons_eq_ok_iff {rest : List LogicalLine} :
    readLines opened (line :: rest) = .ok (steps, opened') ↔
      ∃ step next steps', ofLine line opened = .ok (step, next) ∧
      readLines next rest = .ok (steps', opened') ∧ step.toList ++ steps' = steps := by
  constructor
  · intro h
    obtain ⟨⟨step, next⟩, hstep, h⟩ := bind_eq_ok_iff.mp h
    obtain ⟨⟨steps', _⟩, hrest, h⟩ := bind_eq_ok_iff.mp h
    cases h
    exact ⟨step, next, steps', hstep, hrest, rfl⟩
  · rintro ⟨step, next, steps', hstep, hrest, rfl⟩
    exact bind_eq_ok_iff.mpr ⟨_, hstep, bind_eq_ok_iff.mpr ⟨_, hrest, rfl⟩⟩

theorem ofLogicalLines_eq (opened : List String) (lines : List LogicalLine) :
    ofLogicalLines opened lines = (readLines opened lines).map (·.1) := by
  induction lines generalizing opened with
  | nil => rfl
  | cons line rest ih =>
      rw [ofLogicalLines, readLines]
      cases ofLine line opened with
      | error e => rfl
      | ok parts =>
          obtain ⟨step, next⟩ := parts
          change (ofLogicalLines next rest >>= _) = Except.map _ (readLines next rest >>= _)
          rw [ih]
          cases readLines next rest <;> rfl

theorem exists_readLines (h : ofLogicalLines opened lines = .ok steps) :
    ∃ opened', readLines opened lines = .ok (steps, opened') := by
  rw [ofLogicalLines_eq] at h
  cases hread : readLines opened lines with
  | error e =>
      rw [hread] at h
      cases h
  | ok parts =>
      rw [hread] at h
      cases h
      exact ⟨parts.2, rfl⟩

theorem ofLogicalLines_append (h : readLines opened before = .ok (steps, opened')) :
    ofLogicalLines opened (before ++ after) = (ofLogicalLines opened' after).map (steps ++ ·) := by
  induction before generalizing opened steps with
  | nil =>
      cases h
      rw [List.nil_append]
      cases ofLogicalLines opened' after <;> rfl
  | cons line rest ih =>
      obtain ⟨step, next, steps', hstep, hrest, rfl⟩ := readLines_cons_eq_ok_iff.mp h
      rw [List.cons_append, ofLogicalLines, hstep]
      change (ofLogicalLines next (rest ++ after) >>= _) = _
      rw [ih hrest]
      cases ofLogicalLines opened' after with
      | error e => rfl
      | ok back => exact congrArg Except.ok (List.append_assoc _ _ _).symm

theorem openAfter_of_readLines (h : readLines opened lines = .ok (steps, opened')) :
    steps.foldlM openAfter opened = some opened' := by
  induction lines generalizing opened steps with
  | nil =>
      cases h
      rfl
  | cons line rest ih =>
      obtain ⟨step, next, steps', hstep, hrest, rfl⟩ := readLines_cons_eq_ok_iff.mp h
      rw [List.foldlM_append, openAfter_of_ofLine hstep]
      exact ih hrest

theorem exists_line_of_error (h : ofLogicalLines opened lines = .error e) :
    ∃ line ∈ lines, e.line = line.number := by
  induction lines generalizing opened with
  | nil => cases h
  | cons line rest ih =>
      obtain hline | ⟨⟨step, next⟩, -, h⟩ := bind_eq_error_iff.mp h
      · obtain ⟨fault, rfl⟩ := malformed_of_ofLine hline
        exact ⟨line, List.mem_cons_self, rfl⟩
      · obtain h | ⟨_, -, h⟩ := bind_eq_error_iff.mp h
        · obtain ⟨other, hmem, hnumber⟩ := ih h
          exact ⟨other, List.mem_cons_of_mem _ hmem, hnumber⟩
        · cases h

end Step
end TableFlow
