import TableFlow.Proofs.Script.Continuation
import TableFlow.Proofs.Script.Names

namespace TableFlow

open Text

def shiftAfter (k number : Nat) : Nat := if number ≤ k then number else number + 1

namespace LogicalLine

variable {before after : List String} {raw : String} {number k : Nat} {pending : Option LogicalLine}

/-- Whether a physical line goes on in the next one. -/
def goesOn (raw : String) : Bool := (piece raw.toList).2

def take (number : Nat) (pending : Option LogicalLine) (raw : String) : LogicalLine :=
  match pending with
  | some line => line.extend (piece raw.toList).1
  | none => ⟨number, String.ofList (piece raw.toList).1⟩

theorem piece_of_goesOn (h : goesOn raw = false) :
    piece raw.toList = (trimEnd raw.toList, false) := by
  rw [goesOn] at h
  rw [piece] at h ⊢
  split at h
  · cases h
  · rename_i hlast
    rw [if_neg hlast]

theorem joinFrom_cons (number : Nat) (pending : Option LogicalLine) (raw : String)
    (rest : List String) :
    joinFrom number pending (raw :: rest) =
      if goesOn raw then joinFrom (number + 1) (some (take number pending raw)) rest
      else take number pending raw :: joinFrom (number + 1) none rest := by
  cases pending <;> rfl

theorem extend_renumber (f : Nat → Nat) (line : LogicalLine) (body : List Char) :
    (line.renumber f).extend body = (line.extend body).renumber f := by
  rw [extend, extend]
  split <;> rfl

theorem number_extend (line : LogicalLine) (body : List Char) :
    (line.extend body).number = line.number := by
  rw [extend]
  split <;> rfl

theorem take_renumber (f : Nat → Nat) (number : Nat) (pending : Option LogicalLine) (raw : String) :
    take (f number) (pending.map (renumber f)) raw = (take number pending raw).renumber f := by
  cases pending with
  | none => rfl
  | some line => exact extend_renumber f line _

theorem number_take : (take number pending raw).number =
    (pending.map LogicalLine.number).getD number := by
  cases pending with
  | none => rfl
  | some line => exact number_extend line _

theorem getLast?_of_cons
    {last : String} (h : ∀ last ∈ (raw :: before).getLast?, goesOn last = false)
    (hlast : last ∈ before.getLast?) : goesOn last = false := by
  apply h
  cases before with
  | nil => cases hlast
  | cons => rwa [List.getLast?_cons_cons]

/-- After a line that does not go on, the script is read as if it began there. -/
theorem joinFrom_append_ended (hends : ∀ last ∈ before.getLast?, goesOn last = false)
    (hpending : before = [] → pending = none) :
    joinFrom number pending (before ++ after) =
      joinFrom number pending before ++ joinFrom (number + before.length) none after := by
  induction before generalizing number pending with
  | nil =>
      rw [hpending rfl]
      rfl
  | cons raw rest ih =>
      have hrest (last : String) (hlast : last ∈ rest.getLast?) : goesOn last = false :=
        getLast?_of_cons hends hlast
      have hnumber : number + (raw :: rest).length = number + 1 + rest.length := by
        rw [List.length_cons]
        omega
      rw [List.cons_append, joinFrom_cons, joinFrom_cons, hnumber]
      split
      · rename_i hgoes
        apply ih hrest
        rintro rfl
        rw [hends raw rfl] at hgoes
        cases hgoes
      · rw [ih hrest fun _ => rfl]
        rfl

theorem joinFrom_renumber (k number : Nat) (pending : Option LogicalLine) (lines : List String) :
    joinFrom (number + k) (pending.map (renumber (· + k))) lines =
      (joinFrom number pending lines).map (renumber (· + k)) := by
  induction lines generalizing number pending with
  | nil => cases pending <;> rfl
  | cons raw rest ih =>
      have hline := take_renumber (· + k) number pending raw
      rw [joinFrom_cons, joinFrom_cons, Nat.add_right_comm, hline]
      split
      · rw [← ih, Option.map_some]
      · rw [List.map_cons, ← ih, Option.map_none]

theorem number_bounds
    (lines : List String) (hpending : ∀ line ∈ pending, k ≤ line.number ∧ line.number < number)
    (hk : k ≤ number) : ∀ line ∈ joinFrom number pending lines, k ≤ line.number ∧
      line.number < number + lines.length := by
  induction lines generalizing number pending with
  | nil =>
      intro line hline
      exact hpending line (Option.mem_toList.mp hline)
  | cons raw rest ih =>
      have hfirst : k ≤ (take number pending raw).number ∧
          (take number pending raw).number < number + 1 := by
        rw [number_take]
        cases pending with
        | none => exact ⟨hk, Nat.lt_succ_self _⟩
        | some line => exact ⟨(hpending line rfl).1, Nat.lt_succ_of_lt (hpending line rfl).2⟩
      have hlength : number + (raw :: rest).length = number + 1 + rest.length := by
        rw [List.length_cons]
        omega
      rw [joinFrom_cons, hlength]
      intro line hline
      split at hline
      · refine ih (fun first hmem => ?_) (Nat.le_succ_of_le hk) line hline
        rw [← Option.some.inj hmem]
        exact hfirst
      · rcases List.mem_cons.mp hline with rfl | hline
        · exact ⟨hfirst.1, by omega⟩
        · exact ih (by simp) (Nat.le_succ_of_le hk) line hline

theorem map_renumber_eq_self {f : Nat → Nat} {lines : List LogicalLine}
    (h : ∀ line ∈ lines, f line.number = line.number) :
    lines.map (renumber f) = lines := by
  have hid : ∀ line ∈ lines, line.renumber f = id line := by
    intro line hline
    rw [renumber, h line hline]
    rfl
  rw [List.map_congr_left hid, List.map_id]

theorem ofLines_insert (after : List String) (hends : ∀ last ∈ before.getLast?, goesOn last = false)
    (hraw : goesOn raw = false) :
    ∃ back, (ofLines (before ++ after)).map (renumber (shiftAfter before.length)) =
      ofLines before ++ back ∧
      ofLines (before ++ raw :: after) =
        ofLines before ++ ⟨before.length + 1, String.ofList (piece raw.toList).1⟩ :: back := by
  refine ⟨joinFrom (before.length + 2) none after, ?_, ?_⟩
  · have hback : (joinFrom (1 + before.length) none after).map
        (renumber (shiftAfter before.length)) =
        joinFrom (before.length + 2) none after := by
      have hshift := joinFrom_renumber 1 (1 + before.length) none after
      rw [Option.map_none] at hshift
      rw [show before.length + 2 = 1 + before.length + 1 by omega, hshift]
      apply List.map_congr_left
      intro line hline
      have hnumber :=
        number_bounds (k := 1 + before.length) after (by simp) (Nat.le_refl _) line hline
      rw [renumber, renumber, shiftAfter, if_neg (by omega)]
    rw [ofLines, joinFrom_append_ended hends fun _ => rfl, List.map_append, hback]
    congr 1
    apply map_renumber_eq_self
    intro line hline
    have hnumber := number_bounds (k := 1) before (by simp) (Nat.le_refl _) line hline
    rw [shiftAfter, if_pos (by omega)]
  · rw [ofLines, joinFrom_append_ended hends fun _ => rfl, joinFrom_cons, if_neg (by simp [hraw]),
      Nat.add_comm 1]
    rfl

end LogicalLine

def Segment.strayFault (s : Segment) : SyntaxFault :=
  match s.fields.find? (!Directive.isName ·) with
  | some bad => .invalidName bad s.kind
  | none => .unknownKind s.kind

theorem Directive.ofSegment_of_unknown {s : Segment} (h : isKnownKind s.kind = false) :
    ofSegment s = .error (.unknownKind s.kind) := by
  unfold ofSegment
  split
  case h_8 => rw [h]; rfl
  all_goals
    rename_i hkind _
    rw [hkind] at h
    cases h

theorem Draft.add_of_unknown {s : Segment} (h : Directive.isKnownKind s.kind = false) (d : Draft) :
    d.add s = .error s.strayFault := by
  have hmarker : Directive.isMarkerKind s.kind = false := by
    simp only [Directive.isKnownKind, Directive.isMarkerKind] at h ⊢
    simp_all
  rw [add, Segment.strayFault]
  cases s.fields.find? (!Directive.isName ·) with
  | some bad => rfl
  | none =>
      rw [hmarker, Directive.ofSegment_of_unknown h]
      rfl

namespace Step

variable {line : Nat} {text : List Char} {opened : List String} {s : Segment}
  {before after : List LogicalLine} {comment : LogicalLine}

/-- The first segment of a comment that is read for a marker: its kind begins with `batch_`. -/
def loopSegment? (text : List Char) : Option Segment :=
  match Segment.splitLine text with
  | .ok (_, segments) => segments.find? isLoopSegment
  | .error _ => none

theorem isKnownKind_of_loopSegment (h : isLoopSegment s = true)
    (hmarker : Directive.isMarkerKind s.kind = false) :
    Directive.isKnownKind s.kind = false := by
  rw [Directive.isKnownKind, ← Bool.not_eq_true, List.contains_iff_mem]
  intro hknown
  rw [isLoopSegment] at h
  simp only [List.mem_cons, List.not_mem_nil, or_false] at hknown
  rcases hknown with hk | hk | hk | hk | hk <;> rw [hk] at h hmarker
  · cases hmarker
  · cases hmarker
  · revert h; decide
  · revert h; decide
  · revert h; decide

theorem ofComment_of_none (h : loopSegment? text = none) :
    ofComment line text opened = .ok (none, opened) := by
  rw [loopSegment?] at h
  rw [ofComment]
  split
  · rfl
  · rename_i segments hsplit
    rw [hsplit] at h
    have hfilter : segments.filter isLoopSegment = [] := by
      rw [← List.head?_eq_none_iff, List.head?_filter]
      exact h
    rw [hfilter]
    rfl

theorem ofComment_of_some (h : loopSegment? text = some s)
    (hmarker : Directive.isMarkerKind s.kind = false) :
    ofComment line text opened = .error s.strayFault := by
  rw [loopSegment?] at h
  rw [ofComment]
  split
  · rename_i hsplit
    rw [hsplit] at h
    cases h
  · rename_i segments hsplit
    rw [hsplit] at h
    obtain ⟨rest, hfilter⟩ : ∃ rest, segments.filter isLoopSegment = s :: rest := by
      rw [← List.head?_eq_some_iff, List.head?_filter]
      exact h
    have hunknown := isKnownKind_of_loopSegment (List.find?_some h) hmarker
    rw [hfilter, List.foldlM_cons, Draft.add_of_unknown hunknown]
    rfl

theorem ofLogicalLines_insert (h : ∀ opened, ofLine comment opened = .ok (none, opened)) :
    ofLogicalLines opened (before ++ comment :: after) =
      ofLogicalLines opened (before ++ after) := by
  induction before generalizing opened with
  | nil =>
      simp only [List.nil_append, ofLogicalLines, h, bind, Except.bind]
      cases ofLogicalLines opened after <;> rfl
  | cons line rest ih =>
      rw [List.cons_append, List.cons_append, ofLogicalLines, ofLogicalLines]
      simp only [ih]

theorem ofLogicalLines_stop {e : ScriptError} (h : ∀ opened, ofLine comment opened = .error e) :
    ofLogicalLines opened (before ++ comment :: after) = ofLogicalLines opened before >>= fun _ =>
      .error e := by
  induction before generalizing opened with
  | nil =>
      simp only [List.nil_append, ofLogicalLines, h]
      rfl
  | cons line rest ih =>
      rw [List.cons_append, ofLogicalLines, ofLogicalLines]
      cases ofLine line opened with
      | error e => rfl
      | ok p =>
          simp only [bind, Except.bind] at ih ⊢
          rw [ih]
          cases ofLogicalLines p.2 rest <;> rfl

variable {raw : String} {number : Nat}

theorem ofLine_raw (hcomment : isComment (trim raw.toList) = true) :
    ofLine ⟨number, String.ofList (trimEnd raw.toList)⟩ opened =
      (ofComment number (trim raw.toList) opened).mapError
        (.malformed number (String.ofList (trim raw.toList))) := by
  have hempty : (trim raw.toList).isEmpty = false := by
    cases htext : trim raw.toList with
    | nil =>
        rw [htext] at hcomment
        cases hcomment
    | cons => rfl
  simp only [ofLine, String.toList_ofList, trim_trimEnd, hempty, hcomment]
  rfl

/-- A comment without loop markers, put before a logical line or at the end, changes nothing but
the numbers of the lines after it, unless one of its segments has a kind that begins with
`batch_`. The first such segment is refused, if no line before is. -/
theorem comment_inserted {before : List String} {comment : String} (after : List String)
    (hbefore : ∀ last ∈ before.getLast?, LogicalLine.goesOn last = false)
    (hends : LogicalLine.goesOn comment = false) (hcomment : isComment (trim comment.toList) = true)
    (hmarkers : ∀ query segments, Segment.splitLine (trim comment.toList) = .ok (query, segments) →
      ∀ s ∈ segments, Directive.isMarkerKind s.kind = false) :
    ofLines (before ++ comment :: after) =
      match loopSegment? (trim comment.toList) with
      | none =>
          ((ofLines (before ++ after)).map
            (List.map (renumber (shiftAfter before.length)))).mapError
              (ScriptError.renumber (shiftAfter before.length))
      | some s => ofLines before >>= fun _ =>
          .error
            (.malformed (before.length + 1) (String.ofList (trim comment.toList))
              s.strayFault) := by
  obtain ⟨back, hshifted, hinserted⟩ := LogicalLine.ofLines_insert after hbefore hends
  rw [LogicalLine.piece_of_goesOn hends] at hinserted
  rw [ofLines, hinserted]
  cases hsegment : loopSegment? (trim comment.toList) with
  | none =>
      rw [ofLogicalLines_insert, ← hshifted, ofLogicalLines_renumber]
      · rfl
      · intro opened
        rw [ofLine_raw hcomment, ofComment_of_none hsegment]
        rfl
  | some s =>
      have hmarker : Directive.isMarkerKind s.kind = false := by
        rw [loopSegment?] at hsegment
        split at hsegment
        · rename_i query segments hsplit
          exact hmarkers query segments hsplit s (List.mem_of_find?_eq_some hsegment)
        · cases hsegment
      apply ofLogicalLines_stop
      intro opened
      rw [ofLine_raw hcomment, ofComment_of_some hsegment hmarker]
      rfl

def moving : List String := ["SELECT 1 AS a \\", "  => csv:t"]

def movingComment : String := "  -- was => csv:a.b => nope"

def movingAfter : List String := ["SELECT a FROM csv.t => var:x"]

def movingStep (line : Nat) : Step :=
  { line, query := "SELECT a FROM t", sinks := [.variable "x"], source := some (.localTables ["t"]),
    text := "SELECT a FROM csv.t => var:x" }

def movingSteps : List Step :=
  [{ line := 1, query := "SELECT 1 AS a", sinks := [.localTable "t" false],
     source := some (.localTables []),
     text := "SELECT 1 AS a => csv:t" }, movingStep 3]

theorem comment_inserted_moving :
    (∀ last ∈ moving.getLast?, LogicalLine.goesOn last = false) ∧
      isComment (trim movingComment.toList) = true ∧
      ofLines (moving ++ movingAfter) = .ok movingSteps ∧
      ofLines (moving ++ movingComment :: movingAfter) =
        .ok (movingSteps.take 1 ++ [movingStep 4]) := by
  have hbefore : ∀ last ∈ moving.getLast?, LogicalLine.goesOn last = false := by decide
  have hcomment : isComment (trim movingComment.toList) = true := by decide
  have hsplit : Segment.splitLine (trim movingComment.toList) =
      .ok ("-- was".toList, [⟨"csv", ["a.b"]⟩, ⟨"nope", []⟩]) :=
        eq_ok_of_toOption (by decide +kernel)
  have hmarkers : ∀ query segments,
      Segment.splitLine (trim movingComment.toList) = .ok (query, segments) →
      ∀ s ∈ segments, Directive.isMarkerKind s.kind = false := by
    intro query segments h
    rw [hsplit] at h
    cases h
    decide
  have hplain : ofLines (moving ++ movingAfter) = .ok movingSteps :=
    eq_ok_of_toOption (by decide +kernel)
  have hinserted := comment_inserted movingAfter hbefore (by decide) hcomment hmarkers
  have hnone : loopSegment? (trim movingComment.toList) = none := by
    rw [loopSegment?, hsplit]
    decide
  rw [hnone] at hinserted
  refine ⟨hbefore, hcomment, hplain, hinserted.trans ?_⟩
  dsimp only
  rw [hplain]
  decide

def strayComment : String := "-- note => batch_size:100"

theorem stray_comment_refused :
    isComment (trim strayComment.toList) = true ∧ LogicalLine.goesOn strayComment = false ∧
      Segment.splitLine (trim strayComment.toList) =
        .ok ("-- note".toList, [⟨"batch_size", ["100"]⟩]) ∧
      Directive.isMarkerKind "batch_size" = false ∧ (ofLines ["SELECT 1 => var:x"]).isOk = true ∧
      ofLines [strayComment, "SELECT 1 => var:x"] =
        .error (.malformed 1 "-- note => batch_size:100" (.unknownKind "batch_size")) := by
  refine ⟨by decide, by decide, eq_ok_of_toOption (by decide +kernel), by decide, ?_, ?_⟩
  · decide +kernel
  · decide +kernel

end Step

end TableFlow
