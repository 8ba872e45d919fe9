import TableFlow.Proofs.Script.OpenLoops

namespace TableFlow

namespace TreeBuilder

variable {b : TreeBuilder} {step : Step}

/-- A tree closes none but its innermost loop, which is also the innermost one of its id. -/
theorem openAfter_of_adds {b' : TreeBuilder} (h : Adds b step b') :
    step.marker.openAfter b.ids = some b'.ids := by
  cases h with
  | leaf hm => simp [hm, LoopMarker.openAfter]
  | opens hm | opensBare hm => simp [hm, LoopMarker.openAfter]
  | @closes l outer hl hm =>
      have hids : b.ids = l.loopId :: outer.map (·.loopId) := by rw [ids, hl, List.map_cons]
      simp [hm, LoopMarker.openAfter, hids]

theorem openAfter_of_foldlM {steps : List Step} {b' : TreeBuilder}
    (h : steps.foldlM add b = .ok b') :
    steps.foldlM Step.openAfter b.ids = some b'.ids := by
  induction steps generalizing b with
  | nil =>
      cases h
      rfl
  | cons step rest ih =>
      obtain ⟨next, ha, hr⟩ := foldlM_cons_eq_ok_iff.mp h
      exact Step.foldlM_openAfter_cons.mpr ⟨next.ids, openAfter_of_adds ha, ih hr⟩

end TreeBuilder

namespace Step

/-- The script comes to the segment `batch_end:loopId` of a line: the lines before it are
accepted and have given `steps`, and the segments before it are accepted and have no marker
among them. -/
inductive ReachesEnding (lines : List String) (steps : List Step) (line : LogicalLine)
    (loopId : String) : Prop
  | intro {before after opened query segments front back d} :
      LogicalLine.ofLines lines = before ++ line :: after →
        readLines [] before = .ok (steps, opened) →
      Segment.splitLine (Text.trim line.text.toList) = .ok (query, segments) →
      counted (Text.trim line.text.toList) segments = front ++ ⟨"batch_end", [loopId]⟩ :: back →
      front.foldlM Draft.add { opened } = .ok d → d.marker = .plain →
        Directive.isName loopId = true →
      ReachesEnding lines steps line loopId

theorem splitLine_nil : Segment.splitLine [] = .ok ([], []) := by
  simp [Segment.splitLine, Segment.spanQuery, Segment.readSegments, Segment.skipGap, Text.trim,
    Text.trimEnd, Text.trimStart]

variable {lines : List String} {steps : List Step} {line : LogicalLine} {loopId : String}
  {opened : List String} {text query : List Char} {d : Draft} {fault : SyntaxFault}

theorem notOpen_ne_of_ofDraft {number : Nat} (h : ofDraft number text query d = .error fault) :
    fault ≠ .notOpen loopId := by
  unfold ofDraft at h
  split at h
  · cases h
  · split at h
    · cases h
      rintro ⟨⟩
    · obtain h | ⟨_, -, h⟩ := bind_eq_error_iff.mp h
      · exact Source.notOpen_ne_of_infer h loopId
      · cases h

/-- What comes after the marker of a line has other faults. -/
theorem notOpen_ne_of_read {number : Nat} {segments : List Segment} (hd : d.marker ≠ .plain)
    (h : segments.foldlM Draft.add d >>= ofDraft number text query = .error fault) :
    fault ≠ .notOpen loopId := by
  obtain hsegments | ⟨last, -, hlast⟩ := bind_eq_error_iff.mp h
  · exact Draft.notOpen_ne_of_foldlM hd hsegments loopId
  · exact notOpen_ne_of_ofDraft hlast

theorem ofLine_of_closing {segments front back : List Segment}
    (hsplit : Segment.splitLine (Text.trim line.text.toList) = .ok (query, segments))
    (hcounted : counted (Text.trim line.text.toList) segments =
      front ++ ⟨"batch_end", [loopId]⟩ :: back)
    (hfront : front.foldlM Draft.add { opened } = .ok d) (hplain : d.marker = .plain)
    (hname : Directive.isName loopId = true) :
    ofLine line opened = (d.apply (.closes loopId) >>= fun next => back.foldlM Draft.add next >>=
      ofDraft line.number (Text.trim line.text.toList) query).mapError
        (.malformed line.number (String.ofList (Text.trim line.text.toList))) := by
  have hne : Text.trim line.text.toList ≠ [] := by
    intro hnil
    rw [hnil, splitLine_nil] at hsplit
    cases hsplit
    simp [counted] at hcounted
  rw [ofLine_of_splitLine hne hsplit, hcounted, List.foldlM_append, hfront]
  change ((((⟨"batch_end", [loopId]⟩ : Segment) :: back).foldlM Draft.add d >>= _).mapError _) = _
  rw [List.foldlM_cons, Draft.add_closing hplain hname, bind_assoc]

theorem ofLines_notOpen_iff (h : ReachesEnding lines steps line loopId) :
    ofLines lines =
        .error (.malformed line.number (String.ofList (Text.trim line.text.toList))
          (.notOpen loopId)) ↔
      endings loopId steps = beginnings loopId steps := by
  obtain @⟨before, after, opened, query, segments, front, back, d, hlines, hsteps, hsplit, hcounted,
    hfront, hplain, hname⟩ := h
  have hopened : d.opened = opened := by
    have hfold := Draft.openAfter_of_foldlM hfront
    rw [hplain] at hfold
    exact (Option.some.inj hfold).symm
  have hclosed : endings loopId steps = beginnings loopId steps ↔ loopId ∉ d.opened := by
    have hcount := count_of_foldlM (openAfter_of_readLines hsteps) loopId
    rw [hopened, ← List.count_eq_zero]
    simp only [List.count_nil] at hcount
    omega
  have hrest (e : ScriptError) : ofLines lines = .error e ↔
      ofLogicalLines opened (line :: after) = .error e := by
    rw [ofLines, hlines, ofLogicalLines_append hsteps]
    cases ofLogicalLines opened (line :: after) <;> simp [Except.map]
  have hline := ofLine_of_closing hsplit hcounted hfront hplain hname
  rw [hrest, hclosed]
  constructor
  · -- An open loop is closed. The rest of the line has other faults, and the lines after it have
    -- other numbers.
    intro herror hopen
    rw [Draft.apply, if_pos hopen] at hline
    obtain herror | ⟨_, -, herror⟩ := bind_eq_error_iff.mp herror
    · rw [hline] at herror
      obtain ⟨fault, hfault, he⟩ := TreeBuilder.mapError_eq_error_iff.mp herror
      obtain rfl : SyntaxFault.notOpen loopId = fault := (ScriptError.malformed.inj he).2.2
      obtain hnext | ⟨next, hnext, hfault⟩ := bind_eq_error_iff.mp hfault
      · cases hnext
      · have hmarker : next.marker ≠ .plain := by
          rw [← Except.ok.inj hnext]
          rintro ⟨⟩
        exact notOpen_ne_of_read hmarker hfault rfl
    · obtain herror | ⟨_, -, herror⟩ := bind_eq_error_iff.mp herror
      · obtain ⟨later, hlater, hnumber⟩ := exists_line_of_error herror
        exact Nat.ne_of_lt (LogicalLine.number_lt_of_split hlines hlater) hnumber
      · cases herror
  · intro hnot
    rw [Draft.apply, if_neg hnot] at hline
    rw [ofLogicalLines, hline]
    rfl

end Step

/-- Lines and tree ask alike whether a loop that ends is open. -/
theorem nesting_checks_agree (lines : List String) :
    (∀ steps line loopId, Step.ReachesEnding lines steps line loopId →
      (Step.ofLines lines =
          .error
            (.malformed line.number (String.ofList (Text.trim line.text.toList))
              (.notOpen loopId)) ↔
        Step.endings loopId steps = Step.beginnings loopId steps)) ∧
    ∀ steps, Step.ofLines lines = .ok steps →
      (∀ front ending back loopId b, steps = front ++ ending :: back →
        ending.marker = .closes loopId →
        front.foldlM TreeBuilder.add {} = .ok b → loopId ∈ b.ids) ∧
      ∀ e, StepNode.ofSteps steps = .error e → ∃ line fault, e = .misnested line fault ∧
        ((∃ loopId innermost other, fault = .crosses loopId innermost other) ∨
          (∃ loopId, fault = .reusedId loopId) ∨
          (∃ loopId, fault = .noDriver loopId ∨ fault = .unfitDriver loopId) ∨
            ∃ loopId, fault = .neverClosed loopId) := by
  refine ⟨fun steps line loopId h => Step.ofLines_notOpen_iff h, fun steps hsteps => ?_⟩
  obtain ⟨opened, hread⟩ := Step.exists_readLines hsteps
  have hrun := Step.openAfter_of_readLines hread
  have hopen : ∀ front ending back loopId b, steps = front ++ ending :: back →
      ending.marker = .closes loopId →
      front.foldlM TreeBuilder.add {} = .ok b → loopId ∈ b.ids := by
    rintro front ending back loopId b rfl hm hb
    rw [List.foldlM_append] at hrun
    obtain ⟨ids, hids, hrun⟩ := Option.bind_eq_some_iff.mp hrun
    obtain ⟨next, hnext, -⟩ := Step.foldlM_openAfter_cons.mp hrun
    -- Both checks have gone through the same steps, so they hold the same loops open.
    obtain rfl : b.ids = ids :=
      Option.some.inj ((TreeBuilder.openAfter_of_foldlM hb).symm.trans hids)
    rw [hm] at hnext
    exact LoopMarker.mem_of_openAfter hnext
  refine ⟨hopen, fun e he => ?_⟩
  obtain ⟨front, step, back, b, fault, hsteps, hb, rfl, hfault⟩ | ⟨line, loopId, rfl⟩ :=
    TreeBuilder.misnests_of_ofSteps he
  · refine ⟨step.line, fault, rfl, ?_⟩
    cases hfault with
    | reusedId => exact .inr (.inl ⟨_, rfl⟩)
    | noDriver => exact .inr (.inr (.inl ⟨_, .inl rfl⟩))
    | unfitDriver => exact .inr (.inr (.inl ⟨_, .inr rfl⟩))
    | neverOpened hm hl =>
        have hid := hopen front step back _ b hsteps hm hb
        simp [TreeBuilder.ids, hl] at hid
    | crosses => exact .inl ⟨_, _, _, rfl⟩
  · exact ⟨line, _, rfl, .inr (.inr (.inr ⟨loopId, rfl⟩))⟩

def crossing : List String :=
  ["SELECT 1 AS p => batch_begin:p:L", "SELECT 2 AS q => batch_begin:q:M",
    "-- done => csv:a.b => batch_end:L"]

def crossingSteps : List Step :=
  [{ line := 1, query := "SELECT 1 AS p", marker := .opens "p" "L",
     text := "SELECT 1 AS p => batch_begin:p:L" },
   { line := 2, query := "SELECT 2 AS q", marker := .opens "q" "M",
     text := "SELECT 2 AS q => batch_begin:q:M" },
   { line := 3, marker := .closes "L", text := "-- done => csv:a.b => batch_end:L" }]

def closedTwice : String := "SELECT 3 AS r => var:r => batch_end:L"

theorem reachesEnding_crossing :
    Step.ReachesEnding (crossing ++ [closedTwice]) crossingSteps ⟨4, closedTwice⟩ "L" := by
  refine @Step.ReachesEnding.intro _ _ _ _ (LogicalLine.ofLines crossing) [] ["M"]
    "SELECT 3 AS r".toList [⟨"var", ["r"]⟩, ⟨"batch_end", ["L"]⟩] [⟨"var", ["r"]⟩] []
    { sinks := [.variable "r"], opened := ["M"] } ?_ ?_ ?_ ?_ ?_ rfl ?_
  · decide +kernel
  · exact eq_ok_of_toOption (by decide +kernel)
  · exact eq_ok_of_toOption (by decide +kernel)
  · decide +kernel
  · exact eq_ok_of_toOption (by decide +kernel)
  · decide +kernel

theorem nesting_checks_agree_crossing :
    Step.ReachesEnding (crossing ++ [closedTwice]) crossingSteps ⟨4, closedTwice⟩ "L" ∧
      Step.ofLines (crossing ++ [closedTwice]) = .error (.malformed 4 closedTwice (.notOpen "L")) ∧
      Step.ofLines crossing = .ok crossingSteps ∧
      (∀ b, (crossingSteps.take 2).foldlM TreeBuilder.add {} = .ok b → "L" ∈ b.ids) ∧
      StepNode.ofSteps crossingSteps = .error (.misnested 3 (.crosses "L" "M" 2)) := by
  have htext : String.ofList (Text.trim closedTwice.toList) = closedTwice := by decide +kernel
  have hsteps : Step.ofLines crossing = .ok crossingSteps := eq_ok_of_toOption (by decide +kernel)
  have hrefused :=
    ((nesting_checks_agree (crossing ++ [closedTwice])).1 _ _ _ reachesEnding_crossing).mpr
      (by decide +kernel)
  rw [htext] at hrefused
  obtain ⟨hopen, -⟩ := (nesting_checks_agree crossing).2 _ hsteps
  exact ⟨reachesEnding_crossing, hrefused, hsteps, fun b hb => hopen _ _ [] "L" b rfl rfl hb, rfl⟩

end TableFlow
