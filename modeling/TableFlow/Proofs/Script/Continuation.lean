import Mathlib.Data.List.Forall2
import TableFlow.Proofs.Text.Trim
import TableFlow.Script.Parse

namespace TableFlow

open Text

/-- A line, and one way to write it over several physical lines. It is broken at single spaces
between two characters that are not blank. A backslash takes the place of such a space, and any
blanks may stand around it and before the next line. -/
inductive Broken : String → List String → Prop
  | whole (line) : Broken line [line]
  | split {front before after indent back next rest} :
      front.toList.getLast?.all isBlank = false → back.toList.head?.all isBlank = false →
      before.toList.all isBlank = true → after.toList.all isBlank = true →
        indent.toList.all isBlank = true →
      Broken back (next :: rest) →
      Broken (front ++ " " ++ back) ((front ++ before ++ "\\" ++ after) :: (indent ++ next) :: rest)

namespace LogicalLine

variable {line front back before after indent : String} {parts rest : List String}

theorem piece_of_last {raw : List Char} (h : (trimEnd raw).getLast? ≠ some '\\') :
    piece raw = (trimEnd raw, false) := by
  rw [piece, if_neg h]

theorem piece_of_backslash (hfront : front.toList.getLast?.all isBlank = false)
    (hbefore : before.toList.all isBlank = true) (hafter : after.toList.all isBlank = true) :
    piece (front ++ before ++ "\\" ++ after).toList = (front.toList, true) := by
  have hbackslash : (front.toList ++ before.toList ++ ['\\']).getLast? = some '\\' :=
    List.getLast?_concat
  have hbody : trimEnd (front ++ before ++ "\\" ++ after).toList =
      front.toList ++ before.toList ++ ['\\'] := by
    simp only [String.toList_append]
    rw [trimEnd_append_gap hafter]
    exact trimEnd_of_last (by rw [show "\\".toList = ['\\'] from rfl, hbackslash]; rfl)
  rw [piece, hbody, if_pos hbackslash, List.dropLast_concat, trimEnd_append_gap hbefore,
    trimEnd_of_last hfront]

theorem extend_indent {body : List Char} (hindent : indent.toList.all isBlank = true)
    (hbody : body.head?.all isBlank = false) (pending : LogicalLine) (hp : pending.text ≠ "") :
    pending.extend (indent.toList ++ body) =
      { pending with text := pending.text ++ " " ++ String.ofList body } := by
  have hne : body ≠ [] := by
    rintro rfl
    cases hbody
  have hempty : body.isEmpty = false := by simpa using hne
  rw [extend, trimStart_gap_append hindent, trimStart_of_head hbody]
  simp [hempty, hp]

theorem ne_empty_of_last (hfront : front.toList.getLast?.all isBlank = false) : front ≠ "" := by
  rintro rfl
  simp at hfront

theorem head?_append_of_last (hfront : front.toList.getLast?.all isBlank = false) (back : String) :
    (front ++ back).toList.head? = front.toList.head? := by
  rw [String.toList_append, List.head?_append_of_ne_nil]
  simpa using ne_empty_of_last hfront

theorem trimEnd_line (hback : back.toList.head?.all isBlank = false) (front : String) :
    trimEnd (front ++ " " ++ back).toList = (front ++ " ").toList ++ trimEnd back.toList := by
  rw [String.toList_append, trimEnd_append (trimEnd_ne_nil hback)]

theorem getLast?_line (hback : back.toList.head?.all isBlank = false) (front : String) :
    (trimEnd (front ++ " " ++ back).toList).getLast? = (trimEnd back.toList).getLast? := by
  rw [trimEnd_line hback, List.getLast?_append_of_ne_nil _ (trimEnd_ne_nil hback)]

/-- The rest of a broken line after its first space. What comes before that space is pending. -/
theorem joinFrom_pending (h : Broken line parts) (hhead : line.toList.head?.all isBlank = false)
    (hlast : (trimEnd line.toList).getLast? ≠ some '\\') {next : String}
    (hparts : parts = next :: rest) (hindent : indent.toList.all isBlank = true)
    (pending : LogicalLine) (hp : pending.text ≠ "") (number : Nat) (more : List String) :
    joinFrom number (some pending) ((indent ++ next) :: (rest ++ more)) =
      { pending with text := pending.text ++ " " ++ String.ofList (trimEnd line.toList) } ::
        joinFrom (number + parts.length) none more := by
  induction h generalizing indent pending number next rest with
  | whole line =>
      obtain ⟨rfl, rfl⟩ := List.cons.inj hparts
      have hbody : trimEnd (indent ++ line).toList = indent.toList ++ trimEnd line.toList := by
        rw [String.toList_append, trimEnd_append (trimEnd_ne_nil hhead)]
      have hpiece : piece (indent ++ line).toList =
          (indent.toList ++ trimEnd line.toList, false) := by
        rw [piece_of_last, hbody]
        rw [hbody, List.getLast?_append_of_ne_nil _ (trimEnd_ne_nil hhead)]
        exact hlast
      rw [joinFrom, hpiece]
      dsimp only
      rw [extend_indent hindent (by rw [head?_trimEnd hhead]; exact hhead) pending hp]
      rfl
  | @split front before after gap back next' rest' hfront hback hbefore hafter hgap _ ih =>
      obtain ⟨rfl, rfl⟩ := List.cons.inj hparts
      rw [getLast?_line hback] at hlast
      rw [String.append_assoc, head?_append_of_last hfront] at hhead
      have hindented : (indent ++ front).toList.getLast?.all isBlank = false := by
        rw [String.toList_append, List.getLast?_append_of_ne_nil _
          (by simpa using ne_empty_of_last hfront)]
        exact hfront
      have hpiece := piece_of_backslash hindented hbefore hafter
      rw [joinFrom, ← String.append_assoc, ← String.append_assoc, ← String.append_assoc, hpiece]
      dsimp only
      rw [String.toList_append, extend_indent hindent hhead pending hp]
      have hrest :=
        ih hback hlast rfl hgap { pending with text := pending.text ++ " " ++ front }
          (by simp) (number + 1)
      have htext : pending.text ++ " " ++ front ++ " " ++ String.ofList (trimEnd back.toList) =
          pending.text ++ " " ++ String.ofList (trimEnd (front ++ " " ++ back).toList) := by
        rw [trimEnd_line hback, String.ofList_append, String.ofList_toList]
        simp only [String.append_assoc]
      rw [if_pos rfl, List.cons_append, String.ofList_toList, hrest]
      simp only [htext, List.length_cons, Nat.add_assoc, Nat.add_comm 1]

theorem joinFrom_append (h : Broken line parts) (hlast : (trimEnd line.toList).getLast? ≠ some '\\')
    (number : Nat) (more : List String) :
    joinFrom number none (parts ++ more) =
      ⟨number, String.ofList (trimEnd line.toList)⟩ :: joinFrom (number + parts.length)
        none more := by
  cases h with
  | whole =>
      rw [List.singleton_append, joinFrom, piece_of_last hlast]
      rfl
  | @split front _ _ _ back _ _ hfront hback hbefore hafter hindent hrest =>
      rw [getLast?_line hback] at hlast
      rw [List.cons_append, joinFrom, piece_of_backslash hfront hbefore hafter]
      dsimp only
      rw [if_pos rfl, List.cons_append, String.ofList_toList,
        joinFrom_pending hrest hback hlast rfl hindent ⟨number, front⟩ (ne_empty_of_last hfront)]
      have htext : front ++ " " ++ String.ofList (trimEnd back.toList) =
          String.ofList (trimEnd (front ++ " " ++ back).toList) := by
        rw [trimEnd_line hback, String.ofList_append, String.ofList_toList]
      simp only [htext, List.length_cons, Nat.add_assoc, Nat.add_comm 1]

theorem joinFrom_flatten {lines : List String} {parts : List (List String)}
    (h : List.Forall₂ Broken lines parts) (hlast : ∀ line ∈ lines, (trimEnd line.toList).getLast? ≠
      some '\\') (number : Nat) :
    joinFrom number none parts.flatten = lines.mapIdx fun i line =>
      ⟨number + (parts.take i).flatten.length, String.ofList (trimEnd line.toList)⟩ := by
  induction h generalizing number with
  | nil => rfl
  | cons hline _ ih =>
      obtain ⟨hfirst, hrest⟩ := List.forall_mem_cons.mp hlast
      rw [List.flatten_cons, joinFrom_append hline hfirst, ih hrest, List.mapIdx_cons]
      simp [Nat.add_assoc]

theorem joinFrom_unbroken {lines : List String}
    (hlast : ∀ line ∈ lines, (trimEnd line.toList).getLast? ≠ some '\\') (number : Nat) :
    joinFrom number none lines = lines.mapIdx fun i line =>
      ⟨number + i, String.ofList (trimEnd line.toList)⟩ := by
  induction lines generalizing number with
  | nil => rfl
  | cons line rest ih =>
      obtain ⟨hfirst, hrest⟩ := List.forall_mem_cons.mp hlast
      have hline := joinFrom_append (.whole line) hfirst number rest
      rw [List.singleton_append] at hline
      rw [hline, ih hrest, List.mapIdx_cons]
      simp [Nat.add_assoc, Nat.add_comm 1]

def renumber (f : Nat → Nat) (line : LogicalLine) : LogicalLine :=
  { line with number := f line.number }

end LogicalLine

def firstLine (parts : List (List String)) (number : Nat) : Nat :=
  (parts.take (number - 1)).flatten.length + 1

theorem LogicalLine.ofLines_flatten {lines : List String} {parts : List (List String)}
    (h : List.Forall₂ Broken lines parts)
    (hlast : ∀ line ∈ lines, (trimEnd line.toList).getLast? ≠ some '\\') :
    ofLines parts.flatten = (ofLines lines).map (renumber (firstLine parts)) := by
  rw [ofLines, joinFrom_flatten h hlast, ofLines, joinFrom_unbroken hlast]
  apply List.ext_getElem
  · simp
  · simp [renumber, firstLine, Nat.add_comm 1]

def Step.renumber (f : Nat → Nat) (step : Step) : Step := { step with line := f step.line }

def ScriptError.renumber (f : Nat → Nat) : ScriptError → ScriptError
  | .malformed line text fault => .malformed (f line) text fault
  | .misnested line (.crosses loopId innermost other) =>
      .misnested (f line) (.crosses loopId innermost (f other))
  | .misnested line fault => .misnested (f line) fault

namespace Step

variable (f : Nat → Nat) (number : Nat) (text : List Char) (opened : List String)

theorem ofComment_renumber :
    ofComment (f number) text opened = (ofComment number text opened).map fun p =>
      (p.1.map (renumber f), p.2) := by
  unfold ofComment
  split
  · rfl
  · rename_i segments _
    cases (segments.filter isLoopSegment).foldlM Draft.add { opened } with
    | error fault => rfl
    | ok d => by_cases hm : d.marker = .plain <;> simp [hm, bind, Except.bind, Except.map, renumber]

theorem ofStatement_renumber :
    ofStatement (f number) text opened = (ofStatement number text opened).map fun p =>
      (p.1.map (renumber f), p.2) := by
  unfold ofStatement
  cases Segment.splitLine text with
  | error fault => rfl
  | ok parts =>
      obtain ⟨query, segments⟩ := parts
      simp only [bind, Except.bind]
      cases segments.foldlM Draft.add { opened } with
      | error fault => rfl
      | ok d =>
          dsimp only
          split
          · rfl
          · cases Source.infer (String.ofList query) d.sinks <;> rfl

/-- The number of a line is passed on to its step or its fault, and nothing else depends on it. -/
theorem ofLine_renumber (line : LogicalLine) :
    ofLine (line.renumber f) opened =
      ((ofLine line opened).map fun p => (p.1.map (renumber f), p.2)).mapError
        (ScriptError.renumber f) := by
  simp only [ofLine, LogicalLine.renumber, ofComment_renumber, ofStatement_renumber]
  split
  · rfl
  · split
    · cases ofComment line.number (Text.trim line.text.toList) opened <;> rfl
    · cases ofStatement line.number (Text.trim line.text.toList) opened <;> rfl

theorem ofLogicalLines_renumber (lines : List LogicalLine) :
    ofLogicalLines opened (lines.map (·.renumber f)) =
      ((ofLogicalLines opened lines).map (List.map (renumber f))).mapError
        (ScriptError.renumber f) := by
  induction lines generalizing opened with
  | nil => rfl
  | cons line rest ih =>
      rw [List.map_cons, ofLogicalLines, ofLogicalLines, ofLine_renumber]
      cases ofLine line opened with
      | error e => rfl
      | ok p =>
          obtain ⟨step, opened'⟩ := p
          simp only [Except.map, Except.mapError, bind, Except.bind, ih]
          cases ofLogicalLines opened' rest with
          | error e => rfl
          | ok steps => cases step <;> rfl

/-- Broken lines give the steps of the lines as they were, or their fault. Only the numbers of
lines are others: each is that of the physical line where the line now begins. -/
theorem ofLines_of_broken {lines : List String} {parts : List (List String)}
    (h : List.Forall₂ Broken lines parts)
    (hlast : ∀ line ∈ lines, (trimEnd line.toList).getLast? ≠ some '\\') :
    ofLines parts.flatten =
      ((ofLines lines).map (List.map (renumber (firstLine parts)))).mapError
        (ScriptError.renumber (firstLine parts)) := by
  rw [ofLines, LogicalLine.ofLines_flatten h hlast, ofLogicalLines_renumber, ofLines]

def refused : List String := ["SELECT 1 AS a => csv:t", "SELECT a\\ FROM csv.t => nope:x"]

def refusedParts : List (List String) :=
  [["SELECT 1 AS a \\ ", "\t=> \\", "  csv:t"], ["SELECT a\\\\", "FROM csv.t => nope:x"]]

theorem broken_refused : List.Forall₂ Broken refused refusedParts := by
  have hfirst : Broken ("SELECT 1 AS a" ++ " " ++ ("=>" ++ " " ++ "csv:t"))
      ["SELECT 1 AS a" ++ " " ++ "\\" ++ " ", "\t" ++ ("=>" ++ " " ++ "\\" ++ ""),
        "  " ++ "csv:t"] :=
    .split (by decide) (by decide) (by decide) (by decide) (by decide)
      (.split (by decide) (by decide) (by decide) (by decide) (by decide) (.whole _))
  have hsecond : Broken ("SELECT a\\" ++ " " ++ "FROM csv.t => nope:x")
      ["SELECT a\\" ++ "" ++ "\\" ++ "", "" ++ "FROM csv.t => nope:x"] :=
    .split (by decide) (by decide) (by decide) (by decide) (by decide) (.whole _)
  exact .cons hfirst (.cons hsecond .nil)

theorem ofLines_of_broken_refused :
    List.Forall₂ Broken refused refusedParts ∧
      (∀ line ∈ refused, (trimEnd line.toList).getLast? ≠ some '\\') ∧
      ofLines refusedParts.flatten =
        .error (.malformed 4 "SELECT a\\ FROM csv.t => nope:x" (.unknownKind "nope")) := by
  have hlast : ∀ line ∈ refused, (trimEnd line.toList).getLast? ≠ some '\\' := by decide
  refine ⟨broken_refused, hlast, ?_⟩
  rw [ofLines_of_broken broken_refused hlast]
  have hrefused : ofLines refused =
      .error (.malformed 2 "SELECT a\\ FROM csv.t => nope:x" (.unknownKind "nope")) := by
    decide +kernel
  rw [hrefused]
  decide

end Step
end TableFlow
