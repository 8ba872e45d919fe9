import TableFlow.Proofs.Script.References
import TableFlow.Proofs.Script.TreeShape
import TableFlow.Script.Job

namespace TableFlow

theorem isNameChar_of_isName {name : String} (h : Directive.isName name = true) :
    ∀ c ∈ name.toList, Text.isNameChar c = true := by
  rw [Directive.isName, Bool.and_eq_true] at h
  exact List.all_eq_true.mp h.2

theorem notMem_of_isName {name : String} (h : Directive.isName name = true) {c : Char}
    (hc : Text.isNameChar c = false) :
    c ∉ name.toList := fun hm => by
  rw [isNameChar_of_isName h c hm] at hc
  cases hc

def Sink.tables : Sink → List String
  | .localTable name _ => [name]
  | .variable _ => []
  | .remoteObject _ _ idsTable => idsTable.toList

def Step.tables (s : Step) : List String := s.sinks.flatMap Sink.tables ++ s.localSources

def Sink.names : Sink → List String
  | .localTable name _ => [name]
  | .variable name => [name]
  | .remoteObject object _ idsTable => object :: idsTable.toList

theorem Sink.tables_subset_names (s : Sink) : s.tables ⊆ s.names := by
  rcases s with ⟨name, cached⟩ | name | ⟨object, op, idsTable⟩
  · exact List.Subset.refl _
  · exact List.nil_subset _
  · exact List.subset_cons_self _ _

def LoopMarker.names : LoopMarker → List String
  | .plain => []
  | .opens param loopId => [param, loopId]
  | .closes loopId => [loopId]

def Source.names : Source → List String
  | .localTables names => names
  | .remoteObject _ object => [object]

/-- All that a step names: tables, variables, objects and loops. -/
def Step.names (s : Step) : List String :=
  s.sinks.flatMap Sink.names ++ s.marker.names ++ s.source.toList.flatMap Source.names

def Directive.names : Directive → List String
  | .sink s => s.names
  | .opens param loopId => [param, loopId]
  | .closes loopId => [loopId]

def Draft.names (d : Draft) : List String := d.sinks.flatMap Sink.names ++ d.marker.names

theorem isName_ofList_reference {before : Option Char} {cs after : List Char} {r : Reference}
    (h : Reference.at? before cs = some (r, after)) :
    Directive.isName (String.ofList r.name) = true := by
  unfold Reference.at? at h
  split at h
  · rename_i endpoint n rest _
    split at h
    · rename_i hstart
      have hn : Text.isNameStart n = true := by
        rw [Bool.and_eq_true] at hstart
        exact hstart.1
      obtain ⟨rfl, -⟩ := Prod.mk.inj (Option.some.inj h)
      rw [Directive.isName, String.toList_ofList, List.all_cons, Text.isNameChar_of_isNameStart hn,
        List.all_takeWhile]
      simp
    · cases h
  · cases h

theorem isName_of_mem_references {piece : SqlPiece} {r : Reference} (h : r ∈ piece.references) :
    Directive.isName (String.ofList r.name) = true := by
  obtain ⟨_, _, _, hat⟩ := SqlPiece.exists_at?_of_mem_references h
  exact isName_ofList_reference hat

theorem isName_of_mem_localNames {refs : List Reference}
    (h : ∀ r ∈ refs, Directive.isName (String.ofList r.name) = true) :
    ∀ name ∈ Source.localNames refs, Directive.isName name = true := by
  intro name hname
  rw [Source.localNames, List.mem_eraseDups] at hname
  obtain ⟨r, hr, rfl⟩ := List.mem_map.mp hname
  exact h r (List.mem_filter.mp hr).1

theorem isName_of_mem_remoteObjects {refs : List Reference} {object : Endpoint × String}
    (h : ∀ r ∈ refs, Directive.isName (String.ofList r.name) = true)
    (ho : object ∈ Source.remoteObjects refs) :
    Directive.isName object.2 = true := by
  rw [Source.remoteObjects, List.mem_eraseDups] at ho
  obtain ⟨r, hr, he⟩ := List.mem_filterMap.mp ho
  obtain ⟨endpoint, _, rfl⟩ := Option.map_eq_some_iff.mp he
  exact h r hr

theorem isName_of_infer {query bare : String} {sinks : List Sink} {source : Option Source}
    (h : Source.infer query sinks = .ok (bare, source)) :
    ∀ name ∈ source.toList.flatMap Source.names, Directive.isName name = true := by
  have hrefs : ∀ r ∈ (SqlPiece.ofQuery query.toList).flatMap SqlPiece.references,
      Directive.isName (String.ofList r.name) = true := by
    intro r hr
    obtain ⟨piece, _, hp⟩ := List.mem_flatMap.mp hr
    exact isName_of_mem_references hp
  simp only [Source.infer] at h
  split at h
  · split at h
    · cases h
      exact List.forall_mem_nil _
    · cases h
      rw [Option.toList_some, List.flatMap_singleton]
      exact isName_of_mem_localNames hrefs
  · rename_i endpoint object hobjects
    split at h
    · cases h
      intro name hname
      obtain rfl := List.mem_singleton.mp hname
      exact isName_of_mem_remoteObjects hrefs (by rw [hobjects]; exact List.mem_singleton_self _)
    · cases h
  · cases h

theorem names_of_remoteSink {op object : String} {idsTable : Option String} {d : Directive}
    (h : Directive.remoteSink op object idsTable = .ok d) :
    d.names = object :: idsTable.toList := by
  unfold Directive.remoteSink at h
  split at h <;> cases h
  rfl

theorem names_of_ofSegment {s : Segment} {d : Directive} (h : Directive.ofSegment s = .ok d) :
    d.names ⊆ s.fields := by
  unfold Directive.ofSegment at h
  split at h
  case h_1 hfields | h_2 hfields | h_3 hfields | h_5 hfields =>
    cases h
    rw [hfields]
    exact List.Subset.refl _
  case h_4 hfields =>
    cases h
    rw [hfields]
    exact List.cons_subset_cons _ (List.nil_subset _)
  case h_6 hfields | h_7 hfields =>
    rw [names_of_remoteSink h, hfields]
    exact List.subset_cons_self _ _
  case h_8 => cases h

theorem eq_ok_of_toOption {ε α : Type} {x : Except ε α} {a : α} (h : x.toOption = some a) :
    x = .ok a := by
  cases x with
  | error e => cases h
  | ok b => exact congrArg _ (Option.some.inj h)

namespace Draft

theorem names_of_apply {d d' : Draft} {directive : Directive} (h : d.apply directive = .ok d') :
    d'.names ⊆ d.names ++ directive.names := by
  cases directive with
  | sink sink =>
      rw [apply] at h
      split at h <;> cases h
      intro name hname
      simp only [names, List.flatMap_append, List.flatMap_singleton, List.mem_append,
        Directive.names] at hname ⊢
      exact or_right_comm.mp hname
  | opens param loopId =>
      cases h
      intro name hname
      rcases List.mem_append.mp hname with hname | hname
      · exact List.mem_append_left _ (List.mem_append_left _ hname)
      · exact List.mem_append_right _ hname
  | closes loopId =>
      rw [apply] at h
      split at h <;> cases h
      intro name hname
      rcases List.mem_append.mp hname with hname | hname
      · exact List.mem_append_left _ (List.mem_append_left _ hname)
      · exact List.mem_append_right _ hname

theorem isName_of_add {d d' : Draft} {s : Segment} (h : d.add s = .ok d')
    (hd : ∀ name ∈ d.names, Directive.isName name = true) :
    ∀ name ∈ d'.names, Directive.isName name = true := by
  unfold add at h
  split at h
  · cases h
  · rename_i hfind
    have hfields : ∀ field ∈ s.fields, Directive.isName field = true := by simpa using hfind
    split at h
    · cases h
    · obtain ⟨directive, hs, ha⟩ := bind_eq_ok_iff.mp h
      intro name hname
      rcases List.mem_append.mp (names_of_apply ha hname) with hname | hname
      · exact hd name hname
      · exact hfields name (names_of_ofSegment hs hname)

theorem foldlM_preserves {P : Draft → Prop} (hadd : ∀ s d d', d.add s = .ok d' → P d → P d')
    {segments : List Segment} {d d' : Draft} (h : segments.foldlM add d = .ok d') (hd : P d) :
    P d' := by
  induction segments generalizing d with
  | nil =>
      cases h
      exact hd
  | cons s rest ih =>
      rw [List.foldlM_cons] at h
      obtain ⟨next, ha, hr⟩ := bind_eq_ok_iff.mp h
      exact ih hr (hadd s d next ha hd)

theorem isName_of_foldlM {segments : List Segment} {d d' : Draft}
    (h : segments.foldlM add d = .ok d') (hd : ∀ name ∈ d.names, Directive.isName name = true) :
    ∀ name ∈ d'.names, Directive.isName name = true :=
  foldlM_preserves (P := fun d => ∀ name ∈ d.names, Directive.isName name = true)
    (fun _ _ _ => isName_of_add) h hd

end Draft

namespace Step

theorem isName_of_ofStatement {line : Nat} {text : List Char} {opened opened' : List String}
    {step : Option Step} (h : ofStatement line text opened = .ok (step, opened')) :
    ∀ s ∈ step, ∀ name ∈ s.names, Directive.isName name = true := by
  unfold ofStatement at h
  obtain ⟨⟨query, segments⟩, _, h⟩ := bind_eq_ok_iff.mp h
  obtain ⟨d, hd, h⟩ := bind_eq_ok_iff.mp h
  have hdraft := Draft.isName_of_foldlM hd (List.forall_mem_nil _)
  split at h
  · cases h
  · obtain ⟨⟨bare, source⟩, hsource, h⟩ := bind_eq_ok_iff.mp h
    cases h
    intro s hs name hname
    obtain rfl := Option.some.inj hs
    rcases List.mem_append.mp hname with hname | hname
    · exact hdraft name hname
    · exact isName_of_infer hsource name hname

theorem isName_of_ofComment {line : Nat} {text : List Char} {opened opened' : List String}
    {step : Option Step} (h : ofComment line text opened = .ok (step, opened')) :
    ∀ s ∈ step, ∀ name ∈ s.names, Directive.isName name = true := by
  unfold ofComment at h
  split at h
  · cases h
    nofun
  · obtain ⟨d, hd, h⟩ := bind_eq_ok_iff.mp h
    have hdraft := Draft.isName_of_foldlM hd (List.forall_mem_nil _)
    cases h
    intro s hs name hname
    split at hs <;> cases hs
    -- The step of a comment has no sinks and no source: all that it has from the draft is its
    -- marker.
    refine hdraft name (List.mem_append_right _ ?_)
    simpa [names] using hname

section Lines

variable {P : Step → Prop}
  (hstatement : ∀ line text opened opened' step,
    ofStatement line text opened = .ok (step, opened') → ∀ s ∈ step, P s)
  (hcomment : ∀ line text opened opened' step,
    ofComment line text opened = .ok (step, opened') → ∀ s ∈ step, P s)

include hstatement hcomment

theorem forall_of_ofLine {line : LogicalLine} {opened opened' : List String} {step : Option Step}
    (h : ofLine line opened = .ok (step, opened')) : ∀ s ∈ step, P s := by
  simp only [ofLine] at h
  split at h
  · cases h
    nofun
  · have h := TreeBuilder.mapError_eq_ok_iff.mp h
    split at h
    · exact hcomment _ _ _ _ _ h
    · exact hstatement _ _ _ _ _ h

/-- What holds of the step of any line holds of all steps of a script. -/
theorem forall_of_ofLogicalLines {opened : List String} {lines : List LogicalLine}
    {steps : List Step} (h : ofLogicalLines opened lines = .ok steps) : ∀ s ∈ steps, P s := by
  induction lines generalizing opened steps with
  | nil =>
      cases h
      nofun
  | cons line rest ih =>
      obtain ⟨⟨step, opened'⟩, hstep, h⟩ := bind_eq_ok_iff.mp h
      obtain ⟨steps', hrest, h⟩ := bind_eq_ok_iff.mp h
      cases h
      intro s hs
      rcases List.mem_append.mp hs with hs | hs
      · exact forall_of_ofLine hstatement hcomment hstep s (Option.mem_toList.mp hs)
      · exact ih hrest s hs

end Lines

theorem isName_of_ofLogicalLines {opened : List String} {lines : List LogicalLine}
    {steps : List Step} (h : ofLogicalLines opened lines = .ok steps) :
    ∀ s ∈ steps, ∀ name ∈ s.names, Directive.isName name = true :=
  forall_of_ofLogicalLines (fun _ _ _ _ _ => isName_of_ofStatement)
    (fun _ _ _ _ _ => isName_of_ofComment) h

theorem tables_subset_names (s : Step) : s.tables ⊆ s.names := by
  intro name hname
  rcases List.mem_append.mp hname with hname | hname
  · obtain ⟨sink, hsink, hn⟩ := List.mem_flatMap.mp hname
    apply List.mem_append_left
    apply List.mem_append_left
    exact List.mem_flatMap.mpr ⟨sink, hsink, sink.tables_subset_names hn⟩
  · refine List.mem_append_right _ ?_
    rw [localSources] at hname
    split at hname
    · rename_i hsource
      rw [hsource]
      exact List.mem_append_left _ hname
    · cases hname

end Step

theorem exists_ofLines {lines : List String} {job : Job} (h : Job.ofLines lines = .ok job) :
    ∃ steps, Step.ofLines lines = .ok steps ∧ job.steps ⊆ steps := by
  obtain ⟨steps, hsteps, h⟩ := bind_eq_ok_iff.mp h
  obtain ⟨nodes, hnodes, h⟩ := bind_eq_ok_iff.mp h
  cases h
  refine ⟨steps, hsteps, fun step hstep => ?_⟩
  rw [Job.steps, stepsOf_ofSteps hnodes] at hstep
  exact (List.mem_filter.mp hstep).1

/-- Every table of an accepted script has a name of letters, digits and underscores. -/
theorem isName_of_ofLines {lines : List String} {job : Job} (h : Job.ofLines lines = .ok job) :
    ∀ step ∈ job.steps, ∀ name ∈ step.tables, Directive.isName name = true := by
  obtain ⟨steps, hsteps, hsub⟩ := exists_ofLines h
  intro step hstep name hname
  exact Step.isName_of_ofLogicalLines hsteps step (hsub hstep) name (step.tables_subset_names hname)

def Job.unlooped (lines : List String) (steps : List Step) : Job :=
  ⟨steps.map .leaf, Sha256.hex (String.join (lines.map (· ++ "\n")))⟩

theorem ofLines_unlooped {lines : List String} {steps : List Step}
    (hsteps : (Step.ofLines lines).toOption = some steps)
    (hnodes : StepNode.ofSteps steps = .ok (steps.map .leaf)) :
    Job.ofLines lines = .ok (.unlooped lines steps) := by
  have hlines := eq_ok_of_toOption hsteps
  simp [Job.ofLines, hlines, hnodes, Job.unlooped, bind, Except.bind]

end TableFlow
