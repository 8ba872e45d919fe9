import TableFlow.Proofs.Scope.Template
import TableFlow.Proofs.Script.Inference
import TableFlow.Proofs.Script.Names

namespace TableFlow

open SqlPiece

def Sink.variables : Sink → List String
  | .variable name => [name]
  | .localTable .. => []
  | .remoteObject .. => []

theorem Sink.variables_subset_names (s : Sink) : s.variables ⊆ s.names := by
  rcases s with ⟨name, cached⟩ | name | ⟨object, op, idsTable⟩
  · exact List.nil_subset _
  · exact List.Subset.refl _
  · exact List.nil_subset _

def Step.binds (s : Step) : List String := s.sinks.flatMap Sink.variables ++ s.marker.names

def opensWithDigit (name : String) : Bool := name.toList.head?.any Char.isDigit

/-- Where `csv.` and the name stand in code after a blank, and the name does not go on, the
query reads the table and has the bare name in that place. It is refused only if it names remote
objects as well. -/
def Source.Reads (name : String) : Prop :=
  ∀ query sinks front before b after back,
    ofQuery query.toList =
      front ++ .code (before ++ b :: ("csv.".toList ++ (name.toList ++ after))) :: back →
    Text.isBlank b = true → (∀ c ∈ after.head?, Text.isNameChar c = false) →
    match infer query sinks with
    | .ok (stripped, source) =>
      (∃ names, source = some (.localTables names) ∧ name ∈ names) ∧
        ∃ rest, stripped.toList = front.flatMap bare ++ (code before).bare ++ b ::
          (name.toList ++ rest) ∧
          rest = (Reference.scan name.toList.getLast? after).flatMap Reference.Item.bare ++
            back.flatMap bare
    | .error _ => remoteObjects ((ofQuery query.toList).flatMap references) ≠ []

/-- No query reads the table, whatever is written in it. -/
def Source.Overlooks (name : String) : Prop :=
  ∀ query sinks stripped names, infer query sinks = .ok (stripped, some (.localTables names)) →
    name ∉ names

def Scope.Fills (name : String) : Prop :=
  ∀ (s : Scope) (value : Value), s.get? name = some value → ∀ before after,
    s.interpolate (before ++ Template.placeholder name ++ after) =
      s.interpolate before ++ value.render ++ s.interpolate after

def Scope.Leaves (name : String) : Prop :=
  ∀ (s : Scope) before after,
    s.interpolate (before ++ Template.placeholder name ++ after) =
      s.interpolate before ++ Template.placeholder name ++ s.interpolate after

theorem Step.binds_subset_names (s : Step) : s.binds ⊆ s.names := by
  intro name hname
  rcases List.mem_append.mp hname with hname | hname
  · obtain ⟨sink, hsink, hn⟩ := List.mem_flatMap.mp hname
    apply List.mem_append_left
    apply List.mem_append_left
    exact List.mem_flatMap.mpr ⟨sink, hsink, sink.variables_subset_names hn⟩
  · exact List.mem_append_left _ (List.mem_append_right _ hname)

variable {name : String} {n : Char} {rest after : List Char} {front back : List SqlPiece}
  {refs : List Reference} {b : Char} {query : String} {sinks : List Sink}

theorem exists_of_isName (h : Directive.isName name = true) :
    ∃ n rest, name.toList = n :: rest ∧ (∀ c ∈ name.toList, Text.isNameChar c = true) ∧
      Text.isNameStart n = !opensWithDigit name := by
  rw [Directive.isName, Bool.and_eq_true, List.all_eq_true] at h
  obtain ⟨hne, hall⟩ := h
  cases hname : name.toList with
  | nil =>
      rw [String.toList_eq_nil_iff.mp hname] at hne
      cases hne
  | cons n rest =>
      rw [hname] at hall
      refine ⟨n, rest, rfl, hall, ?_⟩
      have hdigit : opensWithDigit name = n.isDigit := by simp [opensWithDigit, hname]
      rw [hdigit]
      cases hn : n.isDigit with
      | true => exact Text.not_isNameStart_of_isDigit hn
      | false =>
          rcases Text.isNameStart_or_isDigit (hall n List.mem_cons_self) with hstart | hd
          · exact hstart
          · rw [hn] at hd
            cases hd

namespace Source

theorem choose_of_mem_localNames (sinks : List Sink) (h : name ∈ localNames refs) :
    match choose refs sinks with
    | .ok source => source = some (.localTables (localNames refs))
    | .error _ => remoteObjects refs ≠ [] := by
  have hlocal : (localNames refs).isEmpty = false := by
    cases hnames : localNames refs with
    | nil =>
        rw [hnames] at h
        cases h
    | cons => rfl
  rw [choose]
  rcases remoteObjects refs with _ | ⟨object, _ | ⟨second, objects⟩⟩
  · simp [hlocal]
  · simp [hlocal]
  · simp

theorem choose_localTables {names : List String}
    (h : choose refs sinks = .ok (some (.localTables names))) :
    names = localNames refs := by
  rw [choose] at h
  split at h
  · split at h
    · cases h
    · cases h
      rfl
  · split at h <;> cases h
  · cases h

theorem mem_localNames (h : ⟨none, name.toList⟩ ∈ refs) : name ∈ localNames refs := by
  rw [localNames, List.mem_eraseDups]
  exact List.mem_map.mpr ⟨⟨none, name.toList⟩, List.mem_filter.mpr ⟨h, rfl⟩, String.ofList_toList⟩

end Source

theorem items_of_qualified (before : List Char) (hname : name.toList = n :: rest)
    (hn : Text.isNameStart n = true) (hall : ∀ c ∈ name.toList, Text.isNameChar c = true)
    (hb : Text.isBlank b = true) (hafter : ∀ c ∈ after.head?, Text.isNameChar c = false) :
    (code (before ++ b :: ("csv.".toList ++ (name.toList ++ after)))).items =
      (code before).items ++ .char b :: .reference ⟨none, name.toList⟩ ::
        Reference.scan name.toList.getLast? after := by
  have hdot : b ≠ '.' := by
    rintro rfl
    cases hb
  have hstarts : Text.startsWord (some b) = true := by
    simp [Text.startsWord, Text.isWord_of_isBlank hb]
  rw [items, items, Reference.scan_append (Text.isNameChar_of_isBlank hb) hdot, hname]
  rw [hname] at hall
  have hscan := Reference.scan_qualified none hstarts hn (List.forall_mem_cons.mp hall).2 hafter
  exact congrArg _ (congrArg _ hscan)

namespace Source

theorem reads_of_isName (h : Directive.isName name = true) (hdigit : opensWithDigit name = false) :
    Reads name := by
  obtain ⟨n, rest, hname, hall, hn⟩ := exists_of_isName h
  rw [hdigit] at hn
  intro query sinks front before b after back hpieces hb hafter
  have hitems := items_of_qualified before hname hn hall hb hafter
  have hmem : ⟨none, name.toList⟩ ∈ (ofQuery query.toList).flatMap references := by
    rw [hpieces]
    refine List.mem_flatMap.mpr ⟨_, List.mem_append_right _ List.mem_cons_self, ?_⟩
    rw [references, hitems]
    refine List.mem_filterMap.mpr ⟨.reference ⟨none, name.toList⟩, ?_, rfl⟩
    simp
  have hstrip : strip query = front.flatMap bare ++ (code before).bare ++ b :: (name.toList ++
      ((Reference.scan name.toList.getLast? after).flatMap Reference.Item.bare ++
        back.flatMap bare)) := by
    rw [strip, hpieces, List.flatMap_append, List.flatMap_cons]
    conv => lhs; rhs; lhs; rw [bare, hitems]
    simp [bare, Reference.Item.bare]
  have hchoice := choose_of_mem_localNames sinks (mem_localNames hmem)
  rw [infer_eq]
  cases hchosen : choose ((ofQuery query.toList).flatMap references) sinks with
  | error fault =>
      rw [hchosen] at hchoice
      exact hchoice
  | ok source =>
      rw [hchosen] at hchoice
      refine ⟨⟨_, hchoice, mem_localNames hmem⟩, _, ?_, rfl⟩
      rw [String.toList_ofList, hstrip]

theorem overlooks_of_opensWithDigit (hdigit : opensWithDigit name = true) : Overlooks name := by
  intro query sinks stripped names hinfer hmem
  rw [infer_eq] at hinfer
  have hchoice : choose ((ofQuery query.toList).flatMap references) sinks =
      .ok (some (.localTables names)) := by
    cases hchosen : choose ((ofQuery query.toList).flatMap references) sinks with
    | error fault =>
        rw [hchosen] at hinfer
        cases hinfer
    | ok source =>
        rw [hchosen] at hinfer
        cases hinfer
        rfl
  rw [choose_localTables hchoice, localNames, List.mem_eraseDups] at hmem
  obtain ⟨r, hr, rfl⟩ := List.mem_map.mp hmem
  obtain ⟨piece, _, hr⟩ := List.mem_flatMap.mp (List.mem_filter.mp hr).1
  obtain ⟨_, _, _, hat⟩ := exists_at?_of_mem_references hr
  rw [opensWithDigit, String.toList_ofList, Option.any_eq_true] at hdigit
  obtain ⟨c, hhead, hc⟩ := hdigit
  have hstart := Reference.isNameStart_of_at? hat c hhead
  rw [Text.not_isNameStart_of_isDigit hc] at hstart
  cases hstart

end Source

namespace Scope

theorem fills_of_isName (h : Directive.isName name = true) (hdigit : opensWithDigit name = false) :
    Fills name := by
  obtain ⟨n, rest, hname, hall, hn⟩ := exists_of_isName h
  rw [hdigit] at hn
  rw [hname] at hall
  intro s value hvalue before after
  exact interpolate_placeholder hname hn (List.forall_mem_cons.mp hall).2 hvalue

theorem leaves_of_isName (h : Directive.isName name = true) (hdigit : opensWithDigit name = true) :
    Leaves name := by
  obtain ⟨n, rest, hname, hall, hn⟩ := exists_of_isName h
  rw [hdigit] at hn
  intro s before after
  exact interpolate_not_placeholder hname hn hall

end Scope

/-- Names that a script writes and binds can be read in its queries, but for those that begin
with a digit: these nothing reads. -/
theorem accepted_names_read_back {lines : List String} {steps : List Step}
    (h : Step.ofLines lines = .ok steps) :
    ∀ step ∈ steps,
      (∀ name ∈ step.sinks.flatMap Sink.tables,
        if opensWithDigit name then Source.Overlooks name else Source.Reads name) ∧
      ∀ name ∈ step.binds, if opensWithDigit name then Scope.Leaves name else Scope.Fills name := by
  intro step hstep
  have hnames := Step.isName_of_ofLogicalLines h step hstep
  refine ⟨fun name hname => ?_, fun name hname => ?_⟩
  · split
    · rename_i hdigit
      exact Source.overlooks_of_opensWithDigit hdigit
    · rename_i hdigit
      apply Source.reads_of_isName
      · exact hnames name (step.tables_subset_names (List.mem_append_left _ hname))
      · simpa using hdigit
  · have hproper : Directive.isName name = true := hnames name (step.binds_subset_names hname)
    split
    · rename_i hdigit
      exact Scope.leaves_of_isName hproper hdigit
    · rename_i hdigit
      exact Scope.fills_of_isName hproper (by simpa using hdigit)

def yearly : List String :=
  ["SELECT 1 AS a => csv:2024 => var:1st", "SELECT a FROM csv.2024 WHERE b = \x7b1st\x7d => csv:t"]

def yearlySteps : List Step :=
  [{ line := 1, query := "SELECT 1 AS a", sinks := [.localTable "2024" false, .variable "1st"],
     source := some (.localTables []), text := "SELECT 1 AS a => csv:2024 => var:1st" },
   { line := 2, query := "SELECT a FROM csv.2024 WHERE b = \x7b1st\x7d",
     sinks := [.localTable "t" false],
     source := some (.localTables []), text :=
       "SELECT a FROM csv.2024 WHERE b = \x7b1st\x7d => csv:t" }]

theorem ofLines_yearly : Step.ofLines yearly = .ok yearlySteps :=
  eq_ok_of_toOption (by decide +kernel)

theorem accepted_names_read_back_yearly :
    Step.ofLines yearly = .ok yearlySteps ∧ Source.Overlooks "2024" ∧ Scope.Leaves "1st" ∧
      Source.Reads "t" := by
  have hyearly := accepted_names_read_back ofLines_yearly
  obtain ⟨hwritten, hbound⟩ := hyearly yearlySteps[0] (by simp [yearlySteps])
  obtain ⟨hlast, _⟩ := hyearly yearlySteps[1] (by simp [yearlySteps])
  refine ⟨ofLines_yearly, ?_, ?_, ?_⟩
  · exact hwritten "2024" (by decide)
  · exact hbound "1st" (by decide)
  · exact hlast "t" (by decide)

theorem digits_not_read_back :
    Step.ofLines yearly = .ok yearlySteps ∧
      "2024" ∈ yearlySteps.flatMap (·.sinks.flatMap Sink.tables) ∧
      "1st" ∈ yearlySteps.flatMap Step.binds ∧ ¬ Source.Reads "2024" ∧ ¬ Scope.Fills "1st" := by
  refine ⟨ofLines_yearly, by decide, by decide, fun hreads => ?_, fun hfills => ?_⟩
  · have hquery : ofQuery "SELECT a FROM csv.2024".toList =
        [] ++ .code ("SELECT a FROM".toList ++ ' ' :: ("csv.".toList ++ ("2024".toList ++ []))) ::
          [] := by decide +kernel
    have hinfer : Source.infer "SELECT a FROM csv.2024" [] = .ok ("SELECT a FROM csv.2024", none) :=
      eq_ok_of_toOption (by decide +kernel)
    have hread := hreads "SELECT a FROM csv.2024" [] _ _ _ _ _ hquery rfl (by simp)
    rw [hinfer] at hread
    obtain ⟨⟨names, hnone, _⟩, _⟩ := hread
    cases hnone
  · have hfilled := hfills (Scope.empty.set "1st" (.text "7")) (.text "7") (by simp) "" ""
    revert hfilled
    decide +kernel

end TableFlow
