import TableFlow.Proofs.Script.Comments
import TableFlow.Proofs.Script.Grammar
import TableFlow.Proofs.Script.Inference
import TableFlow.Proofs.Script.Marks
import TableFlow.Script.Job

namespace TableFlow

namespace Text

def OneLine (s : String) : Prop := '\n' ∉ s.toList

variable {a b line s : String} {cs part : List Char}

@[simp] theorem oneLine_append : OneLine (a ++ b) ↔ OneLine a ∧ OneLine b := by
  simp [OneLine, not_or]

theorem trimEnd_subset (cs : List Char) : trimEnd cs ⊆ cs :=
  (List.rdropWhile_prefix isBlank cs).subset

theorem trimStart_subset (cs : List Char) : trimStart cs ⊆ cs :=
  (List.dropWhile_suffix isBlank).subset

theorem trim_subset (cs : List Char) : trim cs ⊆ cs :=
  List.Subset.trans (trimStart_subset _) (trimEnd_subset cs)

theorem notMem_of_mem_splitOn {c : Char} (h : part ∈ cs.splitOn c) : c ∉ part := by
  induction cs generalizing part with
  | nil =>
      obtain rfl : part = [] := by simpa using h
      exact List.not_mem_nil
  | cons d cs ih =>
      rw [List.splitOn_cons_eq_if_modifyHead] at h
      split at h
      · obtain rfl | h := List.mem_cons.mp h
        · exact List.not_mem_nil
        · exact ih h
      · rename_i hd
        cases hparts : cs.splitOn c with
        | nil =>
            rw [hparts] at h
            cases h
        | cons first rest =>
            rw [hparts] at h ih
            obtain rfl | h := List.mem_cons.mp h
            · rw [List.mem_cons, not_or]
              exact ⟨fun he => hd (by simp [he]), ih List.mem_cons_self⟩
            · exact ih (List.mem_cons_of_mem _ h)

theorem withoutReturn_subset (cs : List Char) : withoutReturn cs ⊆ cs := by
  rw [withoutReturn]
  split
  · exact List.dropLast_subset cs
  · exact List.Subset.refl cs

theorem oneLine_of_mem_lines (h : line ∈ lines s) : OneLine line := by
  obtain ⟨cs, hcs, rfl⟩ := List.mem_map.mp h
  obtain ⟨part, hpart, hsub⟩ : ∃ part ∈ s.toList.splitOn '\n', cs ⊆ part := by
    obtain hcs | hcs := List.mem_append.mp hcs
    · obtain ⟨part, hpart, rfl⟩ := List.mem_map.mp hcs
      exact ⟨part, List.dropLast_subset _ hpart, withoutReturn_subset part⟩
    · split at hcs
      · cases hcs
      · rename_i hlast
        obtain rfl := List.mem_singleton.mp hcs
        cases hparts : (s.toList.splitOn '\n').getLast? with
        | none => simp [hparts] at hlast
        | some part => exact ⟨part, List.mem_of_getLast? hparts, List.Subset.refl part⟩
  exact fun hmem => notMem_of_mem_splitOn hpart (hsub (by simpa using hmem))

end Text

open Text

namespace LogicalLine

variable {number : Nat} {pending : Option LogicalLine} {raw : String} {lines : List String}

theorem piece_subset (cs : List Char) : (piece cs).1 ⊆ cs := by
  rw [piece]
  split
  · exact List.Subset.trans (trimEnd_subset _)
      (List.Subset.trans (List.dropLast_subset _) (trimEnd_subset cs))
  · exact trimEnd_subset cs

theorem oneLine_extend {line : LogicalLine} {body : List Char} (hline : OneLine line.text)
    (hbody : '\n' ∉ body) :
    OneLine (line.extend body).text := by
  rw [extend]
  split
  · exact hline
  · have hmore : OneLine (String.ofList (trimStart body)) := fun hmem =>
      hbody (trimStart_subset body (by simpa using hmem))
    have hspace : OneLine (if line.text.isEmpty then "" else " ") := by
      split <;> simp [OneLine]
    exact oneLine_append.mpr ⟨oneLine_append.mpr ⟨hline, hspace⟩, hmore⟩

theorem oneLine_take (number : Nat) (hpending : ∀ line ∈ pending, OneLine line.text)
    (hraw : OneLine raw) :
    OneLine (take number pending raw).text := by
  have hpiece : '\n' ∉ (piece raw.toList).1 := fun hmem => hraw (piece_subset _ hmem)
  cases pending with
  | none => exact fun hmem => hpiece (by simpa [take] using hmem)
  | some line => exact oneLine_extend (hpending line rfl) hpiece

theorem oneLine_joinFrom (hpending : ∀ line ∈ pending, OneLine line.text)
    (hlines : ∀ raw ∈ lines, OneLine raw) :
    ∀ line ∈ joinFrom number pending lines, OneLine line.text := by
  induction lines generalizing number pending with
  | nil => exact fun line hline => hpending line (Option.mem_toList.mp hline)
  | cons raw rest ih =>
      obtain ⟨hraw, hrest⟩ := List.forall_mem_cons.mp hlines
      have htake := oneLine_take number hpending hraw
      rw [joinFrom_cons]
      split
      · exact ih (by simpa using htake) hrest
      · exact List.forall_mem_cons.mpr ⟨htake, ih (by simp) hrest⟩

end LogicalLine

theorem Reference.Item.bare_subset (item : Item) : item.bare ⊆ item.text := by
  cases item with
  | char c => exact List.Subset.refl _
  | reference r => exact List.subset_append_right _ _

theorem SqlPiece.bare_subset (p : SqlPiece) : p.bare ⊆ p.text := by
  rw [← flatMap_text_items p, bare]
  intro c hc
  obtain ⟨item, hitem, hc⟩ := List.mem_flatMap.mp hc
  exact List.mem_flatMap.mpr ⟨item, hitem, item.bare_subset hc⟩

/-- Stripping a query puts nothing into it. -/
theorem Source.strip_subset (query : String) : strip query ⊆ query.toList := by
  conv => rhs; rw [← SqlPiece.flatMap_text_ofQuery query.toList]
  intro c hc
  obtain ⟨p, hp, hc⟩ := List.mem_flatMap.mp hc
  exact List.mem_flatMap.mpr ⟨p, hp, p.bare_subset hc⟩

theorem Segment.query_subset_of_splitLine {text query : List Char} {segments : List Segment}
    (h : splitLine text = .ok (query, segments)) : query ⊆ text := by
  have hspan : (spanQuery text).1 ⊆ text := by
    conv => rhs; rw [← (spanQuery_sound text).1]
    exact List.subset_append_left _ _
  rw [splitLine] at h
  split at h
  · cases h
    exact List.Subset.trans (trim_subset _) hspan
  · cases h

namespace Step

variable {line : Nat} {text : List Char} {opened opened' : List String} {step : Option Step}

theorem query_subset_of_ofStatement (h : ofStatement line text opened = .ok (step, opened')) :
    ∀ s ∈ step, s.query.toList ⊆ text := by
  unfold ofStatement at h
  obtain ⟨⟨query, segments⟩, hsplit, h⟩ := bind_eq_ok_iff.mp h
  obtain ⟨d, _, h⟩ := bind_eq_ok_iff.mp h
  split at h
  · cases h
  · obtain ⟨⟨bare, source⟩, hinfer, h⟩ := bind_eq_ok_iff.mp h
    cases h
    intro s hs
    obtain rfl := Option.some.inj hs
    have hquery := Source.strip_subset (String.ofList query)
    rw [← (Source.infer_eq_ok_iff.mp hinfer).2, String.toList_ofList] at hquery
    exact List.Subset.trans hquery (Segment.query_subset_of_splitLine hsplit)

theorem query_of_ofComment (h : ofComment line text opened = .ok (step, opened')) :
    ∀ s ∈ step, s.query = "" := by
  unfold ofComment at h
  split at h
  · cases h
    nofun
  · obtain ⟨d, _, h⟩ := bind_eq_ok_iff.mp h
    cases h
    intro s hs
    split at hs <;> cases hs
    rfl

theorem query_subset_of_ofLine {line : LogicalLine} (h : ofLine line opened = .ok (step, opened')) :
    ∀ s ∈ step, s.query.toList ⊆ line.text.toList := by
  intro s hs
  simp only [ofLine] at h
  split at h
  · cases h
    cases hs
  · have h := TreeBuilder.mapError_eq_ok_iff.mp h
    split at h
    · rw [query_of_ofComment h s hs]
      exact List.nil_subset _
    · exact List.Subset.trans (query_subset_of_ofStatement h s hs) (trim_subset _)

theorem oneLine_of_ofLogicalLines {lines : List LogicalLine} {steps : List Step}
    (h : ofLogicalLines opened lines = .ok steps) (hlines : ∀ line ∈ lines, OneLine line.text) :
    ∀ s ∈ steps, OneLine s.query := by
  induction lines generalizing opened steps with
  | nil =>
      cases h
      nofun
  | cons line rest ih =>
      obtain ⟨hline, hrest⟩ := List.forall_mem_cons.mp hlines
      obtain ⟨⟨step, opened'⟩, hstep, h⟩ := bind_eq_ok_iff.mp h
      obtain ⟨steps', hsteps, h⟩ := bind_eq_ok_iff.mp h
      cases h
      intro s hs
      obtain hs | hs := List.mem_append.mp hs
      · exact fun hmem => hline (query_subset_of_ofLine hstep s (Option.mem_toList.mp hs) hmem)
      · exact ih hsteps hrest s hs

/-- No query goes over the end of a line, broken or not. -/
theorem oneLine_of_lines {script : String} {steps : List Step}
    (h : ofLines (Text.lines script) = .ok steps) :
    ∀ s ∈ steps, OneLine s.query :=
  oneLine_of_ofLogicalLines h (LogicalLine.oneLine_joinFrom (by simp) fun _ => oneLine_of_mem_lines)

end Step

end TableFlow
