import Mathlib.Data.List.Pairwise
import TableFlow.Proofs.Script.Names

namespace TableFlow

def Sink.Distinct (sinks : List Sink) : Prop :=
  sinks.Pairwise fun first second => first.sameKind second = false

theorem Sink.sameKind_comm (first second : Sink) :
    first.sameKind second = second.sameKind first := by
  cases first <;> cases second <;> rfl

theorem Sink.Distinct.append_singleton {sinks : List Sink} {sink : Sink} (h : Distinct sinks)
    (hsink : sinks.any sink.sameKind = false) : Distinct (sinks ++ [sink]) := by
  refine List.pairwise_append.mpr ⟨h, List.pairwise_singleton _ _,
    fun other hother last hlast => ?_⟩
  rw [List.mem_singleton.mp hlast, sameKind_comm]
  simpa using List.any_eq_false.mp hsink other hother

theorem Sink.Distinct.eq_of_localTable {sinks : List Sink} {name other : String}
    {cached cached' : Bool} (h : Distinct sinks) (hname : .localTable name cached ∈ sinks)
    (hother : .localTable other cached' ∈ sinks) :
    Sink.localTable name cached = .localTable other cached' := by
  have hsymm : Std.Symm fun first second : Sink => first.sameKind second = false :=
    ⟨fun first second hab => (sameKind_comm second first).trans hab⟩
  by_cases heq : Sink.localTable name cached = .localTable other cached'
  · exact heq
  · have hkinds := h.forall hname hother heq
    cases hkinds

namespace Draft

theorem distinct_of_apply {d d' : Draft} {directive : Directive} (h : d.apply directive = .ok d')
    (hd : Sink.Distinct d.sinks) : Sink.Distinct d'.sinks := by
  cases directive with
  | sink sink =>
      rw [apply] at h
      split at h <;> cases h
      rename_i hsink
      exact hd.append_singleton (by simpa using hsink)
  | opens =>
      cases h
      exact hd
  | closes =>
      rw [apply] at h
      split at h <;> cases h
      exact hd

theorem distinct_of_add {d d' : Draft} {s : Segment} (h : d.add s = .ok d')
    (hd : Sink.Distinct d.sinks) :
    Sink.Distinct d'.sinks := by
  unfold add at h
  split at h
  · cases h
  · split at h
    · cases h
    · obtain ⟨directive, _, ha⟩ := bind_eq_ok_iff.mp h
      exact distinct_of_apply ha hd

end Draft

namespace Step

theorem distinct_of_ofStatement {line : Nat} {text : List Char} {opened opened' : List String}
    {step : Option Step} (h : ofStatement line text opened = .ok (step, opened')) :
    ∀ s ∈ step, Sink.Distinct s.sinks := by
  unfold ofStatement at h
  obtain ⟨⟨query, segments⟩, _, h⟩ := bind_eq_ok_iff.mp h
  obtain ⟨d, hd, h⟩ := bind_eq_ok_iff.mp h
  have hdraft :=
    Draft.foldlM_preserves (P := fun d => Sink.Distinct d.sinks)
      (fun _ _ _ => Draft.distinct_of_add) hd .nil
  split at h
  · cases h
  · obtain ⟨_, _, h⟩ := bind_eq_ok_iff.mp h
    cases h
    intro s hs
    obtain rfl := Option.some.inj hs
    exact hdraft

theorem distinct_of_ofComment {line : Nat} {text : List Char} {opened opened' : List String}
    {step : Option Step} (h : ofComment line text opened = .ok (step, opened')) :
    ∀ s ∈ step, Sink.Distinct s.sinks := by
  unfold ofComment at h
  split at h
  · cases h
    nofun
  · obtain ⟨d, _, h⟩ := bind_eq_ok_iff.mp h
    cases h
    intro s hs
    split at hs <;> cases hs
    exact .nil

end Step

/-- A step of an accepted script has one sink of each kind at most. -/
theorem distinct_of_ofLines {lines : List String} {job : Job} (h : Job.ofLines lines = .ok job) :
    ∀ step ∈ job.steps, Sink.Distinct step.sinks := by
  obtain ⟨steps, hsteps, hsub⟩ := exists_ofLines h
  intro step hstep
  exact Step.forall_of_ofLogicalLines (fun _ _ _ _ _ => Step.distinct_of_ofStatement)
    (fun _ _ _ _ _ => Step.distinct_of_ofComment) hsteps step (hsub hstep)

end TableFlow
