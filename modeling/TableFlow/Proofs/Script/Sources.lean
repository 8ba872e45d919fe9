import TableFlow.Proofs.Script.Inference
import TableFlow.Proofs.Script.Marks

namespace TableFlow

/-- The items of a list, each once, in the order in which they are first seen. -/
structure FirstSeen {α : Type} (all names : List α) : Prop where
  mem : ∀ name, name ∈ names ↔ name ∈ all
  order : names.Pairwise fun a b => ∃ front, front <+: all ∧ a ∈ front ∧ b ∉ front

theorem FirstSeen.nodup {α : Type} {all names : List α} (h : FirstSeen all names) : names.Nodup :=
  h.order.imp fun ⟨_, _, ha, hb⟩ he => hb (he ▸ ha)

theorem firstSeen_eraseDups {α : Type} [BEq α] [LawfulBEq α] (all : List α) :
    FirstSeen all all.eraseDups := by
  refine ⟨fun name => List.mem_eraseDups, ?_⟩
  cases all with
  | nil => simp
  | cons a all =>
      have hrest := firstSeen_eraseDups (all.filter fun b => !b == a)
      have hother {b : α} (hb : b ∈ (all.filter fun b => !b == a).eraseDups) : b ≠ a := by
        simpa using (List.mem_filter.mp (List.mem_eraseDups.mp hb)).2
      rw [List.eraseDups_cons, List.pairwise_cons]
      refine ⟨fun b hb => ⟨[a], by simp, by simp, by simpa using hother hb⟩,
        hrest.order.imp_of_mem ?_⟩
      rintro b c hb hc ⟨front, ⟨back, hall⟩, hfront, hnot⟩
      -- A beginning of what is left without `a` comes from a beginning of the list.
      obtain ⟨front', back', rfl, rfl, -⟩ := List.filter_eq_append_iff.mp hall.symm
      refine ⟨a :: front', by simp, List.mem_cons_of_mem _ (List.mem_filter.mp hfront).1,
        fun hmem => hnot ?_⟩
      have hne := hother hc
      rcases List.mem_cons.mp hmem with he | hmem
      · exact absurd he hne
      · exact List.mem_filter.mpr ⟨hmem, by simpa using hne⟩
  termination_by all.length
  decreasing_by
    have := List.length_filter_le (fun b => !b == a) all
    simp only [List.length_cons]
    omega

namespace Source

open SqlPiece

/-- Two remote objects, or a local table and a remote object. -/
inductive Conflict (refs : List Reference) : Prop
  | remotes {r r'} : r ∈ refs → r' ∈ refs → r.endpoint ≠ none → r'.endpoint ≠ none →
      r ≠ r' → Conflict refs
  | mixed {r r'} : r ∈ refs → r' ∈ refs → r.endpoint = none → r'.endpoint ≠ none → Conflict refs

inductive Chosen (refs : List Reference) (sinks : List Sink) : Option Source → Prop
  | remote {endpoint name} : refs ≠ [] → (∀ r ∈ refs, r = ⟨some endpoint, name⟩) →
      Chosen refs sinks (some (.remoteObject endpoint (String.ofList name)))
  | locals {names} : (∀ r ∈ refs, r.endpoint = none) → refs ≠ [] ∨
      (∃ sink ∈ sinks, sink.isLocalTable = true) →
      FirstSeen (refs.map fun r => String.ofList r.name) names →
        Chosen refs sinks (some (.localTables names))
  | nothing : refs = [] → (∀ sink ∈ sinks, sink.isLocalTable = false) → Chosen refs sinks none

variable {refs : List Reference} {endpoint : Endpoint} {object : String}

theorem mem_remoteObjects : (endpoint, object) ∈ remoteObjects refs ↔
    ∃ r ∈ refs, r.endpoint = some endpoint ∧ String.ofList r.name = object := by
  simp [remoteObjects, List.mem_eraseDups]

theorem isEmpty_localNames : (localNames refs).isEmpty = true ↔ ∀ r ∈ refs, r.endpoint ≠ none := by
  have hmem (name : String) :
      name ∈ localNames refs ↔ ∃ r ∈ refs, r.endpoint = none ∧ String.ofList r.name = name := by
    simp [localNames, List.mem_eraseDups, and_assoc]
  rw [List.isEmpty_iff, List.eq_nil_iff_forall_not_mem]
  simp only [hmem]
  grind

theorem firstSeen_localNames (h : ∀ r ∈ refs, r.endpoint = none) :
    FirstSeen (refs.map fun r => String.ofList r.name) (localNames refs) := by
  rw [localNames, List.filter_eq_self.mpr fun r hr => by simp [h r hr]]
  exact firstSeen_eraseDups _

theorem not_conflict_of_local (h : ∀ r ∈ refs, r.endpoint = none) : ¬ Conflict refs := by
  rintro (⟨hr, _, hremote, _, _⟩ | ⟨_, hr, _, hremote⟩)
  · exact hremote (h _ hr)
  · exact hremote (h _ hr)

theorem not_conflict_of_remote {remote : Reference} (hremote : remote.endpoint ≠ none)
    (h : ∀ r ∈ refs, r = remote) :
    ¬ Conflict refs := by
  rintro (⟨hr, hr', _, _, hne⟩ | ⟨hr, _, hlocal, _⟩)
  · exact hne ((h _ hr).trans (h _ hr').symm)
  · exact hremote (h _ hr ▸ hlocal)

theorem endpoint_of_remoteObjects_nil (h : remoteObjects refs = []) :
    ∀ r ∈ refs, r.endpoint = none := by
  intro r hr
  cases hendpoint : r.endpoint with
  | none => rfl
  | some endpoint =>
      have hmem := mem_remoteObjects.mpr ⟨r, hr, hendpoint, rfl⟩
      rw [h] at hmem
      cases hmem

theorem eq_of_remoteObjects_singleton (h : remoteObjects refs = [(endpoint, object)])
    (hlocal : (localNames refs).isEmpty = true) :
    ∀ r ∈ refs, r = ⟨some endpoint, object.toList⟩ := by
  intro r hr
  obtain ⟨other, hother⟩ := Option.ne_none_iff_exists'.mp (isEmpty_localNames.mp hlocal r hr)
  have hmem := mem_remoteObjects.mpr ⟨r, hr, hother, rfl⟩
  rw [h, List.mem_singleton] at hmem
  obtain ⟨rfl, rfl⟩ := Prod.mk.inj hmem
  rw [String.toList_ofList, ← hother]

theorem conflict_of_two_remoteObjects {endpoint' : Endpoint} {object' : String}
    {objects : List (Endpoint × String)}
    (h : remoteObjects refs = (endpoint, object) :: (endpoint', object') :: objects) :
    Conflict refs := by
  have hnodup : (remoteObjects refs).Nodup := (firstSeen_eraseDups _).nodup
  obtain ⟨remote, hremote, hendpoint, rfl⟩ := mem_remoteObjects.mp (h ▸ List.mem_cons_self)
  have hsecond : (endpoint', object') ∈ remoteObjects refs :=
    h ▸ List.mem_cons_of_mem _ List.mem_cons_self
  obtain ⟨remote', hremote', hendpoint', rfl⟩ := mem_remoteObjects.mp hsecond
  refine .remotes hremote hremote' (by simp [hendpoint]) (by simp [hendpoint']) ?_
  rintro rfl
  obtain rfl : endpoint = endpoint' := Option.some.inj (hendpoint.symm.trans hendpoint')
  rw [h] at hnodup
  exact (List.nodup_cons.mp hnodup).1 List.mem_cons_self

theorem choose_cases (refs : List Reference) (sinks : List Sink) :
    (Conflict refs ∧ ∃ fault, choose refs sinks = .error fault) ∨
      ¬ Conflict refs ∧ ∃ source, choose refs sinks = .ok source ∧ Chosen refs sinks source := by
  rw [choose]
  rcases hobjects : remoteObjects refs with _ | ⟨⟨endpoint, object⟩, _ | ⟨second, objects⟩⟩
  · have hlocal := endpoint_of_remoteObjects_nil hobjects
    have hempty : (localNames refs).isEmpty = true ↔ refs = [] := by
      rw [isEmpty_localNames, List.eq_nil_iff_forall_not_mem]
      exact forall_congr' fun r => ⟨fun h hr => h hr (hlocal r hr), fun h hr => absurd hr h⟩
    refine .inr ⟨not_conflict_of_local hlocal, ?_⟩
    dsimp only
    split
    · rename_i hnothing
      rw [Bool.and_eq_true, hempty, Bool.not_eq_true', List.any_eq_false] at hnothing
      exact ⟨_, rfl, .nothing hnothing.1 (by simpa using hnothing.2)⟩
    · rename_i hsome
      rw [Bool.and_eq_true, hempty, not_and_or, Bool.not_eq_true, Bool.not_eq_false',
        List.any_eq_true] at hsome
      exact ⟨_, rfl, .locals hlocal hsome (firstSeen_localNames hlocal)⟩
  · obtain ⟨remote, hremote, hendpoint, rfl⟩ := mem_remoteObjects.mp (hobjects ▸ List.mem_cons_self)
    dsimp only
    split
    · rename_i hempty
      have hall := eq_of_remoteObjects_singleton hobjects hempty
      rw [String.toList_ofList] at hall
      exact .inr ⟨not_conflict_of_remote (by simp) hall, _, rfl,
        .remote (List.ne_nil_of_mem hremote) hall⟩
    · rename_i hlocal
      rw [isEmpty_localNames] at hlocal
      push Not at hlocal
      obtain ⟨r, hr, hlocal⟩ := hlocal
      exact .inl ⟨.mixed hr hremote hlocal (by simp [hendpoint]), _, rfl⟩
  · exact .inl ⟨conflict_of_two_remoteObjects hobjects, _, rfl⟩

/-- A query is marked in one way. The references in it are refused if they conflict and make the
source if not, and nothing is left out of the query but what is written before their names. -/
theorem infer_exact (query : String) (sinks : List Sink) :
    ∃ parts : List (List Reference.Item),
      (∀ other, List.Forall₂ Marked (ofQuery query.toList) other ↔ other = parts) ∧
      query.toList = parts.flatten.flatMap Reference.Item.text ∧
      let refs := parts.flatten.filterMap Reference.Item.reference?
      ((∃ fault, infer query sinks = .error fault) ↔ Conflict refs) ∧
      ∀ stripped source, infer query sinks = .ok (stripped, source) →
        stripped.toList = parts.flatten.flatMap Reference.Item.bare ∧ Chosen refs sinks source := by
  refine ⟨(ofQuery query.toList).map items, fun other => forall₂_marked_iff, ?_, ?_⟩
  · simp only [← List.flatMap_def, List.flatMap_assoc, flatMap_text_items]
    exact (flatMap_text_ofQuery _).symm
  · have hrefs : ((ofQuery query.toList).map items).flatten.filterMap Reference.Item.reference? =
        (ofQuery query.toList).flatMap references := by
      rw [← List.flatMap_def, List.filterMap_flatMap]
      rfl
    have hbare : ((ofQuery query.toList).map items).flatten.flatMap Reference.Item.bare =
        strip query := by
      rw [← List.flatMap_def, List.flatMap_assoc]
      rfl
    rw [hrefs, hbare, infer_eq]
    obtain ⟨hconflict, fault, hchoice⟩ | ⟨hfine, source, hchoice, hchosen⟩ :=
      choose_cases ((ofQuery query.toList).flatMap references) sinks
    · rw [hchoice]
      exact ⟨iff_of_true ⟨fault, rfl⟩ hconflict, nofun⟩
    · rw [hchoice]
      refine ⟨iff_of_false (by rintro ⟨fault, ⟨⟩⟩) hfine, ?_⟩
      rintro stripped source ⟨⟩
      exact ⟨String.toList_ofList, hchosen⟩

example : (infer "FROM csv.src.x JOIN a_csv.t" []).toOption =
    some ("FROM src.x JOIN a_csv.t", some (.localTables ["src"])) := by decide +kernel

end Source
end TableFlow
