import TableFlow.Proofs.Bulk.Exchange
import TableFlow.Rehearsal.Service

namespace TableFlow.Rehearsal

open Bulk

variable {α : Type} (endpoint : Endpoint) (l : Listened)

theorem answersLeft_eq : (transport endpoint).answersLeft l = l.script.replies.length := rfl

theorem runFrom_login : (Act.runFrom l (transport endpoint).login).2.script.replies =
    l.script.replies.tail := by
  obtain ⟨⟨replies, waited⟩, events⟩ := l
  rcases replies with _ | ⟨_ | a, replies⟩ <;> rfl

theorem runFrom_perform (session : Session) (c : Call α) :
    (Act.runFrom l ((transport endpoint).perform session c)).2.script.replies =
      l.script.replies.tail ∧
      ∀ answer, (Act.runFrom l ((transport endpoint).perform session c)).1 = .ok answer →
        l.script.replies ≠ [] := by
  obtain ⟨⟨replies, waited⟩, events⟩ := l
  simp only [transport, Listened.take, Act.runFrom_bind, Act.runFrom_ofFun]
  rcases replies with _ | ⟨_ | a, replies⟩
  · exact ⟨rfl, nofun⟩
  · exact ⟨rfl, nofun⟩
  · refine ⟨?_, fun _ _ => List.cons_ne_nil _ _⟩
    simp only [List.head?_cons, Option.getD_some]
    cases answerTo a c <;> rfl

theorem transport_bounded : (transport endpoint).Bounded where
  login l := by simp [answersLeft_eq, runFrom_login]
  perform l session _ c := by simp [answersLeft_eq, (runFrom_perform endpoint l session c).1]
  answered l session _ c answer h := by
    obtain ⟨htaken, hsome⟩ := runFrom_perform endpoint l session c
    have hpos := List.length_pos_iff.mpr (hsome answer h)
    rw [answersLeft_eq, answersLeft_eq, htaken, List.length_tail]
    omega
  pause _ _ := Nat.le_refl _

end TableFlow.Rehearsal
