import TableFlow.Proofs.Bulk.Operations
import TableFlow.Proofs.Bulk.Results
import TableFlow.Proofs.Table.Parts
import TableFlow.Rehearsal.Service

namespace TableFlow.Bulk

variable {plan : JobPlan} {m : Phase} {turns : List Turn} {job : String} {batches : List BatchInfo}

def Exchange.expired : Exchange → Bool
  | .call _ _ (.error .sessionExpired) => true
  | _ => false

def History.results (history : History) : List (String × String) := history.filterMap fun entry =>
  match entry with
  | (.batchResults _ batch, .text text) => some (batch, text)
  | _ => none

theorem Fetched.of_mutate {op : MutationOp} {object : String} {rows : Table} {outcome : Outcome}
    (h : Fetched (.mutate op object rows) job batches turns (.ok outcome)) :
    ∃ tables out,
      Sequence (fun batch : BatchInfo => Reads (.batchResults job batch.id) (readResults batch.id))
        batches turns
        (.ok tables) ∧
      Table.concat tables = .ok out ∧ outcome = .table out := by
  generalize hr : (Except.ok outcome : Except ExecutionFault Outcome) = r at h
  cases h with
  | @mutate _ _ _ _ _ _ tables hs =>
      cases tables with
      | error e => cases hr
      | ok tables =>
          cases hconcat : Table.concat tables with
          | error e => simp [Except.bind, Except.map, hconcat] at hr
          | ok out =>
              simp only [Except.bind, Except.map, hconcat, mapError_ok, Except.ok.injEq] at hr
              exact ⟨tables, out, hs, hconcat, hr⟩

variable {τ : Type} (t : Transport τ) (settings : Settings)

open Rehearsal

def threeLabels : Table := ⟨["Label"], [["a"], ["b"], ["c"]], by decide, by decide⟩

theorem chunks_threeLabels : threeLabels.chunks 2 =
    [⟨["Label"], [["a"], ["b"]], by decide, by decide⟩,
      ⟨["Label"], [["c"]], by decide, by decide⟩] := by
  simp [Table.chunks, groups, threeLabels]

end TableFlow.Bulk
