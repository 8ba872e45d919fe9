import TableFlow.Proofs.Bulk.Operations
import TableFlow.Proofs.Bulk.Results
import TableFlow.Proofs.Table.Parts
import TableFlow.Rehearsal.Service

namespace TableFlow.Bulk

open Connection

variable {plan : JobPlan} {m m' : Phase} {turns : List Turn} {job batch : String}
  {batches : List BatchInfo}

def Phase.ShowsLast (history : History) : Phase → Prop
  | .idle => True
  | .submitting _ batches _ | .polling _ batches =>
      ∀ info, batches = [info] → history.shown.getLast? = some info

theorem Step.showsLast {history : History} {asked : Asked} {answer : Answer}
    (h : Step plan m asked answer m') (hm : m.ShowsLast history) :
    m'.ShowsLast (history ++ [(asked, answer)]) := by
  cases h with
  | create => exact nofun
  | add info | poll info =>
      intro other hother
      simp_all [List.append_eq_singleton_iff]
  | close => simpa [Phase.ShowsLast] using hm

theorem Steps.exists_batch (h : Steps plan .idle turns (.polling job batches))
    (hplan : plan.payloads.length = 1) :
    ∃ info, batches = [info] ∧ (History.shown (successes turns)).getLast? = some info := by
  have hfits : batches.length = plan.payloads.length := h.fits trivial
  obtain ⟨info, rfl⟩ := List.length_eq_one_iff.mp (hfits.trans hplan)
  have hlast := h.preserves [] (I := Phase.ShowsLast) Step.showsLast trivial
  exact ⟨info, rfl, hlast info rfl⟩

def History.chunkTexts (history : History) : List String := history.filterMap fun entry =>
  match entry with
  | (.queryResultChunk .., .text text) => some text
  | _ => none

theorem History.chunkTexts_append (history history' : History) :
    (history ++ history').chunkTexts = history.chunkTexts ++ history'.chunkTexts :=
      List.filterMap_append

theorem History.chunkTexts_eq_nil {history : History}
    (h : ∀ entry ∈ history, entry.1.isResult = false) :
    history.chunkTexts = [] :=
      filterMap_eq_nil (fun asked _ hr => by cases asked <;> first | rfl | cases hr) h

def partOf (text : String) : Option Table :=
  if Text.trimmed text = noRecords then none else (Table.ofCsv text).toOption

theorem Sequence.parts_eq {ids : List String} {r : Except ExecutionFault (List (Option Table))}
    (h : Sequence (fun result => Reads (.queryResultChunk job batch result) (readChunk result))
      ids turns r)
    (hread : ∀ text ∈ History.chunkTexts (successes turns), ∀ result,
      readChunk result text = .ok (partOf text)) :
    (∃ fault, Blames turns fault) ∨
      r = .ok ((History.chunkTexts (successes turns)).map partOf) := by
  induction h with
  | nil => exact .inr rfl
  | failed h =>
      cases h with
      | failed => exact .inl ⟨_, [], _, rfl⟩
      | @came text _ htext =>
          rw [hread text (by simp [History.chunkTexts])] at htext
          cases htext
  | @cons result ids turns part turns' r _ h _ ih =>
      cases h with
      | @came text _ htext =>
          rw [successes_append, History.chunkTexts_append] at hread ⊢
          rw [hread text (by simp [History.chunkTexts])] at htext
          cases htext
          rcases ih fun text hm => hread text (List.mem_append_right _ hm) with ⟨fault, hb⟩ | rfl
          · exact .inl ⟨fault, hb.append _⟩
          · exact .inr rfl

/-- A text that stands for no part of the result. -/
def isEmptyResult (text : String) : Bool := text == "" || Text.trimmed text == noRecords

theorem readChunk_of_isEmptyResult {text : String} (h : isEmptyResult text = true)
    (result : String) :
    readChunk result text = .ok (partOf text) ∧
      (partOf text).filter (!·.fields.isEmpty) = none := by
  rcases (Bool.or_eq_true _ _).mp h with h | h
  · obtain rfl := beq_iff_eq.mp h
    exact ⟨rfl, rfl⟩
  · simp [readChunk, partOf, beq_iff_eq.mp h]

theorem readChunk_toCsv {chunk : Table} (hfields : chunk.fields ≠ [])
    (h : Text.trimmed chunk.toCsv ≠ noRecords) (result : String) :
    readChunk result chunk.toCsv = .ok (partOf chunk.toCsv) ∧ partOf chunk.toCsv = some chunk := by
  simp [readChunk, partOf, h, Table.ofCsv_toCsv hfields, Except.map, Except.toOption]

/-- Texts that make up a table: those of its chunks, and others between them that stand for
nothing. -/
structure MakeUp (table : Table) (chunks : List Table) (texts : List String) : Prop where
  split : table.IsSplit chunks
  ne_nil : chunks ≠ []
  legible : ∀ chunk ∈ chunks, Text.trimmed chunk.toCsv ≠ noRecords
  texts_eq : texts.filter (!isEmptyResult ·) = chunks.map Table.toCsv

namespace MakeUp

variable {table : Table} {chunks : List Table} {texts : List String}

theorem readChunk_eq (h : MakeUp table chunks texts) (hfields : table.fields ≠ []) {text : String}
    (hm : text ∈ texts) (result : String) : readChunk result text = .ok (partOf text) := by
  by_cases hempty : isEmptyResult text = true
  · exact (readChunk_of_isEmptyResult hempty result).1
  · have hchunk : text ∈ chunks.map Table.toCsv :=
      h.texts_eq ▸ List.mem_filter.mpr ⟨hm, by simpa using hempty⟩
    obtain ⟨chunk, hc, rfl⟩ := List.mem_map.mp hchunk
    have hcolumns : chunk.fields ≠ [] := by rwa [h.split.fields_eq chunk hc]
    exact (readChunk_toCsv hcolumns (h.legible chunk hc) result).1

theorem filter_parts (h : MakeUp table chunks texts) (hfields : table.fields ≠ []) :
    (texts.filterMap partOf).filter (!·.fields.isEmpty) = chunks := by
  have hempty : ∀ text ∈ texts, (partOf text).filter (!·.fields.isEmpty) =
      if !isEmptyResult text then (partOf text).filter (!·.fields.isEmpty) else none := by
    intro text _
    cases hempty : isEmptyResult text with
    | false => rfl
    | true => exact (readChunk_of_isEmptyResult hempty "").2
  have hchunk : ∀ chunk ∈ chunks, (partOf chunk.toCsv).filter (!·.fields.isEmpty) = some chunk := by
    intro chunk hc
    have hcolumns : chunk.fields ≠ [] := by rwa [h.split.fields_eq chunk hc]
    simp [(readChunk_toCsv hcolumns (h.legible chunk hc) "").2, hcolumns]
  calc (texts.filterMap partOf).filter (!·.fields.isEmpty)
      = texts.filterMap fun text => (partOf text).filter (!·.fields.isEmpty) :=
        List.filter_filterMap
    _ = (texts.filter (!isEmptyResult ·)).filterMap fun text =>
      (partOf text).filter (!·.fields.isEmpty) := by
        rw [List.filterMap_filter]
        exact List.filterMap_congr hempty
    _ = chunks.filterMap fun chunk => (partOf chunk.toCsv).filter (!·.fields.isEmpty) := by
        rw [h.texts_eq, List.filterMap_map]
        rfl
    _ = chunks := by rw [List.filterMap_congr hchunk, List.filterMap_some]

theorem concat_eq (h : MakeUp table chunks texts) (hfields : table.fields ≠ []) :
    Table.concat (texts.filterMap partOf) = .ok table :=
      h.split.concat_eq h.ne_nil (h.filter_parts hfields)

end MakeUp

variable {τ : Type} {t : Transport τ} {settings : Settings}

/-- A job whose batch was last shown completed ends in nothing but a call that fails. -/
theorem JobEnd.blames {k k' : Connection (Logged τ)} {fault : ExecutionFault}
    (h : JobEnd t settings plan k k' turns (.error fault)) (hplan : plan.payloads.length = 1)
    (hcompleted : (History.shown (successes turns)).getLast?.map (·.state) = some .completed) :
    Blames turns fault := by
  generalize hr : (Except.error fault : Except ExecutionFault (String × List BatchInfo)) = r at h
  cases h with
  | notOpened _ hb =>
      cases hr
      exact hb
  | opened _ hend =>
      cases hend with
      | completed => cases hr
      | failed _ hb =>
          cases hr
          exact hb
      | unfinished hp hpending | ended hp _ hpending =>
          obtain ⟨info, rfl, hlast⟩ := hp.exists_batch hplan
          have hstate : info.state = .completed := by simpa [hlast] using hcompleted
          simp [pending, hstate, BatchState.isTerminal] at hpending

theorem Fetched.query_eq {sql object : String} {imports : List (String × Path)} {shape : Shape}
    {info : BatchInfo} {r : Except ExecutionFault Outcome} {table : Table} {chunks : List Table}
    (h : Fetched (.query sql (some object) imports shape) job [info] turns r)
    (htexts : MakeUp table chunks (History.chunkTexts (successes turns)))
    (hfields : table.fields ≠ []) :
    (∃ fault, Blames turns fault) ∨ r = .ok (.ofTable shape table) := by
  cases h with
  | query hs =>
      obtain ⟨r, hl, rfl⟩ := hs.of_singleton
      cases hl with
      | failed => exact .inl ⟨_, [], _, rfl⟩
      | @listed ids turns r hs =>
          have htail : History.chunkTexts
              (successes ((.queryResultIds job info.id, .ok (.ids ids)) :: turns)) =
              History.chunkTexts (successes turns) := rfl
          rw [htail] at htexts
          rcases hs.parts_eq fun text hm => htexts.readChunk_eq hfields hm with ⟨fault, hb⟩ | rfl
          · exact .inl ⟨fault, hb.append [_]⟩
          · refine .inr ?_
            simp [Except.map, Except.bind, htexts.concat_eq hfields]

variable (t settings)

/-- However its rows are cut into chunks, and whatever empty texts come between, a query whose
batch completes and whose last call does not fail has the whole table for its result, or the
first value of it. -/
theorem query_result_of_chunks (endpoint : Endpoint) (sql object : String)
    (imports : List (String × Path)) (shape : Shape) (files : FileTree) (c : Connection τ)
    (table : Table) (chunks : List Table) (hfields : table.fields ≠ []) :
    let request := Request.query sql (some object) imports shape
    let log := exchanges t settings endpoint request files c
    let history : History := answered log
    MakeUp table chunks history.chunkTexts →
    history.shown.getLast?.map (·.state) = some .completed →
    (∀ x ∈ log.getLast?, x.failed = false) →
    (Act.runFrom c ((executor endpoint t settings).execute request files)).1 =
      .ok (match shape with
        | .table => .table table
        | .scalar => .scalar (match table.rows with
          | (cell :: _) :: _ => cell
          | _ => "")) := by
  intro request log history htexts hcompleted hlast
  have hplan : JobPlan.ofRequest? settings request = some ⟨.query, object, [sql]⟩ := rfl
  obtain ⟨turns, r, k', hrun, hconv, hend⟩ :=
    exists_run_of_meets t settings (meets_execute t settings endpoint files hplan) c
  have hhistory : history = successes turns := hconv.answered_eq
  rw [hhistory] at htexts hcompleted
  have hblames (fault : ExecutionFault) : ¬ Blames turns fault := by
    intro hb
    obtain ⟨x, hx, hfailed⟩ := hconv.getLast?_failed hb
    rw [hlast x hx] at hfailed
    cases hfailed
  rw [hrun]
  cases hend with
  -- Neither the polls can have run out nor the batch have failed, as it was last shown completed.
  | notRun hend => exact absurd (hend.blames rfl hcompleted) (hblames _)
  | @fetched job batches jobTurns turns r hp _ _ hf =>
      obtain ⟨info, rfl, -⟩ := hp.exists_batch rfl
      rw [successes_append, History.chunkTexts_append,
        History.chunkTexts_eq_nil (isResult_successes hp.isResult),
        List.nil_append] at htexts
      rcases hf.query_eq htexts hfields with ⟨fault, hb⟩ | rfl
      · exact absurd (hb.append jobTurns) (hblames fault)
      · obtain ⟨fields, rows, _, _⟩ := table
        rcases shape with _ | _
        · rfl
        · rcases rows with _ | ⟨_ | ⟨cell, row⟩, rows⟩ <;> rfl

open Rehearsal

def twoAccounts : Table := ⟨["Id", "Name"], [["1", "a"], ["2", "b"]], by decide, by decide⟩

def accountChunks : List Table :=
  [⟨["Id", "Name"], [], by decide, by simp⟩, ⟨["Id", "Name"], [["1", "a"]], by decide, by decide⟩,
    ⟨["Id", "Name"], [["2", "b"]], by decide, by decide⟩]

def chunkedAccounts : Connection Listened :=
  { service := ⟨{ replies := [.ok { session := "s" }, .ok { id := "j" },
    .ok { id := "x", state := "Queued" }, .ok { id := "j" },
    .ok { id := "x", state := "InProgress" },
  .ok { id := "x", state := "Completed" }, .ok { ids := ["r1", "r2", "r3", "r4", "r5"] },
  .ok { text := "Id,Name\n" }, .ok { text := "" }, .ok { text := "Id,Name\n1,a\n" },
  .ok { text := "Records not found for this query\n" }, .ok { text := "Id,Name\n2,b\n" }] }, []⟩ }

theorem query_result_of_chunks_twoAccounts :
    let request := Request.query "SELECT Id, Name FROM Account" (some "Account") [] .scalar
    let log := exchanges (transport .src) {} .src request .empty chunkedAccounts
    MakeUp twoAccounts accountChunks (History.chunkTexts (answered log)) ∧
      (Act.runFrom chunkedAccounts ((executor .src (transport .src) {}).execute request .empty)).1 =
        .ok (.scalar "1") := by
  intro request log
  have hsplit : twoAccounts.IsSplit accountChunks := ⟨by decide, by decide⟩
  have htexts : MakeUp twoAccounts accountChunks (History.chunkTexts (answered log)) :=
    ⟨hsplit, by decide, by decide +kernel, by decide +kernel⟩
  exact ⟨htexts, query_result_of_chunks (transport .src) {} .src "SELECT Id, Name FROM Account"
    "Account" [] .scalar .empty
    chunkedAccounts twoAccounts accountChunks (by decide) htexts (by decide +kernel)
      (by decide +kernel)⟩

end TableFlow.Bulk
