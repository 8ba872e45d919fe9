import TableFlow.Proofs.Bulk.RequestRun

namespace TableFlow.Bulk

abbrev History := List (Asked × Answer)

namespace History

def shown (history : History) : List BatchInfo := history.filterMap fun entry =>
  match entry with
  | (.addBatch .., .batch info) | (.batchInfo .., .batch info) => some info
  | _ => none

def submitted (history : History) : List String := history.filterMap fun entry =>
  match entry with
  | (.addBatch .., .batch info) => some info.id
  | _ => none

def seen (history : History) (id : String) : List BatchInfo := (shown history).filter (·.id == id)

def lastState (history : History) (id : String) : Option BatchState :=
  (seen history id).getLast?.map (·.state)

def listed (history : History) (batch : String) : List String := history.flatMap fun entry =>
  match entry with
  | (.queryResultIds _ other, .ids ids) => if other = batch then ids else []
  | _ => []

def createdJob? (history : History) : Option String := history.findSome? fun entry =>
  match entry with
  | (.createJob .., .job info) => some info.id
  | _ => none

/-- The batches of the job have ids of their own, and a batch that is asked for is the one that
is shown. -/
structure KeepsIds (history : History) : Prop where
  nodup : (submitted history).Nodup
  id_eq {job id info} : (Asked.batchInfo job id, Answer.batch info) ∈ history → info.id = id

theorem keepsIds_iff {history : History} : KeepsIds history ↔ (submitted history).Nodup ∧
    history.all (fun entry => match entry with
      | (.batchInfo _ id, .batch info) => info.id == id
      | _ => true) = true := by
  rw [List.all_eq_true]
  constructor
  · rintro ⟨hnodup, hid⟩
    refine ⟨hnodup, ?_⟩
    rintro ⟨asked, answer⟩ hm
    split
    · rename_i heq
      cases heq
      exact beq_iff_eq.mpr (hid hm)
    · rfl
  · rintro ⟨hnodup, hall⟩
    exact ⟨hnodup, fun hm => beq_iff_eq.mp (hall _ hm)⟩

instance (history : History) : Decidable (KeepsIds history) := decidable_of_iff _ keepsIds_iff.symm

variable (history history' : History)

@[simp] theorem shown_append : shown (history ++ history') = shown history ++ shown history' :=
  List.filterMap_append

@[simp] theorem submitted_append : submitted (history ++ history') =
    submitted history ++ submitted history' :=
  List.filterMap_append

@[simp] theorem seen_append (id : String) : seen (history ++ history') id =
    seen history id ++ seen history' id := by
  simp [seen]

@[simp] theorem listed_append (batch : String) :
    listed (history ++ history') batch = listed history batch ++ listed history' batch :=
      List.flatMap_append

@[simp] theorem shown_nil : shown [] = [] := rfl

@[simp] theorem submitted_nil : submitted [] = [] := rfl

@[simp] theorem shown_createJob (operation : Operation) (object : String) (answer : Answer) :
    shown ((.createJob operation object, answer) :: history) = shown history := rfl

@[simp] theorem submitted_createJob (operation : Operation) (object : String) (answer : Answer) :
    submitted ((.createJob operation object, answer) :: history) = submitted history := rfl

@[simp] theorem shown_addBatch (job payload : String) (info : BatchInfo) :
    shown ((.addBatch job payload, .batch info) :: history) = info :: shown history := rfl

@[simp] theorem submitted_addBatch (job payload : String) (info : BatchInfo) :
    submitted ((.addBatch job payload, .batch info) :: history) = info.id :: submitted history :=
      rfl

@[simp] theorem shown_closeJob (job : String) (answer : Answer) :
    shown ((.closeJob job, answer) :: history) = shown history := rfl

@[simp] theorem submitted_closeJob (job : String) (answer : Answer) :
    submitted ((.closeJob job, answer) :: history) = submitted history := rfl

@[simp] theorem shown_batchInfo (job batch : String) (info : BatchInfo) :
    shown ((.batchInfo job batch, .batch info) :: history) = info :: shown history := rfl

@[simp] theorem submitted_batchInfo (job batch : String) (answer : Answer) :
    submitted ((.batchInfo job batch, answer) :: history) = submitted history := rfl

theorem seen_singleton {entry : Asked × Answer} {info : BatchInfo} (h : shown [entry] = [info])
    (id : String) :
    seen [entry] id = if info.id = id then [info] else [] := by
  by_cases hid : info.id = id <;> simp [seen, h, hid]

theorem createdJob?_append {job : String} (h : createdJob? history = some job) :
    createdJob? (history ++ history') = some job := by
  rw [createdJob?, List.findSome?_append, ← createdJob?, h]
  rfl

theorem KeepsIds.of_append {history history' : History} (h : KeepsIds (history ++ history')) :
    KeepsIds history :=
  ⟨(List.nodup_append.mp (submitted_append _ _ ▸ h.nodup)).1, fun hm =>
    h.id_eq (List.mem_append_left _ hm)⟩

end History

def Asked.isResult : Asked → Bool
  | .queryResultIds .. | .queryResultChunk .. | .batchResults .. => true
  | .createJob .. | .addBatch .. | .batchInfo .. | .closeJob .. => false

namespace History

theorem filterMap_eq_nil {β : Type} {history : History} {b : Bool} {f : Asked × Answer → Option β}
    (hf : ∀ asked answer, asked.isResult = b → f (asked, answer) = none)
    (h : ∀ entry ∈ history, entry.1.isResult = b) :
    history.filterMap f = [] := List.filterMap_eq_nil_iff.mpr fun entry hm => hf _ _ (h entry hm)

theorem shown_eq_nil {history : History} (h : ∀ entry ∈ history, entry.1.isResult = true) :
    shown history = [] :=
  filterMap_eq_nil (fun asked _ hr => by cases asked <;> first | rfl | cases hr) h

theorem submitted_eq_nil {history : History} (h : ∀ entry ∈ history, entry.1.isResult = true) :
    submitted history = [] :=
  filterMap_eq_nil (fun asked _ hr => by cases asked <;> first | rfl | cases hr) h

end History
end TableFlow.Bulk
