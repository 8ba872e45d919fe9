import TableFlow.Bulk.Http
import TableFlow.Proofs.Xml.Markup

namespace TableFlow.Bulk

def BatchState.texts : BatchState → List String
  | .queued => ["Queued"]
  | .inProgress => ["InProgress"]
  | .completed => ["Completed"]
  | .failed => ["Failed"]
  | .notProcessed => ["Not Processed", "NotProcessed"]

theorem BatchState.ofText?_eq_some_iff {text : String} {state : BatchState} :
    ofText? text = some state ↔ text ∈ state.texts := by
  constructor
  · intro h
    unfold ofText? at h
    split at h <;> cases h
    all_goals simp [texts]
  · intro h
    cases state <;> simp only [texts, List.mem_cons, List.not_mem_nil, or_false] at h
    case notProcessed => rcases h with rfl | rfl <;> rfl
    all_goals
      subst h
      rfl

namespace Http

open Xml

def Quiet (names fillers : List String) : Prop :=
  ∀ filler ∈ fillers, ∀ name ∈ names, name ∉ tags filler

instance (names fillers : List String) : Decidable (Quiet names fillers) :=
  inferInstanceAs (Decidable (∀ filler ∈ fillers, ∀ name ∈ names, name ∉ tags filler))

theorem text?_of_find {names : List String} {first text : String} {parts : List Part}
    (name : String) (hquiet : Quiet names (first :: parts.map Part.after))
    (htags : ∀ tag ∈ parts.map Part.tag, IsTag tag) (hname : name ∈ names) (htag : IsTag name)
    (hfind : (parts.find? (·.tag = name)).map Part.text = some text) :
    text? name (record first parts) = some text := by
  obtain ⟨hfirst, hafter⟩ := List.forall_mem_cons.mp hquiet
  have hparts : ∀ part ∈ parts, IsTag part.tag :=
    fun part hpart => htags _ (List.mem_map_of_mem hpart)
  have hquiet' : ∀ part ∈ parts, name ∉ tags part.after :=
    fun part hpart => hafter _ (List.mem_map_of_mem hpart) name hname
  rw [text?_record htag hparts (hfirst name hname) hquiet', hfind]

theorem readBatch_eq {answer id state message : String} (hid : text? "id" answer = some id)
    (hstate : text? "state" answer = some state)
    (hmessage : text? "stateMessage" answer = some message) :
    readBatch answer = match BatchState.ofText? state with
      | some known => .ok ⟨id, known, if message = "" then none else some message⟩
      | none => .error (.unexpected s!"unknown batch state '{state}'") := by
  have hfilter : (some message).filter (· ≠ "") = if message = "" then none else some message := by
    by_cases h : message = "" <;> simp [h]
  rw [readBatch, hid, hstate, hmessage, hfilter]
  cases hknown : BatchState.ofText? state with
  | none => simp [hknown]
  | some known => simp [hknown]

theorem refusal_eq (status : Nat) {answer code message : String}
    (hcode : text? "exceptionCode" answer = some code)
    (hmessage : text? "exceptionMessage" answer = some message) :
    refusal status answer = if code = "InvalidSessionId" then
      .sessionExpired else .api code message := by
  rw [refusal, hcode, hmessage]
  rfl

/-- What the service says of a batch or of a refusal is read as it was written, whatever markup
is in the texts. A batch is refused only for its state, and a session has ended only if the code
says so, not the message. -/
theorem answers_read_as_written :
    (∀ first gap gap' gap'' rest id job state message,
      Quiet ["id", "state", "stateMessage"] [first, gap, gap', gap'', rest] →
      let answer :=
        record first [⟨"id", id, gap⟩, ⟨"jobId", job, gap'⟩, ⟨"state", state, gap''⟩,
          ⟨"stateMessage", message, rest⟩]
      (∀ known : BatchState, state ∈ known.texts →
        readBatch answer = .ok ⟨id, known, if message = "" then none else some message⟩) ∧
      ∀ e, readBatch answer = .error e ↔
        e = .unexpected s!"unknown batch state '{state}'" ∧
          ∀ known : BatchState, state ∉ known.texts) ∧
    ∀ status first gap rest code message,
      Quiet ["exceptionCode", "exceptionMessage"] [first, gap, rest] →
      let answer := record first [⟨"exceptionCode", code, gap⟩, ⟨"exceptionMessage", message, rest⟩]
      (refusal status answer = .sessionExpired ↔ code = "InvalidSessionId") ∧
      (code ≠ "InvalidSessionId" → refusal status answer = .api code message) := by
  refine ⟨fun first gap gap' gap'' rest id job state message hquiet => ?_,
    fun status first gap rest code message hquiet => ?_⟩
  · intro answer
    have htags : ∀ tag ∈ ["id", "jobId", "state", "stateMessage"], IsTag tag := by decide
    have hid : text? "id" answer = some id :=
      text?_of_find "id" hquiet htags (by decide) (by decide) rfl
    have hstate : text? "state" answer = some state :=
      text?_of_find "state" hquiet htags (by decide) (by decide) rfl
    have hmessage : text? "stateMessage" answer = some message :=
      text?_of_find "stateMessage" hquiet htags (by decide) (by decide) rfl
    rw [readBatch_eq hid hstate hmessage]
    simp only [← BatchState.ofText?_eq_some_iff]
    cases BatchState.ofText? state with
    | none => simp [eq_comm]
    | some known => simp
  · intro answer
    have htags : ∀ tag ∈ ["exceptionCode", "exceptionMessage"], IsTag tag := by decide
    have hcode : text? "exceptionCode" answer = some code :=
      text?_of_find "exceptionCode" hquiet htags (by decide) (by decide) rfl
    have hmessage : text? "exceptionMessage" answer = some message :=
      text?_of_find "exceptionMessage" hquiet htags (by decide) (by decide) rfl
    rw [refusal_eq status hcode hmessage]
    by_cases hexpired : code = "InvalidSessionId" <;> simp [hexpired]

/-- A batch whose id names another state and whose message names another id, and a refusal whose
message says that the session has ended. -/
theorem answers_read_as_written_of_markup :
    let batch :=
      record "<batchInfo>" [⟨"id", "7<state>Failed</state>", "\n"⟩, ⟨"jobId", "<id>8</id>", "\n"⟩,
        ⟨"state", "Not Processed", "\n"⟩, ⟨"stateMessage", "<id>&lt;</id>", "</batchInfo>"⟩]
    let refused := record "<error>" [⟨"exceptionCode", "InvalidJob", ""⟩,
      ⟨"exceptionMessage", "<exceptionCode>InvalidSessionId</exceptionCode>", "</error>"⟩]
    batch =
      "<batchInfo><id>7&lt;state&gt;Failed&lt;/state&gt;</id>\n<jobId>&lt;id&gt;8&lt;/id&gt;</jobId>\n" ++
      "<state>Not Processed</state>\n<stateMessage>&lt;id&gt;&amp;lt;&lt;/id&gt;</stateMessage></batchInfo>" ∧
    Quiet ["id", "state", "stateMessage"] ["<batchInfo>", "\n", "\n", "\n", "</batchInfo>"] ∧
    readBatch batch = .ok ⟨"7<state>Failed</state>", .notProcessed, some "<id>&lt;</id>"⟩ ∧
    Quiet ["exceptionCode", "exceptionMessage"] ["<error>", "", "</error>"] ∧
    refusal 400 refused = .api "InvalidJob" "<exceptionCode>InvalidSessionId</exceptionCode>" := by
  intro batch refused
  have hbatch : Quiet ["id", "state", "stateMessage"]
      ["<batchInfo>", "\n", "\n", "\n", "</batchInfo>"] := by decide +kernel
  have hrefused : Quiet ["exceptionCode", "exceptionMessage"] ["<error>", "", "</error>"] := by
    decide +kernel
  obtain ⟨hread, _⟩ :=
    answers_read_as_written.1 _ _ _ _ _ "7<state>Failed</state>" "<id>8</id>" "Not Processed"
      "<id>&lt;</id>" hbatch
  obtain ⟨_, hapi⟩ :=
    answers_read_as_written.2 400 _ _ _ "InvalidJob"
      "<exceptionCode>InvalidSessionId</exceptionCode>" hrefused
  exact ⟨by decide +kernel, hbatch, hread .notProcessed (by decide), hrefused, hapi (by decide)⟩

end Http
end TableFlow.Bulk
