import TableFlow.Proofs.Script.Pieces

namespace TableFlow.Source

open SqlPiece

/-- The source that references and sinks make, whatever the query is otherwise. -/
def choose (refs : List Reference) (sinks : List Sink) : Except SyntaxFault (Option Source) :=
  match remoteObjects refs with
  | [] =>
    if (localNames refs).isEmpty && !sinks.any Sink.isLocalTable then .ok none
    else .ok (some (.localTables (localNames refs)))
  | [(endpoint, object)] =>
    if (localNames refs).isEmpty then .ok (some (.remoteObject endpoint object))
    else .error .mixedSources
  | remotes => .error (.manyRemotes remotes.length)

def strip (query : String) : List Char := (ofQuery query.toList).flatMap bare

theorem infer_eq (query : String) (sinks : List Sink) :
    infer query sinks = (choose ((ofQuery query.toList).flatMap references) sinks).map fun source =>
      (String.ofList (strip query), source) := by
  simp only [infer, choose]
  rcases remoteObjects ((ofQuery query.toList).flatMap references) with _ |
    ⟨⟨endpoint, object⟩, _ | ⟨second, rest⟩⟩
  · dsimp only
    split <;> rfl
  · dsimp only
    split <;> rfl
  · rfl

theorem infer_eq_ok_iff {query stripped : String} {sinks : List Sink} {source : Option Source} :
    infer query sinks = .ok (stripped, source) ↔
      choose ((ofQuery query.toList).flatMap references) sinks = .ok source ∧
        stripped.toList = strip query := by
  rw [infer_eq]
  cases choose ((ofQuery query.toList).flatMap references) sinks with
  | error fault => exact iff_of_false nofun (fun h => by cases h.1)
  | ok chosen =>
      simp only [Except.map, Except.ok.injEq, Prod.mk.injEq, and_comm (a := chosen = source),
        and_congr_left_iff]
      rintro rfl
      rw [← String.toList_inj, String.toList_ofList, eq_comm]

/-- What is made of two queries that are alike but for a text: the same fault, or the same
source and two stripped queries that are alike but for this text. -/
inductive Alike (t t' : List Char) : Except SyntaxFault (String × Option Source) →
    Except SyntaxFault (String × Option Source) → Prop
  | refused {fault} : Alike t t' (.error fault) (.error fault)
  | accepted {opening closing source} : Alike t t'
      (.ok (String.ofList (opening ++ t ++ closing), source))
      (.ok (String.ofList (opening ++ t' ++ closing), source))

variable {p p' : SqlPiece} {front back : List SqlPiece} {t t' : List Char} {query other : String}

theorem alike_of_differ (h : Differ t t' p p') (hquery : ofQuery query.toList = front ++ p :: back)
    (hother : ofQuery other.toList = front ++ p' :: back) (sinks : List Sink) :
    Alike t t' (infer query sinks) (infer other sinks) := by
  obtain ⟨hp, hp'⟩ := h.isCode
  have hrefs : (ofQuery query.toList).flatMap references =
      (ofQuery other.toList).flatMap references := by
    simp only [hquery, hother, List.flatMap_append, List.flatMap_cons, references_of_not_code hp,
      references_of_not_code hp']
  obtain ⟨opening, closing, htext, htext'⟩ := h.text_eq
  have hstrip {p : SqlPiece} {t : List Char} {query : String}
      (hquery : ofQuery query.toList = front ++ p :: back)
      (hp : p.isCode = false) (htext : p.text = opening ++ t ++ closing) :
      strip query = (front.flatMap bare ++ opening) ++ t ++ (closing ++ back.flatMap bare) := by
    simp only [strip, hquery, List.flatMap_append, List.flatMap_cons, bare_of_not_code hp, htext,
      List.append_assoc]
  rw [infer_eq, infer_eq, hrefs, hstrip hquery hp htext, hstrip hother hp' htext']
  cases choose ((ofQuery other.toList).flatMap references) sinks with
  | error fault => exact .refused
  | ok source => exact .accepted

/-- The pieces of a query make it up and are what they are called. Those that are not code are
copied into the stripped query, and their texts have no bearing on anything else: other texts in
their places leave the pieces around them as they are, and what is read from the query as well. -/
theorem literals_and_comments_inert (query : String) :
    (ofQuery query.toList).flatMap text = query.toList ∧
    (∀ front p back, ofQuery query.toList = front ++ p :: back → p.text ≠ [] ∧
      p.Ends (back.flatMap text)) ∧
    (∀ sinks stripped source, infer query sinks = .ok (stripped, source) →
      stripped.toList = (ofQuery query.toList).flatMap bare) ∧
    (∀ p ∈ ofQuery query.toList, p.isCode = false → p.bare = p.text) ∧
    ∀ front p back t t' p', ofQuery query.toList = front ++ p :: back → Differ t t' p p' →
      let other := String.ofList ((front ++ p' :: back).flatMap text)
      ofQuery other.toList = front ++ p' :: back ∧
        ∀ sinks, Alike t t' (infer query sinks) (infer other sinks) := by
  refine ⟨flatMap_text_ofQuery _, fun front p back hpieces => ?_,
    fun sinks stripped source hinfer => ?_,
    fun p _ hp => bare_of_not_code hp, fun front p back t t' p' hpieces hdiffer => ?_⟩
  · have hdivided := divided_ofQuery query.toList
    rw [hpieces] at hdivided
    exact ⟨hdivided.ends.text_ne_nil, hdivided.ends⟩
  · rw [infer_eq] at hinfer
    cases hchoice : choose ((ofQuery query.toList).flatMap references) sinks with
    | error fault =>
        rw [hchoice] at hinfer
        cases hinfer
    | ok chosen =>
        rw [hchoice] at hinfer
        cases hinfer
        rw [String.toList_ofList, strip]
  · intro other
    have hother : ofQuery other.toList = front ++ p' :: back := by
      rw [String.toList_ofList]
      exact ofQuery_of_differ hdiffer hpieces
    exact ⟨hother, alike_of_differ hdiffer hpieces hother⟩

def quoting : String := "SELECT 'it''s csv.t' FROM csv.u -- csv.v"

def quotingPieces : List SqlPiece :=
  [.code "SELECT ".toList, .literal "'it''s csv.t'".toList, .code " FROM csv.u ".toList,
    .comment "-- csv.v".toList]

theorem literals_and_comments_inert_quoting :
    ofQuery quoting.toList = quotingPieces ∧
      (infer quoting []).toOption = some ("SELECT 'it''s csv.t' FROM u -- csv.v",
        some (.localTables ["u"])) ∧
      ∀ sinks, Alike "s csv.t".toList "dst.a".toList (infer quoting sinks)
        (infer "SELECT 'it''dst.a' FROM csv.u -- csv.v" sinks) := by
  have hpieces : ofQuery quoting.toList = quotingPieces := by decide +kernel
  have hbefore : Paired "it''".toList := .char (by decide) (.char (by decide) (.quotes .nil))
  have hdiffer : Differ "s csv.t".toList "dst.a".toList (.literal "'it''s csv.t'".toList)
      (.literal "'it''dst.a'".toList) :=
    .literal hbefore .nil (by decide) (by decide)
  obtain ⟨_, _, _, _, hinert⟩ := literals_and_comments_inert quoting
  obtain ⟨_, halike⟩ := hinert [.code "SELECT ".toList] _ _ _ _ _ hpieces hdiffer
  refine ⟨hpieces, ?_, halike⟩
  decide +kernel

end TableFlow.Source
