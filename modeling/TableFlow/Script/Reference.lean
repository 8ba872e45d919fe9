import TableFlow.Script.Fault
import TableFlow.Script.SqlPiece
import TableFlow.Script.Step
import TableFlow.Text.Word

namespace TableFlow

/-- A qualified name; `endpoint` is none for a local table. -/
structure Reference where
  endpoint : Option Endpoint
  name : List Char
  deriving DecidableEq, Repr

namespace Reference

def qualifier? : List Char → Option (Option Endpoint × List Char)
  | 'c' :: 's' :: 'v' :: '.' :: rest => some (none, rest)
  | 's' :: 'r' :: 'c' :: '.' :: rest => some (some .src, rest)
  | 'd' :: 's' :: 't' :: '.' :: rest => some (some .dst, rest)
  | _ => none

def at? (before : Option Char) (cs : List Char) : Option (Reference × List Char) :=
  match qualifier? cs with
  | some (endpoint, n :: rest) =>
    if Text.isNameStart n && Text.startsWord before then
      some (⟨endpoint, n :: rest.takeWhile Text.isNameChar⟩, rest.dropWhile Text.isNameChar)
    else none
  | _ => none

theorem length_of_qualifier? {cs rest : List Char} {e : Option Endpoint}
    (h : qualifier? cs = some (e, rest)) :
    cs.length = rest.length + 4 := by
  unfold qualifier? at h
  split at h <;> simp_all

theorem length_lt_of_at? {before : Option Char} {cs after : List Char} {r : Reference}
    (h : at? before cs = some (r, after)) : after.length < cs.length := by
  unfold at? at h
  split at h
  · rename_i e n rest hq
    split at h
    · have hl := length_of_qualifier? hq
      simp only [Option.some.injEq, Prod.mk.injEq] at h
      have := (List.dropWhile_sublist Text.isNameChar (l := rest)).length_le
      rw [← h.2]
      simp at hl
      omega
    · simp at h
  · simp at h

inductive Item
  | char (c : Char)
  | reference (r : Reference)
  deriving DecidableEq, Repr

def scan (before : Option Char) (cs : List Char) : List Item :=
  match cs with
  | [] => []
  | c :: rest =>
    match _h : at? before (c :: rest) with
    | some (r, after) => .reference r :: scan r.name.getLast? after
    | none => .char c :: scan (some c) rest
  termination_by cs.length
  decreasing_by
    · exact length_lt_of_at? ‹_›
    · simp

def Item.reference? : Item → Option Reference
  | .char _ => none
  | .reference r => some r

def Item.bare : Item → List Char
  | .char c => [c]
  | .reference r => r.name

end Reference

namespace SqlPiece

/-- A word boundary is judged inside the piece, and only code is looked into. -/
def items : SqlPiece → List Reference.Item
  | .code t => Reference.scan none t
  | .literal t | .comment t => t.map .char

def references (p : SqlPiece) : List Reference := p.items.filterMap Reference.Item.reference?

def bare (p : SqlPiece) : List Char := p.items.flatMap Reference.Item.bare

end SqlPiece

namespace Source

def localNames (refs : List Reference) : List String :=
  ((refs.filter (·.endpoint.isNone)).map fun r => String.ofList r.name).eraseDups

def remoteObjects (refs : List Reference) : List (Endpoint × String) :=
  (refs.filterMap fun r => r.endpoint.map fun e => (e, String.ofList r.name)).eraseDups

/-- What a query reads, and the query without qualifiers. A step reads one remote object or
local tables, not both; a step that writes a local table belongs to the local engine even if it
reads none. -/
def infer (query : String) (sinks : List Sink) : Except SyntaxFault (String × Option Source) :=
  let pieces := SqlPiece.ofQuery query.toList
  let refs := pieces.flatMap SqlPiece.references
  let locals := localNames refs
  let bare := String.ofList (pieces.flatMap SqlPiece.bare)
  match remoteObjects refs with
  | [] =>
    if locals.isEmpty && !sinks.any Sink.isLocalTable then .ok (bare, none)
    else .ok (bare, some (.localTables locals))
  | [(endpoint, object)] =>
    if locals.isEmpty then .ok (bare, some (.remoteObject endpoint object))
    else .error .mixedSources
  | remotes => .error (.manyRemotes remotes.length)

end Source
end TableFlow
