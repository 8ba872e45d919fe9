import TableFlow.Scope.Basic
import TableFlow.Text.Word

namespace TableFlow.Template

def hole? : List Char → Option (List Char × List Char)
  | [] => none
  | n :: rest =>
    match Text.isNameStart n, rest.dropWhile Text.isNameChar with
    | true, '\x7d' :: after => some (n :: rest.takeWhile Text.isNameChar, after)
    | _, _ => none

inductive Item
  | char (c : Char)
  | hole (name : List Char)
  deriving DecidableEq, Repr

theorem length_lt_of_hole? {cs name after : List Char} (h : hole? cs = some (name, after)) :
    after.length < cs.length := by
  unfold hole? at h
  split at h
  · simp at h
  · rename_i n rest
    split at h
    · rename_i hd
      have := (List.dropWhile_sublist Text.isNameChar (l := rest)).length_le
      simp only [Option.some.injEq, Prod.mk.injEq] at h
      rw [hd, h.2] at this
      simp at this ⊢
      omega
    · simp at h

def scan (cs : List Char) : List Item :=
  match cs with
  | [] => []
  | c :: rest =>
    match c, hole? rest, @length_lt_of_hole? rest with
    | '\x7b', some (name, after), _ => .hole name :: scan after
    | c, _, _ => .char c :: scan rest
  termination_by cs.length
  decreasing_by
    · rename_i h
      have := h rfl
      simp
      omega
    · simp

namespace Item

def name? : Item → Option String
  | .char _ => none
  | .hole name => some (String.ofList name)

/-- A placeholder whose name is not bound stays as it is written. -/
def fill (s : Scope) : Item → String
  | .char c => c.toString
  | .hole name =>
    match s.get? (String.ofList name) with
    | some value => value.render
    | none => "\x7b" ++ String.ofList name ++ "\x7d"

end Item
end TableFlow.Template

namespace TableFlow.Scope

/-- Placeholders are replaced in one pass. A value that is put in is not looked into again. -/
def interpolate (s : Scope) (text : String) : String :=
  String.join ((Template.scan text.toList).map (Template.Item.fill s))

def unresolved (s : Scope) (text : String) : List String :=
  ((Template.scan text.toList).filterMap Template.Item.name?).filter fun name =>
    (s.get? name).isNone

end TableFlow.Scope
