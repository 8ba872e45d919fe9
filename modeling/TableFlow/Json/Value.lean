import TableFlow.Json.Text

namespace TableFlow

inductive JsonValue
  | null
  | bool (b : Bool)
  | nat (n : Nat)
  | text (s : String)
  | list (items : List JsonValue)
  | object (members : List (String × JsonValue))

namespace JsonValue

def ofTexts (texts : List String) : JsonValue := .list (texts.map .text)

def ofOption {α : Type} (f : α → JsonValue) : Option α → JsonValue
  | none => .null
  | some a => f a

def lineStart (depth : Nat) : String := "\n" ++ String.ofList (List.replicate (2 * depth) ' ')

def block (opening closing : String) (depth : Nat) (items : List String) : String :=
  if items.isEmpty then opening ++ closing
  else opening ++ ",".intercalate (items.map (lineStart (depth + 1) ++ ·)) ++
    lineStart depth ++ closing

mutual

/-- The indented form of a value whose line is `depth` steps deep. -/
def pretty (depth : Nat) : JsonValue → String
  | .null => "null"
  | .bool b => if b then "true" else "false"
  | .nat n => Nat.repr n
  | .text s => Json.quote s
  | .list items => block "[" "]" depth (prettyItems (depth + 1) items)
  | .object members => block "\x7b" "\x7d" depth (prettyMembers (depth + 1) members)

def prettyItems (depth : Nat) : List JsonValue → List String
  | [] => []
  | item :: rest => item.pretty depth :: prettyItems depth rest

def prettyMembers (depth : Nat) : List (String × JsonValue) → List String
  | [] => []
  | (key, value) :: rest =>
      (Json.quote key ++ ": " ++ value.pretty depth) :: prettyMembers depth rest

end

end JsonValue
end TableFlow
