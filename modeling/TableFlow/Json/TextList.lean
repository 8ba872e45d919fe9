import TableFlow.Json.Value
import TableFlow.Text.Debug

namespace TableFlow.Json

def isSpace (c : Char) : Bool := c == ' ' || c == '\n' || c == '\r' || c == '\t'

def skipSpace (cs : List Char) : List Char := cs.dropWhile isSpace

def readWord : List Char → List Char → Except Stop (List Char)
  | [], rest => .ok rest
  | _ :: _, [] => .error ⟨.endInValue, [], false⟩
  | w :: word, c :: rest =>
      if c = w then readWord word rest else .error ⟨.expectedIdent, rest, false⟩

/-- The stop at a value that is well formed and of another type than the one expected. -/
def otherType (expected : String) (cs : List Char) : Stop :=
  let found (what : String) (rest : List Char) : Stop := ⟨.wrongType what expected, rest, false⟩
  let word (letters what : String) (rest : List Char) : Stop :=
    match readWord letters.toList rest with
    | .ok rest => found what rest
    | .error stop => stop
  match cs with
  | 'n' :: rest => word "ull" "null" rest
  | 't' :: rest => word "rue" "boolean \x60true\x60" rest
  | 'f' :: rest => word "alse" "boolean \x60false\x60" rest
  | '"' :: rest =>
    match readText rest with
    | .ok (text, after) => found ("string " ++ Text.debug text) after
    | .error stop => stop
  | '[' :: _ => found "sequence" cs
  | '\x7b' :: _ => found "map" cs
  | c :: rest =>
    let digits := (if c == '-' then rest else cs).takeWhile Char.isDigit
    let sign := if c == '-' then ['-'] else []
    if digits.isEmpty then
      if c == '-' then ⟨.invalidNumber, rest, true⟩ else ⟨.expectedValue, cs, true⟩
    else found ("integer \x60" ++ String.ofList (sign ++ digits) ++ "\x60")
      (cs.drop (sign.length + digits.length))
  | [] => ⟨.endInValue, [], true⟩

def readItem : Reader String
  | '"' :: rest => readText rest
  | cs => .error (otherType "a string" cs)

def readItems : Nat → Reader (List String)
  | 0, cs => .error ⟨.endInList, cs, true⟩
  | bound + 1, cs => do
    let (text, rest) ← readItem cs
    match skipSpace rest with
    | ']' :: after => .ok ([text], after)
    | ',' :: more =>
      match skipSpace more with
      | [] => .error ⟨.endInValue, [], true⟩
      | ']' :: after => .error ⟨.trailingComma, ']' :: after, true⟩
      | next => do
        let (texts, after) ← readItems bound next
        .ok (text :: texts, after)
    | [] => .error ⟨.endInList, [], true⟩
    | next => .error ⟨.expectedCommaOrEnd, next, true⟩

def readTextList (cs : List Char) : Except Stop (List String) := do
  let (texts, rest) ←
    match skipSpace cs with
    | '[' :: rest =>
      match skipSpace rest with
      | ']' :: after => .ok ([], after)
      | [] => .error ⟨.endInList, [], true⟩
      | next => readItems next.length next
    | next => .error (otherType "a sequence" next)
  match skipSpace rest with
  | [] => .ok texts
  | next => .error ⟨.trailing, next, true⟩

def textList (document : String) : Except Fault (List String) :=
  (readTextList document.toList).mapError (Stop.inDocument document.toList)

end TableFlow.Json
