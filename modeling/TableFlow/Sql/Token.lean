import TableFlow.Decimal.Numeral
import TableFlow.Text.Hex

namespace TableFlow.Sql

inductive TokenKind
  | word (text : String)
  /-- A name in double quotes, backquotes or brackets, with the opening one. -/
  | name (text : String) (quote : Char)
  | text (text : String)
  | blob (bytes : List UInt8)
  | number (text : String)
  | symbol (c : Char)
  | bad
  deriving DecidableEq, Repr

structure Token where
  kind : TokenKind
  start : Nat
  stop : Nat
  deriving DecidableEq, Repr

namespace Token

def isSpace (c : Char) : Bool := c == ' ' || c == '\t' || c == '\n' || c == '\r' || c == '\x0c'

def isWordStart (c : Char) : Bool := c.isAlpha || c == '_' || 0x80 ≤ c.toNat

def isWordChar (c : Char) : Bool := isWordStart c || c.isDigit || c == '$'

def quotedRest (quote : Char) : List Char → Option (List Char × List Char)
  | [] => none
  | [c] => if c = quote then some ([], []) else none
  | c :: d :: rest =>
    if c = quote then
      if d = quote then (quotedRest quote rest).map fun r =>
        (quote :: r.1, r.2) else some ([], d :: rest)
    else (quotedRest quote (d :: rest)).map fun r => (c :: r.1, r.2)

def hexBytes : List Char → Option (List UInt8)
  | [] => some []
  | a :: b :: rest => do
    let high ← Hex.value? a
    let low ← Hex.value? b
    some (UInt8.ofNat (16 * high + low) :: (← hexBytes rest))
  | [_] => none

def skipBlock : List Char → List Char
  | '*' :: '/' :: rest => rest
  | _ :: rest => skipBlock rest
  | [] => []

def blob (cs : List Char) : TokenKind × List Char :=
  let digits := cs.takeWhile fun c => (Hex.value? c).isSome
  match cs.drop digits.length, hexBytes digits with
  | '\'' :: after, some bytes => (.blob bytes, after)
  | rest, _ => (.bad, (rest.dropWhile (· != '\'')).drop 1)

def first (cs : List Char) : TokenKind × List Char :=
  match cs with
  | [] => (.bad, [])
  | c :: rest =>
    if c == '\'' then
      match quotedRest c rest with
      | some (text, after) => (.text (String.ofList text), after)
      | none => (.bad, [])
    else if c == '"' || c == '\x60' then
      match quotedRest c rest with
      | some (text, after) => (.name (String.ofList text) c, after)
      | none => (.bad, [])
    else if c == '[' then
      let text := rest.takeWhile (· != ']')
      match rest.drop text.length with
      | _ :: after => (.name (String.ofList text) c, after)
      | [] => (.bad, [])
    else if Decimal.startsNumber cs then
      let number := Decimal.numberPart cs
      let after := cs.drop number.length
      if after.head?.any isWordChar then (.bad, after.dropWhile isWordChar)
      else (.number (String.ofList number), after)
    else if isWordStart c then
      let word := cs.takeWhile isWordChar
      match word, cs.drop word.length with
      | [x], '\'' :: more =>
        if x == 'x' || x == 'X' then blob more else (.word (String.ofList word), '\'' :: more)
      | word, after => (.word (String.ofList word), after)
    else if ['(', ')', ',', ';', '*', '-', '+', '=', '.', '/', '<', '>', '|', '&', '~', '%',
      '?'].contains c then (.symbol c, rest)
    else (.bad, rest)

def scan (length : Nat) : Nat → List Char → List Token
  | 0, _ => []
  | _, [] => []
  | bound + 1, '-' :: '-' :: rest => scan length bound (rest.dropWhile (· != '\n'))
  | bound + 1, '/' :: '*' :: rest => scan length bound (skipBlock rest)
  | bound + 1, c :: rest =>
    if isSpace c then scan length bound rest
    else
      let (kind, after) := first (c :: rest)
      ⟨kind, length - (rest.length + 1), length - after.length⟩ :: scan length bound after

def ofText (cs : List Char) : List Token := scan cs.length cs.length cs

def isSemicolon (t : Token) : Bool := t.kind == .symbol ';'

/-- The statements, each with the semicolon that ends it; only the last may be without. -/
def statements : List Token → List (List Token)
  | [] => []
  | t :: rest =>
    match statements rest with
    | [] => [[t]]
    | s :: more => if t.isSemicolon then [t] :: s :: more else (t :: s) :: more

end Token
end TableFlow.Sql
