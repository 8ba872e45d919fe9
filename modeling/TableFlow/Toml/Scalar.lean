import TableFlow.Config.Setting
import TableFlow.Text.Hex

namespace TableFlow.Toml

abbrev Reader (α : Type) := List Char → Option (α × List Char)

def isSpace (c : Char) : Bool := c == ' ' || c == '\t'

def isPlain (c : Char) : Bool := c == '\t' || (32 ≤ c.toNat && c.toNat != 127)

def codePoint (digits : Nat) : Reader Char := fun cs => do
  let values ← (cs.take digits).mapM Hex.value?
  let n := values.foldl (fun n d => 16 * n + d) 0
  if values.length = digits && n.isValidChar then some (Char.ofNat n, cs.drop digits) else none

def escaped : Reader Char
  | [] => none
  | c :: rest =>
    match c with
    | 'b' => some ('\x08', rest)
    | 't' => some ('\t', rest)
    | 'n' => some ('\n', rest)
    | 'f' => some ('\x0c', rest)
    | 'r' => some ('\r', rest)
    | '"' | '\\' => some (c, rest)
    | 'u' => codePoint 4 rest
    | 'U' => codePoint 8 rest
    | _ => none

structure Quoting where
  quote : Char
  multiline : Bool
  deriving DecidableEq, Repr

def Quoting.escapes (q : Quoting) : Bool := q.quote == '"'

def Quoting.close? (q : Quoting) (cs : List Char) : Option (List Char × List Char) :=
  let run := (cs.takeWhile (· == q.quote)).length
  if !q.multiline then if 1 ≤ run then some ([], cs.drop 1) else none
  else if run < 3 then none
  else
    let inside := min (run - 3) 2
    some (List.replicate inside q.quote, cs.drop (inside + 3))

/-- Where a text goes on after a backslash at the end of a line. -/
def continued? (cs : List Char) : Option (List Char) :=
  match cs.dropWhile isSpace with
  | '\n' :: rest => some (rest.dropWhile fun c => isSpace c || c == '\n')
  | _ => none

/-- The text up to its closing quotes. The bound counts the characters that may still be read. -/
def quotedFrom (q : Quoting) : Nat → Reader (List Char)
  | 0, _ => none
  | bound + 1, cs =>
    match q.close? cs with
    | some (inside, rest) => some (inside, rest)
    | none =>
      match cs with
      | [] => none
      | c :: rest =>
        match if q.escapes && c == '\\' && q.multiline then continued? rest else none with
        | some next => quotedFrom q bound next
        | none => do
          let (c, rest) ←
            if q.escapes && c == '\\' then escaped rest
            else if isPlain c || (q.multiline && c == '\n') then some (c, rest)
            else none
          let (text, after) ← quotedFrom q bound rest
          some (c :: text, after)

def quoted (q : Quoting) (cs : List Char) : Option (String × List Char) := do
  let (text, after) ← quotedFrom q (cs.length + 1) cs
  some (String.ofList text, after)

def lineText : Reader String
  | '"' :: rest => quoted ⟨'"', false⟩ rest
  | '\'' :: rest => quoted ⟨'\'', false⟩ rest
  | _ => none

def text (cs : List Char) : Option (String × List Char) :=
  match cs with
  | '"' :: '"' :: '"' :: '\n' :: rest | '"' :: '"' :: '"' :: rest => quoted ⟨'"', true⟩ rest
  | '\'' :: '\'' :: '\'' :: '\n' :: rest | '\'' :: '\'' :: '\'' :: rest => quoted ⟨'\'', true⟩ rest
  | _ => lineText cs

/-- Digits without the underscores between them, if there are digits and each underscore has one
on both sides. -/
def withoutUnderscores? (isDigit : Char → Bool) (cs : List Char) : Option (List Char) :=
  let parts := cs.splitOn '_'
  if parts.all fun part => !part.isEmpty && part.all isDigit then some parts.flatten else none

def decimalDigits? (cs : List Char) : Option (List Char) := do
  let digits ← withoutUnderscores? Char.isDigit cs
  if digits.head? = some '0' && 1 < digits.length then none else some digits

def inRange (n : Int) : Option Setting := if Decimal.fitsWord n then some (.int n) else none

def integer? (cs : List Char) : Option Setting :=
  let based (base : Nat) (digits : List Char) : Option Setting := do
    let isDigit (c : Char) := (Hex.value? c).any (· < base)
    let values ← (← withoutUnderscores? isDigit digits).mapM Hex.value?
    inRange (values.foldl (fun n d => base * n + d) 0 : Nat)
  match cs with
  | '0' :: 'x' :: digits => based 16 digits
  | '0' :: 'o' :: digits => based 8 digits
  | '0' :: 'b' :: digits => based 2 digits
  | _ => do
    let (negative, rest) := Decimal.withoutSign cs
    let n ← Decimal.natOf? (← decimalDigits? rest)
    inRange (if negative then -(n : Int) else n)

def realDigits? (cs : List Char) : Option (List Char) := do
  let isMark (c : Char) := c == '.' || c == 'e' || c == 'E'
  let whole ← decimalDigits? (cs.takeWhile (!isMark ·))
  let (fraction, tail) ← match cs.dropWhile (!isMark ·) with
    | '.' :: rest => do
      let digits ← withoutUnderscores? Char.isDigit (rest.takeWhile (!isMark ·))
      some ('.' :: digits, rest.dropWhile (!isMark ·))
    | rest => some ([], rest)
  match tail with
  | [] => if fraction.isEmpty then none else some (whole ++ fraction)
  | e :: rest =>
    if e == '.' then none
    else
      let (negative, power) := Decimal.withoutSign rest
      let digits ← withoutUnderscores? Char.isDigit power
      some (whole ++ fraction ++ 'e' :: (if negative then ['-'] else []) ++ digits)

def real? (cs : List Char) : Option Setting := do
  let (negative, rest) := Decimal.withoutSign cs
  let signed (x : Float) : Setting := .real (if negative then -x else x)
  match String.ofList rest with
  | "inf" => some (signed (1 / 0))
  | "nan" => some (signed (0 / 0))
  | _ => do
    let x ← Decimal.magnitudeOf? (← realDigits? rest)
    if x.isInf then none else some (signed x)

def bool? (cs : List Char) : Option Setting :=
  match String.ofList cs with
  | "true" => some (.bool true)
  | "false" => some (.bool false)
  | _ => none

end TableFlow.Toml
