import TableFlow.Decimal.Numeral
import TableFlow.Text.Utf8

namespace TableFlow.Sql

inductive Value
  | null
  | integer (n : Int)
  | real (x : Float)
  | text (s : String)
  | blob (bytes : List UInt8)

namespace Value

def render : Value → String
  | .null => ""
  | .integer n => toString n
  | .real x => Decimal.realText x
  | .text s => s
  | .blob bytes => Utf8.decode bytes

def exponentOf : List Char → Int
  | _ :: '-' :: digits => -((String.ofList digits).toNat?.getD 0 : Int)
  | _ :: '+' :: digits => ((String.ofList digits).toNat?.getD 0 : Int)
  | _ :: digits => ((String.ofList digits).toNat?.getD 0 : Int)
  | [] => 0

def ofNumber (negative : Bool) (text : String) : Value :=
  let cs := text.toList
  let whole := cs.takeWhile Char.isDigit
  let rest := cs.drop whole.length
  let fraction := match rest with
    | '.' :: more => more.takeWhile Char.isDigit
    | _ => []
  let tail := rest.dropWhile fun c => c == '.' || c.isDigit
  let digits := (String.ofList (whole ++ fraction)).toNat?.getD 0
  let signed : Int := if negative then -(digits : Int) else digits
  if rest.isEmpty && Decimal.fitsWord signed then .integer signed
  else
    let x := Decimal.realOf digits (exponentOf tail - fraction.length)
    .real (if negative then -x else x)

def isSpace (c : Char) : Bool :=
  c == ' ' || c == '\t' || c == '\n' || c == '\r' || c == '\x0b' || c == '\x0c'

def numberAhead (s : String) : Option (Value × List Char) :=
  let (negative, cs) := Decimal.withoutSign (s.toList.dropWhile isSpace)
  if Decimal.startsNumber cs then
    let number := Decimal.numberPart cs
    some (ofNumber negative (String.ofList number), cs.drop number.length)
  else none

def asNumber : Value → Value
  | .text s => ((numberAhead s).map Prod.fst).getD (.integer 0)
  | .blob bytes => ((numberAhead (Utf8.decode bytes)).map Prod.fst).getD (.integer 0)
  | v => v

def negate (v : Value) : Value :=
  match v.asNumber with
  | .integer n => if Decimal.fitsWord (-n) then .integer (-n) else .real (-Float.ofInt n)
  | .real x => .real (-x)
  | other => other

def isTrue (v : Value) : Bool :=
  match v.asNumber with
  | .integer n => n != 0
  | .real x => x != 0
  | _ => false

/-- A real of 64 bits that is whole, as an integer. -/
def wholeReal (x : Float) : Value :=
  if x.floor == x && x.abs < 9223372036854775808.0 then
    .integer (Int.ofNat x.abs.toUInt64.toNat * if x < 0 then -1 else 1)
  else .real x

/-- A value as a column of integers keeps it: a text that is a number throughout is that number,
and a whole number is an integer. -/
def asInteger : Value → Value
  | .text s =>
    match numberAhead s with
    | some (.real x, rest) => if rest.all isSpace then wholeReal x else .text s
    | some (v, rest) => if rest.all isSpace then v else .text s
    | none => .text s
  | .real x => wholeReal x
  | v => v

end Value
end TableFlow.Sql
