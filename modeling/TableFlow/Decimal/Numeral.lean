import TableFlow.Decimal.Real

namespace TableFlow.Decimal

def natOf? (cs : List Char) : Option Nat :=
  if cs.isEmpty || !cs.all Char.isDigit then none
  else some (cs.foldl (fun n c => 10 * n + (c.toNat - 48)) 0)

/-- Whether a sign in front says that the number is negative, and the text without the sign. -/
def withoutSign : List Char → Bool × List Char
  | '-' :: rest => (true, rest)
  | '+' :: rest => (false, rest)
  | cs => (false, cs)

def intOf? (cs : List Char) : Option Int :=
  let (negative, digits) := withoutSign cs
  (natOf? digits).map fun n => if negative then -(n : Int) else n

def fitsWord (n : Int) : Bool := -(wordLimit : Int) ≤ n && n < wordLimit

def wordOf? (cs : List Char) : Option Int := (intOf? cs).filter fitsWord

def exponentOf? : List Char → Option Int
  | [] => some 0
  | e :: rest => if e == 'e' || e == 'E' then intOf? rest else none

def magnitudeOf? (cs : List Char) : Option Float := do
  let whole := cs.takeWhile Char.isDigit
  let rest := cs.drop whole.length
  let fraction := match rest with
    | '.' :: more => more.takeWhile Char.isDigit
    | _ => []
  let tail := match rest with
    | '.' :: more => more.drop fraction.length
    | _ => rest
  let digits ← natOf? (whole ++ fraction)
  let exponent ← exponentOf? tail
  some (realOf digits (exponent - fraction.length))

def lowerWord (cs : List Char) : String := String.ofList (cs.map Char.toLower)

def realOf? (cs : List Char) : Option Float :=
  let (negative, rest) := withoutSign cs
  let magnitude : Option Float :=
    match lowerWord rest with
    | "inf" | "infinity" => some (1 / 0)
    | "nan" => some (0 / 0)
    | _ => magnitudeOf? rest
  magnitude.map fun x => if negative then -x else x

def exponentPart (cs : List Char) : List Char :=
  match cs with
  | e :: rest =>
    if e == 'e' || e == 'E' then
      let sign := rest.takeWhile fun c => c == '+' || c == '-'
      let digits := (rest.drop sign.length).takeWhile Char.isDigit
      if sign.length ≤ 1 && !digits.isEmpty then e :: sign ++ digits else []
    else []
  | [] => []

/-- The characters of the number that starts here. -/
def numberPart (cs : List Char) : List Char :=
  let whole := cs.takeWhile Char.isDigit
  let rest := cs.drop whole.length
  let fraction := match rest with
    | '.' :: more => '.' :: more.takeWhile Char.isDigit
    | _ => []
  whole ++ fraction ++ exponentPart (rest.drop fraction.length)

def startsNumber : List Char → Bool
  | '.' :: c :: _ => c.isDigit
  | c :: _ => c.isDigit
  | [] => false

end TableFlow.Decimal
