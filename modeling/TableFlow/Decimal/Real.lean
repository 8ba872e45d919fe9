import TableFlow.Decimal.Shortest

namespace TableFlow.Decimal

/-- The real number with these digits and this power of ten. Numbers far out of range are not
computed. -/
def realOf (digits : Nat) (exponent : Int) : Float :=
  let size : Int := (Nat.toDigits 10 digits).length + exponent
  if digits = 0 || size < -400 then 0
  else if 400 < size then 1 / 0
  else Float.ofScientific digits (exponent < 0) exponent.natAbs

def fractionLimit : Nat := 0x10000000000000

def wordLimit : Nat := 0x8000000000000000

def binaryOf (bits : Nat) : Binary :=
  let fraction := bits % fractionLimit
  let field := bits / fractionLimit % 2048
  if field = 0 then ⟨fraction, -1074, false⟩
  else ⟨fraction + fractionLimit, (field : Int) - 1075, fraction == 0 && 1 < field⟩

def magnitudeText (bits : Nat) : List Char :=
  if bits % wordLimit = 0 then ['0'] else (binaryOf bits).shortest.text

def wholeLimit : Nat := 1000000000000000

/-- A decimal place for whole numbers below the limit. -/
def withPlace (text : List Char) : List Char :=
  if text.contains '.' || wholeLimit ≤ (String.ofList text).toNat?.getD 0 then
    text else text ++ ['.', '0']

def textWith (finish : List Char → List Char) (x : Float) : String :=
  let bits := x.toBits.toNat
  let sign := if wordLimit ≤ bits then "-" else ""
  if x.isNaN then "NaN" else if x.isInf then sign ++ "inf" else sign ++
    String.ofList (finish (magnitudeText bits))

def realText (x : Float) : String := textWith withPlace x

def plainText (x : Float) : String := textWith id x

end TableFlow.Decimal
