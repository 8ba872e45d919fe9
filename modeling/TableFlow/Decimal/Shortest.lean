namespace TableFlow.Decimal

/-- A positive binary number with the place of its neighbours. Below a power of two the lower
one is half as far. -/
structure Binary where
  mantissa : Nat
  exponent : Int
  narrowBelow : Bool
  deriving DecidableEq, Repr

structure Digits where
  digits : Nat
  exponent : Int
  deriving DecidableEq, Repr

def pow (base : Nat) (e : Int) : Nat := Nat.pow base e.toNat

namespace Binary

def numerator (b : Binary) : Nat := 4 * b.mantissa * pow 2 b.exponent
def denominator (b : Binary) : Nat := pow 2 (-b.exponent)

/-- Whether `d * 10 ^ e` reads back as the number. An end of the interval does if the mantissa
is even. -/
def accepts (b : Binary) (d : Nat) (e : Int) : Bool :=
  let unit := pow 2 b.exponent * pow 10 (-e)
  let value := 4 * d * pow 10 e * b.denominator
  let low := (4 * b.mantissa - if b.narrowBelow then 1 else 2) * unit
  let high := (4 * b.mantissa + 2) * unit
  if b.mantissa % 2 = 0 then low ≤ value && value ≤ high else low < value && value < high

def belowMiddle (b : Binary) (d : Nat) (e : Int) : Bool :=
  (2 * d + 1) * 4 * pow 10 e * b.denominator > 2 * b.numerator * pow 10 (-e)

def onGrid (b : Binary) (e : Int) : Option Nat :=
  let below := b.numerator * pow 10 (-e) / (4 * b.denominator * pow 10 e)
  match b.accepts below e, b.accepts (below + 1) e with
  | true, true => some (if b.belowMiddle below e then below else below + 1)
  | true, false => some below
  | false, true => some (below + 1)
  | false, false => none

def search (b : Binary) (e : Int) : Nat → Digits
  | 0 => ⟨(b.onGrid e).getD 0, e⟩
  | more + 1 =>
    match b.onGrid e with
    | some d => ⟨d, e⟩
    | none => b.search (e - 1) more

def wholeDigits (b : Binary) : Nat :=
  let whole := b.numerator / (4 * b.denominator)
  if whole = 0 then 0 else (Nat.toDigits 10 whole).length

def leadingZeros (b : Binary) : Nat :=
  let inverse := 4 * b.denominator / b.numerator
  (Nat.toDigits 10 inverse).length - 1

/-- The digits start on a grid that is coarser than the number; eighteen more always suffice. -/
def shortest (b : Binary) : Digits :=
  let start : Int := if b.wholeDigits = 0 then -(b.leadingZeros : Int) else b.wholeDigits
  b.search start 19

end Binary

def Digits.text (d : Digits) : List Char :=
  let shown := Nat.toDigits 10 d.digits
  if 0 ≤ d.exponent then shown ++ List.replicate d.exponent.toNat '0'
  else
    let places := (-d.exponent).toNat
    let padded := List.replicate (places + 1 - shown.length) '0' ++ shown
    padded.take (padded.length - places) ++ '.' :: padded.drop (padded.length - places)

end TableFlow.Decimal
