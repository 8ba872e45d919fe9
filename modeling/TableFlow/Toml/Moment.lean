import TableFlow.Toml.Scalar

namespace TableFlow.Toml

def field (width low high : Nat) : Reader Nat := fun cs => do
  let digits := cs.take width
  let n ← Decimal.natOf? digits
  if digits.length = width && low ≤ n && n ≤ high then some (n, cs.drop width) else none

def mark (c : Char) : Reader Unit
  | d :: rest => if d = c then some ((), rest) else none
  | [] => none

def padded (width n : Nat) : String :=
  let digits := Nat.toDigits 10 n
  String.ofList (List.replicate (width - digits.length) '0' ++ digits)

def isLeap (year : Nat) : Bool := year % 4 == 0 && (year % 100 != 0 || year % 400 == 0)

def daysIn (year month : Nat) : Nat :=
  if month = 2 then (if isLeap year then 29 else 28)
    else if [4, 6, 9, 11].contains month then 30 else 31

def date : Reader String := fun cs => do
  let (year, cs) ← field 4 0 9999 cs
  let ((), cs) ← mark '-' cs
  let (month, cs) ← field 2 1 12 cs
  let ((), cs) ← mark '-' cs
  let (day, cs) ← field 2 1 (daysIn year month) cs
  some (padded 4 year ++ "-" ++ padded 2 month ++ "-" ++ padded 2 day, cs)

/-- Digits behind the seconds: at most nine count, and zeros at the end do not. -/
def fraction : Reader String
  | '.' :: cs =>
    let digits := cs.takeWhile Char.isDigit
    let kept := ((digits.take 9).reverse.dropWhile (· == '0')).reverse
    if digits.isEmpty then none
    else some (if kept.isEmpty then "" else String.ofList ('.' :: kept), cs.drop digits.length)
  | cs => some ("", cs)

def time : Reader String := fun cs => do
  let (hour, cs) ← field 2 0 23 cs
  let ((), cs) ← mark ':' cs
  let (minute, cs) ← field 2 0 59 cs
  let ((), cs) ← mark ':' cs
  let (second, cs) ← field 2 0 60 cs
  let (part, cs) ← fraction cs
  some (padded 2 hour ++ ":" ++ padded 2 minute ++ ":" ++ padded 2 second ++ part, cs)

def offset (cs : List Char) : Option (String × List Char) :=
  match cs with
  | 'Z' :: rest | 'z' :: rest => some ("Z", rest)
  | sign :: rest =>
    if sign == '+' || sign == '-' then do
      let (hours, rest) ← field 2 0 23 rest
      let ((), rest) ← mark ':' rest
      let (minutes, rest) ← field 2 0 59 rest
      let shown := if hours + minutes = 0 then "+" else sign.toString
      some (shown ++ padded 2 hours ++ ":" ++ padded 2 minutes, rest)
    else some ("", cs)
  | [] => some ("", [])

def moment (cs : List Char) : Option (String × List Char) :=
  match date cs with
  | none => time cs
  | some (day, rest) =>
    let timed : Option (String × List Char) := do
      let (c, rest) ← rest.head?.map (·, rest.tail)
      if c != 'T' && c != 't' && c != ' ' then none
      else
        let (clock, rest) ← time rest
        let (shift, rest) ← offset rest
        some (day ++ "T" ++ clock ++ shift, rest)
    some (timed.getD (day, rest))

end TableFlow.Toml
