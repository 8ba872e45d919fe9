namespace TableFlow

structure Instant where
  ms : Int
  deriving DecidableEq, Repr

namespace Instant

/-- Year, month and day of a day counted from the first of January 1970. Years are taken to
begin in March, so that the leap day is their last. -/
def civil (day : Int) : Int × Int × Int :=
  let shifted := day + 719468
  let era := shifted / 146097
  let dayOfEra := shifted % 146097
  let yearOfEra := (dayOfEra - dayOfEra / 1460 + dayOfEra / 36524 - dayOfEra / 146096) / 365
  let dayOfYear := dayOfEra - (365 * yearOfEra + yearOfEra / 4 - yearOfEra / 100)
  let month := (5 * dayOfYear + 2) / 153
  let calendarMonth := if month < 10 then month + 3 else month - 9
  let year := yearOfEra + 400 * era + (if calendarMonth ≤ 2 then 1 else 0)
  (year, calendarMonth, dayOfYear - (153 * month + 2) / 5 + 1)

def padded (width : Nat) (n : Int) : String :=
  let digits := toString n.natAbs
  String.ofList (List.replicate (width - digits.length) '0') ++ digits

def text (i : Instant) : String :=
  let (year, month, day) := civil (i.ms / 86400000)
  let ofDay := i.ms % 86400000
  padded 4 year ++ "-" ++ padded 2 month ++ "-" ++ padded 2 day ++ "T" ++
    padded 2 (ofDay / 3600000) ++ ":" ++
    padded 2 (ofDay / 60000 % 60) ++ ":" ++ padded 2 (ofDay / 1000 % 60) ++ "." ++
      padded 3 (ofDay % 1000) ++ "Z"

end Instant
end TableFlow
