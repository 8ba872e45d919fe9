import TableFlow.Text.Blank

namespace TableFlow

structure LogicalLine where
  number : Nat
  text : String
  deriving DecidableEq, Repr

namespace LogicalLine

def piece (raw : List Char) : List Char × Bool :=
  let body := Text.trimEnd raw
  if body.getLast? = some '\\' then (Text.trimEnd body.dropLast, true) else (body, false)

/-- A piece without blanks before it, put after one space. An empty piece adds nothing. -/
def extend (line : LogicalLine) (body : List Char) : LogicalLine :=
  let more := Text.trimStart body
  if more.isEmpty then line
  else { line with
    text := line.text ++ (if line.text.isEmpty then "" else " ") ++ String.ofList more }

def joinFrom (number : Nat) (pending : Option LogicalLine) : List String → List LogicalLine
  | [] => pending.toList
  | raw :: rest =>
    let (body, goesOn) := piece raw.toList
    let line := match pending with
      | some line => line.extend body
      | none => ⟨number, String.ofList body⟩
    if goesOn then joinFrom (number + 1) (some line) rest
    else line :: joinFrom (number + 1) none rest

/-- The logical lines of a script. A backslash at the end of the last line just ends it. -/
def ofLines (lines : List String) : List LogicalLine := joinFrom 1 none lines

end LogicalLine
end TableFlow
