namespace TableFlow.Json

inductive Cause
  | expectedValue
  | expectedIdent
  | expectedCommaOrEnd
  | endInValue
  | endInList
  | endInText
  | endOfEscape
  | trailingComma
  | trailing
  | controlCharacter
  | invalidEscape
  | loneSurrogate
  | invalidNumber
  | wrongType (found expected : String)
  deriving DecidableEq, Repr

def Cause.message : Cause → String
  | .expectedValue => "expected value"
  | .expectedIdent => "expected ident"
  | .expectedCommaOrEnd => "expected \x60,\x60 or \x60]\x60"
  | .endInValue => "EOF while parsing a value"
  | .endInList => "EOF while parsing a list"
  | .endInText => "EOF while parsing a string"
  | .endOfEscape => "unexpected end of hex escape"
  | .trailingComma => "trailing comma"
  | .trailing => "trailing characters"
  | .controlCharacter => "control character (\\u0000-\\u001F) found while parsing a string"
  | .invalidEscape => "invalid escape"
  | .loneSurrogate => "lone leading surrogate in hex escape"
  | .invalidNumber => "invalid number"
  | .wrongType found expected => "invalid type: " ++ found ++ ", expected " ++ expected

/-- Where reading stopped: the characters that are left, and whether the fault lies in the next
one. -/
structure Stop where
  cause : Cause
  rest : List Char
  ahead : Bool

abbrev Reader (α : Type) := List Char → Except Stop (α × List Char)

structure Fault where
  cause : Cause
  line : Nat
  column : Nat
  deriving DecidableEq, Repr

def Fault.message (f : Fault) : String := s!"{f.cause.message} at line {f.line} column {f.column}"

def byteSize (cs : List Char) : Nat := cs.foldl (fun n c => n + c.utf8Size) 0

def Stop.inDocument (document : List Char) (s : Stop) : Fault :=
  let read := document.take (document.length - s.rest.length)
  let lineSoFar := (read.reverse.takeWhile (· != '\n')).reverse
  ⟨s.cause, read.count '\n' + 1, byteSize lineSoFar + if s.ahead && !s.rest.isEmpty then 1 else 0⟩

end TableFlow.Json
