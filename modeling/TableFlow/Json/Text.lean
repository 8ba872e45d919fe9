import TableFlow.Json.Fault
import TableFlow.Text.Hex

namespace TableFlow.Json

def escape (c : Char) : List Char :=
  match c with
  | '"' => ['\\', '"']
  | '\\' => ['\\', '\\']
  | '\n' => ['\\', 'n']
  | '\r' => ['\\', 'r']
  | '\t' => ['\\', 't']
  | '\x08' => ['\\', 'b']
  | '\x0c' => ['\\', 'f']
  | c =>
      if c.toNat < 32 then ['\\', 'u', '0', '0', Hex.digit (c.toNat / 16), Hex.digit (c.toNat % 16)]
      else [c]

def quote (s : String) : String := String.ofList ('"' :: s.toList.flatMap escape ++ ['"'])

def readUnit : Reader Nat
  | a :: b :: c :: d :: rest =>
    match [a, b, c, d].mapM Hex.value? with
    | some digits => .ok (digits.foldl (fun n d => 16 * n + d) 0, rest)
    | none => .error ⟨.invalidEscape, rest, false⟩
  | _ => .error ⟨.endInText, [], false⟩

def readLowUnit (cs : List Char) : Except Stop (Nat × List Char) :=
  match cs with
  | '\\' :: 'u' :: rest => do
    let (low, rest) ← readUnit rest
    if low < 0xDC00 || 0xDFFF < low then .error ⟨.loneSurrogate, rest, false⟩ else .ok (low, rest)
  | '\\' :: c :: rest => .error ⟨.endOfEscape, c :: rest, true⟩
  | [] | ['\\'] => .error ⟨.endInText, [], false⟩
  | cs => .error ⟨.endOfEscape, cs, true⟩

/-- A character given by its code units; the first half of a pair needs the second one after it. -/
def readUnicode : Reader Char := fun cs => do
  let (high, rest) ← readUnit cs
  if high < 0xD800 || 0xDFFF < high then .ok (Char.ofNat high, rest)
  else if 0xDC00 ≤ high then .error ⟨.loneSurrogate, rest, false⟩
  else
    let (low, rest) ← readLowUnit rest
    .ok (Char.ofNat (0x10000 + (high - 0xD800) * 0x400 + (low - 0xDC00)), rest)

def readEscape : Reader Char
  | [] => .error ⟨.endInText, [], false⟩
  | c :: rest =>
    match c with
    | '"' | '\\' | '/' => .ok (c, rest)
    | 'n' => .ok ('\n', rest)
    | 'r' => .ok ('\r', rest)
    | 't' => .ok ('\t', rest)
    | 'b' => .ok ('\x08', rest)
    | 'f' => .ok ('\x0c', rest)
    | 'u' => readUnicode rest
    | _ => .error ⟨.invalidEscape, c :: rest, true⟩

/-- The text whose opening quote has been read. The bound counts the characters that may still
be read. -/
def readTextFrom : Nat → Reader (List Char)
  | _, [] => .error ⟨.endInText, [], false⟩
  | _, '"' :: rest => .ok ([], rest)
  | 0, cs => .error ⟨.endInText, cs, false⟩
  | bound + 1, c :: rest => do
    let (c, rest) ←
      if c = '\\' then readEscape rest
      else if c.toNat < 32 then .error ⟨.controlCharacter, rest, false⟩
      else .ok (c, rest)
    let (text, after) ← readTextFrom bound rest
    .ok (c :: text, after)

def readText (cs : List Char) : Except Stop (String × List Char) := do
  let (text, after) ← readTextFrom cs.length cs
  .ok (String.ofList text, after)

end TableFlow.Json
