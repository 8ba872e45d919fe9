import TableFlow.Text.Hex

namespace TableFlow.Toml

def isControl (c : Char) : Bool := c.toNat < 32 || c.toNat == 127

def longestQuotes (cs : List Char) : Nat :=
  (cs.foldl (fun (run, best) c => if c == '\'' then
    (run + 1, max best (run + 1)) else (0, best)) (0, 0)).2

def prefersSingle (cs : List Char) : Bool :=
  cs.any (fun c => c == '"' || c == '\\') && longestQuotes cs < 3 && cs.getLast? != some '\'' &&
    cs.all fun c => c == '\t' || c == '\n' || !isControl c

/-- A character between double quotes. Only texts of several lines hold bare line feeds. -/
def escapeChar (multiline : Bool) (c : Char) : List Char :=
  match c with
  | '\x08' => ['\\', 'b']
  | '\t' => ['\\', 't']
  | '\n' => if multiline then ['\n'] else ['\\', 'n']
  | '\x0c' => ['\\', 'f']
  | '\r' => ['\\', 'r']
  | '"' => ['\\', '"']
  | '\\' => ['\\', '\\']
  | c =>
    if isControl c then ['\\', 'u', '0', '0', Hex.digit (c.toNat / 16),
      (Hex.digit (c.toNat % 16)).toUpper] else [c]

def enclosed (opening closing : String) (cs : List Char) : String :=
  opening ++ String.ofList cs ++ closing

def writeText (s : String) : String :=
  let cs := s.toList
  let multiline := cs.contains '\n'
  match prefersSingle cs, multiline with
  | true, true => enclosed "'''\n" "'''" cs
  | true, false => if cs.contains '\'' then enclosed "'''" "'''" cs else enclosed "'" "'" cs
  | false, true => enclosed "\"\"\"\n" "\"\"\"" (cs.flatMap (escapeChar true))
  | false, false => enclosed "\"" "\"" (cs.flatMap (escapeChar false))

def keyPrefersSingle (cs : List Char) : Bool :=
  cs.any (fun c => c == '"' || c == '\\') && cs.all fun c =>
    c != '\'' && (c == '\t' || !isControl c)

def writeKey (s : String) : String :=
  let cs := s.toList
  if !cs.isEmpty && cs.all fun c => c.isAlphanum || c == '_' || c == '-' then s
  else if keyPrefersSingle cs then enclosed "'" "'" cs
  else enclosed "\"" "\"" (cs.flatMap (escapeChar false))

def writeTexts (texts : List String) : String :=
  match texts with
  | [] => "[]"
  | [s] => "[" ++ writeText s ++ "]"
  | _ => "[\n" ++ String.join (texts.map fun s => "    " ++ writeText s ++ ",\n") ++ "]"

end TableFlow.Toml
