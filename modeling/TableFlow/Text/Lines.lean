namespace TableFlow.Text

def withoutReturn (line : List Char) : List Char :=
  if line.getLast? = some '\r' then line.dropLast else line

/-- A line ends in a line feed, with or without a carriage return before it; what follows the
last line feed is a line only if it is not empty. -/
def lines (s : String) : List String :=
  let parts := s.toList.splitOn '\n'
  let last := parts.getLast?.getD []
  (parts.dropLast.map withoutReturn ++ if last.isEmpty then [] else [last]).map String.ofList

end TableFlow.Text
