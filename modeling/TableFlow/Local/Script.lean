import TableFlow.Store.Path
import TableFlow.Text.Blank

namespace TableFlow

structure LocalScript where
  imports : List (String × Path) := []
  headers : Bool
  query : String
  deriving DecidableEq, Repr

namespace LocalScript

def singleQuoted (s : String) : String :=
  "'" ++ String.ofList (s.toList.flatMap fun c => if c = '\'' then ['\'', '\''] else [c]) ++ "'"

def importLine (t : String × Path) : String :=
  ".import " ++ singleQuoted t.2.text ++ " " ++ t.1 ++ "\n"

def render (s : LocalScript) : String :=
  let query := Text.trimEnd s.query.toList
  ".mode csv\n.headers " ++ (if s.headers then "on" else "off") ++ "\n" ++
    String.join (s.imports.map importLine) ++
    ".output stdout\n" ++ String.ofList query ++
      (if query.getLast? = some ';' then "" else ";") ++ "\n"

def columnsView : String := "_sluice_columns"

/-- A script that lists the column names of a query of one statement. -/
def columnsScript (s : LocalScript) : Option LocalScript :=
  let query := Text.trimEnd (Text.dropEndOf ';' (Text.trim s.query.toList))
  if query.isEmpty || query.contains ';' then none
  else
    some {
      imports := s.imports
      headers := false
      query := "CREATE TEMP VIEW " ++ columnsView ++ " AS " ++ String.ofList query ++
        ";\nSELECT name FROM pragma_table_info('" ++ columnsView ++ "')" }

end LocalScript
end TableFlow
