import Std.Data.ExtTreeMap
import TableFlow.Config.Setting

namespace TableFlow

abbrev Environment := Std.ExtTreeMap String String

namespace Environment

def settingMark : List Char := "sluice__".toList

def withPoints : List Char → List Char
  | '_' :: '_' :: rest => '.' :: withPoints rest
  | c :: rest => c :: withPoints rest
  | [] => []

/-- The path of the setting that a variable gives: its keys, joined by two underscores, behind a
first key that all of them share. -/
def settingPath? (name : String) : Option String :=
  let cs := (Text.lower name).toList
  if settingMark.isPrefixOf cs then some (String.ofList (withPoints (cs.drop settingMark.length)))
  else none

def settingValue (value : String) : Setting :=
  match Text.lower value with
  | "true" => .bool true
  | "false" => .bool false
  | _ =>
    match Decimal.wordOf? value.toList, Decimal.realOf? value.toList with
    | some n, _ => .int n
    | none, some x => .real x
    | none, none => .text value

def putSettings (env : Environment) (s : Setting) : Setting :=
  env.toList.foldl (fun s (name, value) =>
    match settingPath? name with
    | some path => s.putAt path (settingValue value)
    | none => s) s

end Environment
end TableFlow
