import TableFlow.Command.Execute
import TableFlow.Store.Change

namespace TableFlow.Command

def Action.script? : Action → Option String
  | .run script .. | .check script _ => some script
  | .config => none

def sourcePaths (env : Environment) (r : Request) : List String :=
  let asked := [r.configPath, env[Config.pathVariable]?, some Config.defaultPath].filterMap id
  r.action.script?.toList ++ asked.flatMap fun path => (Config.candidates path).map Path.text

def tablesOf (s : Step) : List String :=
  s.localSources ++ s.sinks.filterMap fun
    | .localTable name _ => some name
    | .remoteObject _ _ idsTable => idsTable
    | .variable _ => none

/-- The files of the data directory that a run reads or writes; none for any other request, or
if it will fail before it runs. -/
def tablePaths (files : FileTree) (env : Environment) (r : Request) : List String :=
  match r.action with
  | .run script _ src dst accumulator _ =>
    match loadJob files script,
      Config.load files env { configPath := r.configPath, dataDir := r.dataDir, src, dst,
                              accumulator } with
    | .ok job, .ok config =>
      let dir := Path.ofString config.tables.dataDir
      let names := job.steps.flatMap tablesOf ++ config.tables.inputs
      dir.text :: (TableStore.manifestPath dir).text :: names.map fun name =>
        (TableStore.tablePath dir name).text
    | _, _ => []
  | .check .. | .config => []

end TableFlow.Command
