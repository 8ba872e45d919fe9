import TableFlow.Bulk.Http
import TableFlow.Config.Setting
import TableFlow.Run.Walk

namespace TableFlow

inductive EngineKind
  | embedded
  | sqlite3
  deriving DecidableEq, Repr

namespace EngineKind

def name : EngineKind → String
  | .embedded => "embedded"
  | .sqlite3 => "sqlite3"

def ofName? (s : String) : Option EngineKind :=
  match Text.lower s with
  | "embedded" => some .embedded
  | "sqlite3" => some .sqlite3
  | _ => none

/-- An engine by its name, or by the only key of a table. -/
def ofSetting? : Setting → Option EngineKind
  | .text s => ofName? s
  | .table [(key, _)] => ofName? key
  | _ => none

end EngineKind

structure LocalConfig where
  dataDir : String := "."
  engine : EngineKind := .embedded
  sqlite3Path : String := "sqlite3"
  cleanupScratch : Bool := false
  reuseCached : Bool := false
  inputs : List String := []
  deriving DecidableEq, Repr

structure BulkConfig where
  maxBatchRows : Nat := 10000
  pollIntervalMs : Nat := 2000
  /-- 0 stands for no end. -/
  pollTimeoutSecs : Nat := 3600
  reloginDelaySecs : Nat := 120
  httpTimeoutSecs : Nat := 300
  deriving DecidableEq, Repr

structure EndpointConfig where
  loginUrl : String := "https://login.salesforce.com"
  username : String := ""
  password : String := ""
  securityToken : String := ""
  apiVersion : String := "38.0"
  deriving DecidableEq, Repr

structure Config where
  tables : LocalConfig := {}
  bulk : BulkConfig := {}
  accumulator : String := "batch_params"
  src : Option String := none
  dst : Option String := none
  endpoints : Std.ExtTreeMap String EndpointConfig := ∅

inductive ConfigError
  | unreadable
  | invalid
  | noBatchRows
  | noAccumulator
  | noUsername (endpoint : String)
  | undefinedEndpoint (endpoint : String)
  deriving DecidableEq, Repr

def ConfigError.message : ConfigError → String
  | .unreadable => "Failed to read configuration sources"
  | .invalid => "Invalid configuration"
  | .noBatchRows => "bulk.max_batch_rows must be at least 1"
  | .noAccumulator => "job.accumulator must not be empty"
  | .noUsername endpoint => s!"remote endpoint '{endpoint}' has no username"
  | .undefinedEndpoint endpoint =>
      s!"remote endpoint '{endpoint}' is not defined under [remote.endpoints]"

namespace LocalConfig

def keys : List String :=
  ["data_dir", "engine", "sqlite3_path", "cleanup_scratch", "reuse_cached", "inputs"]

def ofSetting? (s : Setting) : Option LocalConfig := do
  let d : LocalConfig := {}
  let r ← s.toRecord? keys
  some {
    dataDir := ← r.field? "data_dir" Setting.toText? d.dataDir
    engine := ← r.field? "engine" EngineKind.ofSetting? d.engine
    sqlite3Path := ← r.field? "sqlite3_path" Setting.toText? d.sqlite3Path
    cleanupScratch := ← r.field? "cleanup_scratch" Setting.toBool? d.cleanupScratch
    reuseCached := ← r.field? "reuse_cached" Setting.toBool? d.reuseCached
    inputs := ← r.field? "inputs" Setting.toTexts? d.inputs }

end LocalConfig

namespace BulkConfig

def keys : List String :=
  ["max_batch_rows", "poll_interval_ms", "poll_timeout_secs", "relogin_delay_secs",
    "http_timeout_secs"]

def ofSetting? (s : Setting) : Option BulkConfig := do
  let d : BulkConfig := {}
  let r ← s.toRecord? keys
  some {
    maxBatchRows := ← r.field? "max_batch_rows" Setting.toNat? d.maxBatchRows
    pollIntervalMs := ← r.field? "poll_interval_ms" Setting.toNat? d.pollIntervalMs
    pollTimeoutSecs := ← r.field? "poll_timeout_secs" Setting.toNat? d.pollTimeoutSecs
    reloginDelaySecs := ← r.field? "relogin_delay_secs" Setting.toNat? d.reloginDelaySecs
    httpTimeoutSecs := ← r.field? "http_timeout_secs" Setting.toNat? d.httpTimeoutSecs }

end BulkConfig

namespace EndpointConfig

def keys : List String := ["login_url", "username", "password", "security_token", "api_version"]

def ofSetting? (s : Setting) : Option EndpointConfig := do
  let d : EndpointConfig := {}
  let r ← s.toRecord? keys
  some {
    loginUrl := ← r.field? "login_url" Setting.toText? d.loginUrl
    username := ← r.field? "username" Setting.toText? d.username
    password := ← r.field? "password" Setting.toText? d.password
    securityToken := ← r.field? "security_token" Setting.toText? d.securityToken
    apiVersion := ← r.field? "api_version" Setting.toText? d.apiVersion }

def allOfSetting? : Setting → Option (Std.ExtTreeMap String EndpointConfig)
  | .table members => do
    let endpoints ← members.mapM fun (name, s) => (ofSetting? s).map (name, ·)
    some (.ofList endpoints)
  | _ => none

end EndpointConfig

namespace Config

def ofSetting? (s : Setting) : Option Config := do
  let job ← (← s.field? "job" some .empty).toRecord? ["accumulator"]
  let remote ← (← s.field? "remote" some .empty).toRecord? ["src", "dst", "endpoints"]
  let name (s : Setting) : Option (Option String) := s.toText?.map some
  some {
    tables := ← s.field? "local" LocalConfig.ofSetting? {}
    bulk := ← s.field? "bulk" BulkConfig.ofSetting? {}
    accumulator := ← job.field? "accumulator" Setting.toText? ({} : Config).accumulator
    src := ← remote.field? "src" name none
    dst := ← remote.field? "dst" name none
    endpoints := ← remote.field? "endpoints" EndpointConfig.allOfSetting? ∅ }

def endpoint (c : Config) : Option String → Except ConfigError (Option EndpointConfig)
  | none => .ok none
  | some name =>
    match c.endpoints[name]? with
    | some endpoint => .ok (some endpoint)
    | none => .error (.undefinedEndpoint name)

def validate (c : Config) : Except ConfigError Unit := do
  if c.bulk.maxBatchRows = 0 then throw .noBatchRows
  if (Text.trim c.accumulator.toList).isEmpty then throw .noAccumulator
  match c.endpoints.toList.find? fun e => e.2.username = "" with
  | some e => throw (.noUsername e.1)
  | none => pure ()
  let _ ← c.endpoint c.src
  let _ ← c.endpoint c.dst

def runOptions (c : Config) : RunOptions :=
  { accumulator := c.accumulator, reuseCached := c.tables.reuseCached,
    cleanupScratch := c.tables.cleanupScratch,
    inputs := c.tables.inputs }

end Config

def BulkConfig.settings (b : BulkConfig) : Bulk.Settings :=
  { maxBatchRows := b.maxBatchRows, pollInterval := b.pollIntervalMs,
    pollTimeout := if b.pollTimeoutSecs = 0 then none else some b.pollTimeoutSecs,
    reloginDelay := 1000 * b.reloginDelaySecs }

def EndpointConfig.credentials (e : EndpointConfig) : Bulk.Credentials :=
  { loginUrl := Bulk.Http.withoutSlashes e.loginUrl, username := e.username, password := e.password,
    securityToken := e.securityToken, apiVersion := e.apiVersion }

end TableFlow
