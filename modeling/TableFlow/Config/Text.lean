import TableFlow.Config.Basic
import TableFlow.Toml.Text

namespace TableFlow.Config

def masked (secret : String) : String := if secret = "" then "" else "********"

def binding (key value : String) : String := key ++ " = " ++ value

def textBinding (key value : String) : String := binding key (Toml.writeText value)

def block (path : List String) (bindings : List String) : List String :=
  ("[" ++ ".".intercalate (path.map Toml.writeKey) ++ "]") :: bindings

def localBlock (t : LocalConfig) : List String :=
  block ["local"] [
    textBinding "data_dir" t.dataDir,
    textBinding "engine" t.engine.name,
    textBinding "sqlite3_path" t.sqlite3Path,
    binding "cleanup_scratch" (toString t.cleanupScratch),
    binding "reuse_cached" (toString t.reuseCached),
    binding "inputs" (Toml.writeTexts t.inputs)]

def bulkBlock (b : BulkConfig) : List String :=
  block ["bulk"] [
    binding "max_batch_rows" (toString b.maxBatchRows),
    binding "poll_interval_ms" (toString b.pollIntervalMs),
    binding "poll_timeout_secs" (toString b.pollTimeoutSecs),
    binding "relogin_delay_secs" (toString b.reloginDelaySecs),
    binding "http_timeout_secs" (toString b.httpTimeoutSecs)]

def endpointBlock (name : String) (e : EndpointConfig) : List String :=
  block ["remote", "endpoints", name] [
    textBinding "login_url" e.loginUrl,
    textBinding "username" e.username,
    textBinding "password" (masked e.password),
    textBinding "security_token" (masked e.securityToken),
    textBinding "api_version" e.apiVersion]

def remoteBlocks (c : Config) : List (List String) :=
  let names := (c.src.map (textBinding "src")).toList ++ (c.dst.map (textBinding "dst")).toList
  if names.isEmpty then [] else [block ["remote"] names]

def endpointBlocks (c : Config) : List (List String) :=
  if c.endpoints.isEmpty then [block ["remote", "endpoints"] []]
  else c.endpoints.toList.map fun e => endpointBlock e.1 e.2

def blocks (c : Config) : List (List String) :=
  [localBlock c.tables, bulkBlock c.bulk,
    block ["job"] [textBinding "accumulator" c.accumulator]] ++ c.remoteBlocks ++
    c.endpointBlocks

def hasPlainNumbers (b : BulkConfig) : Bool :=
  [b.maxBatchRows, b.pollIntervalMs, b.pollTimeoutSecs, b.reloginDelaySecs, b.httpTimeoutSecs].all
    (· < Decimal.wordLimit)

/-- The document, with an empty line between its blocks; none if a number is too large for it. -/
def toToml? (c : Config) : Option String :=
  if hasPlainNumbers c.bulk then
    some ("\n".intercalate (c.blocks.map fun lines => String.join (lines.map (· ++ "\n"))))
  else none

end TableFlow.Config
