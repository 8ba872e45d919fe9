import TableFlow.Bulk.Executor
import TableFlow.Command.Arguments
import TableFlow.Config.Load
import TableFlow.Config.Text
import TableFlow.Local.Embedded
import TableFlow.Local.Shell
import TableFlow.Run.Controller
import TableFlow.Script.Listing
import TableFlow.Script.Record

namespace TableFlow.Command

structure Host (σ : Type) where
  program : String → Program σ
  network : Bulk.Network σ
  clock : σ → Int
  runId : Nat

structure Outside (σ : Type) where
  host : σ
  src : Option Bulk.Session := none
  dst : Option Bulk.Session := none

namespace Outside

variable {σ : Type}

def connection (side : Endpoint) (o : Outside σ) : Bulk.Connection σ :=
  match side with
  | .src => ⟨o.src, o.host⟩
  | .dst => ⟨o.dst, o.host⟩

def withConnection (side : Endpoint) (c : Bulk.Connection σ) (o : Outside σ) : Outside σ :=
  match side with
  | .src => { o with src := c.session, host := c.service }
  | .dst => { o with dst := c.session, host := c.service }

end Outside

inductive Failure
  | unreadableScript (path : String) (e : SystemError)
  | invalidScript (path : String) (e : ScriptError)
  | configuration (e : ConfigError)
  | unprintable
  | jobFailed (path : String) (e : JobError)
  deriving DecidableEq, Repr

def causes (e : JobError) : String :=
  match e with
  | .system cause => e.message ++ ": " ++ cause.message
  | e => e.message

def Failure.message : Failure → String
  | .unreadableScript path e => s!"Failed to read script {path}: {e.message}"
  | .invalidScript path e => s!"Invalid script {path}: {e.message}"
  | .configuration e => s!"Failed to load configuration: {e.message}"
  | .unprintable => "Failed to render configuration: out-of-range value for u64 type"
  | .jobFailed path e => s!"Job {path} failed: {causes e}"

structure Outcome (σ : Type) where
  stdout : String := ""
  failure : Option Failure := none
  files : FileTree
  host : σ

variable {σ : Type}

def localEngine (h : Host σ) (c : Config) : Engine σ :=
  match c.tables.engine with
  | .embedded => Embedded.engine
  | .sqlite3 => Shell.engine (h.program c.tables.sqlite3Path)

def remoteExecutor (h : Host σ) (c : Config) (side : Endpoint) (e : EndpointConfig) :
    Executor (Outside σ) :=
  (Bulk.executor side (Bulk.Http.transport e.credentials h.network) c.bulk.settings).focus
    (Outside.connection side) (Outside.withConnection side)

/-- Only the sides that are named have a backend. -/
def backends (h : Host σ) (c : Config) : Backends (Outside σ) :=
  let remote (side : Endpoint) (name : Option String) : Option (Executor (Outside σ)) :=
    (name.bind fun n => c.endpoints[n]?).map (remoteExecutor h c side)
  { engine := (localEngine h c).executor.focus Outside.host fun host o => { o with host }
    src := remote .src c.src
    dst := remote .dst c.dst
    clock := fun o => h.clock o.host }

def loadJob (files : FileTree) (path : String) : Except Failure Job := do
  let script ← (files.read (Path.ofString path)).mapError (.unreadableScript path)
  (Job.parse script).mapError (.invalidScript path)

def controller (h : Host σ) (c : Config) (job : Job) (bindings : List (String × String))
    (files : FileTree) (host : σ) :
    Controller (Outside σ) :=
  Controller.new job (backends h c) c.runOptions
    (Scope.ofPairs (bindings.map fun v => (v.1, .text v.2)))
    { files, dir := Path.ofString c.tables.dataDir } { host } h.runId

def runJob (h : Host σ) (c : Config) (job : Job) (script : String)
    (bindings : List (String × String)) (json : Bool) (files : FileTree) (host : σ) : Outcome σ :=
  let (result, after) := (controller h c job bindings files host).run
  { stdout := if json then after.report.toJson.pretty 0 ++ "\n" else after.report.text
    failure := match result with
      | .ok () => none
      | .error e => some (.jobFailed script e)
    files := after.current.store.files
    host := after.current.outside.host }

def checked (job : Job) (json : Bool) : String :=
  if json then job.toJson.pretty 0 ++ "\n"
  else
    String.join (("Script: " ++ job.digest) :: job.listing ++
      [s!"✓ {job.stepCount} step(s) parsed"] |>.map (· ++ "\n"))

/-- Carries out a request. A script is looked at before the configuration. -/
def execute (h : Host σ) (files : FileTree) (env : Environment) (host : σ) (r : Request) :
    Outcome σ :=
  let outcome : Except Failure (Outcome σ) :=
    match r.action with
    | .run script bindings src dst accumulator json => do
      let job ← loadJob files script
      let overrides : Overrides :=
        { configPath := r.configPath, dataDir := r.dataDir, src, dst, accumulator }
      let config ← (Config.load files env overrides).mapError .configuration
      return runJob h config job script bindings json files host
    | .check script json => do
      return { stdout := checked (← loadJob files script) json, files, host }
    | .config => do
      let config ← (Config.load files env { configPath := r.configPath,
                                            dataDir := r.dataDir }).mapError .configuration
      match config.toToml? with
      | some document => return { stdout := document, files, host }
      | none => throw .unprintable
  match outcome with
  | .ok outcome => outcome
  | .error failure => { failure := some failure, files, host }

end TableFlow.Command
