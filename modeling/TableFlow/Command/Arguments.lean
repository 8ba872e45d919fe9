import TableFlow.Text.Blank

namespace TableFlow.Command

inductive Opt
  | config
  | dataDir
  | logLevel
  | var
  | src
  | dst
  | accumulator
  deriving DecidableEq, Repr

def Opt.isPath : Opt → Bool
  | .config | .dataDir => true
  | .logLevel | .var | .src | .dst | .accumulator => false

inductive Kind
  | run
  | check
  | config
  deriving DecidableEq, Repr

def Kind.ofName? : String → Option Kind
  | "run" => some .run
  | "check" => some .check
  | "config" => some .config
  | _ => none

inductive Action
  | run (script : String) (bindings : List (String × String))
      (src dst accumulator : Option String) (json : Bool)
  | check (script : String) (json : Bool)
  | config
  deriving DecidableEq, Repr

structure Request where
  configPath : Option String := none
  dataDir : Option String := none
  logLevel : String := "info"
  action : Action
  deriving DecidableEq, Repr

inductive Refusal
  | help
  | nothingAsked
  | missingCommand
  | unknownCommand
  | unknownArgument
  | missingArgument
  | emptyValue
  | unwantedValue
  | malformedVariable
  | repeated
  deriving DecidableEq, Repr

/-- What a value that has not been looked at yet belongs to; an option may still wait for its
value. -/
inductive Pending
  | nothing
  | awaiting (o : Opt)
  | value (o : Opt) (v : String)
  | script (v : String)
  deriving DecidableEq, Repr

structure Level where
  values : List (Opt × String) := []
  bindings : List (String × String) := []
  json : Bool := false
  script : Option String := none
  pending : Pending := .nothing
  escaped : Bool := false
  deriving DecidableEq, Repr

namespace Level

def value? (l : Level) (o : Opt) : Option String := l.values.lookup o

def readVariable (raw : String) : Except Refusal (String × String) :=
  let cs := raw.toList
  let name := Text.trim (cs.takeWhile (· != '='))
  match cs.dropWhile (· != '=') with
  | [] => .error .malformedVariable
  | _ :: value =>
      if name.isEmpty then .error .malformedVariable
      else .ok (String.ofList name, String.ofList value)

/-- Takes the value of an option. Only variables may be given more than once. -/
def accept (l : Level) (o : Opt) (v : String) : Except Refusal Level :=
  match o with
  | .var => do
    .ok { l with bindings := l.bindings ++ [← readVariable v] }
  | o =>
    if (l.value? o).isSome then .error .repeated
    else if o.isPath && v = "" then .error .emptyValue
    else .ok { l with values := l.values ++ [(o, v)] }

def settle (l : Level) : Except Refusal Level :=
  let done := { l with pending := .nothing }
  match l.pending with
  | .nothing => .ok l
  | .awaiting _ => .error .emptyValue
  | .value o v => done.accept o v
  | .script v => if v = "" then .error .emptyValue else .ok { done with script := some v }

end Level

def optOf? (kind : Option Kind) (name : String) : Option Opt :=
  match name, kind with
  | "config", _ => some .config
  | "data-dir", _ => some .dataDir
  | "log-level", _ => some .logLevel
  | "var", some .run => some .var
  | "src", some .run => some .src
  | "dst", some .run => some .dst
  | "accumulator", some .run => some .accumulator
  | _, _ => none

def takesScript : Option Kind → Bool
  | some .run | some .check => true
  | some .config | none => false

inductive Shape
  | dashes
  | long (name : String) (value : Option String)
  | short (letters : List Char)
  | plain
  deriving DecidableEq, Repr

def Shape.of (argument : String) : Shape :=
  match argument.toList with
  | '-' :: '-' :: [] => .dashes
  | '-' :: '-' :: rest =>
    let value := match rest.dropWhile (· != '=') with
      | [] => none
      | _ :: value => some (String.ofList value)
    .long (String.ofList (rest.takeWhile (· != '='))) value
  | '-' :: letters => if letters.isEmpty then .plain else .short letters
  | _ => .plain

namespace Level

def flag (l : Level) (value : Option String) (set : Level → Except Refusal Level) :
    Except Refusal Level :=
  if value.isSome then .error .unwantedValue else l.settle >>= set

def long (kind : Option Kind) (l : Level) (name : String) (value : Option String) :
    Except Refusal Level :=
  match optOf? kind name, value with
  | some o, some v => do (← l.settle).accept o v
  | some o, none => do .ok { ← l.settle with pending := .awaiting o }
  | none, _ =>
    if name = "help" then l.flag value fun _ => .error .help
    else if name = "json" && takesScript kind then
      l.flag value fun l => if l.json then .error .repeated else .ok { l with json := true }
    else .error .unknownArgument

def plain (kind : Option Kind) (l : Level) (argument : String) : Except Refusal Level :=
  let taken := l.script.isSome || match l.pending with
    | .script _ => true
    | _ => false
  match kind with
  | none =>
      .error
        (if l.escaped && (Kind.ofName? argument).isSome then .unknownArgument else .unknownCommand)
  | some _ =>
    if taken || !takesScript kind then .error .unknownArgument
    else do .ok { ← l.settle with pending := .script argument }

def step (kind : Option Kind) (l : Level) (argument : String) : Except Refusal Level :=
  match if l.escaped then Shape.plain else Shape.of argument, l.pending with
  | .dashes, _ => .ok { l with escaped := true }
  | .long name value, _ => l.long kind name value
  | .short letters, _ =>
    if letters.head? = some 'h' then do
      let _ ← l.settle
      .error .help
    else .error .unknownArgument
  | .plain, .awaiting o =>
      if l.escaped then l.plain kind argument else .ok { l with pending := .value o argument }
  | .plain, _ => l.plain kind argument

def mayCommand (l : Level) : Bool :=
  !l.escaped && match l.pending with
    | .awaiting _ => false
    | _ => true

end Level

/-- The request that a command makes; its own word on a shared option wins. -/
def request (shared own : Level) (kind : Kind) : Except Refusal Request := do
  let value? (o : Opt) : Option String := own.value? o <|> shared.value? o
  let script : Except Refusal String := match own.script with
    | some script => .ok script
    | none => .error .missingArgument
  let action ← match kind with
    | .run => do
      .ok
        (.run (← script) own.bindings (own.value? .src) (own.value? .dst)
          (own.value? .accumulator) own.json)
    | .check => do .ok (.check (← script) own.json)
    | .config => .ok .config
  .ok { configPath := value? .config, dataDir := value? .dataDir,
        logLevel := (value? .logLevel).getD "info", action }

def readCommand (shared : Level) (kind : Kind) (arguments : List String) :
    Except Refusal Request := do
  let own ← (← arguments.foldlM (Level.step (some kind)) {}).settle
  let _ ← request {} own kind
  request (← shared.settle) own kind

def helpOn : List String → Refusal
  | [] => .help
  | [name] => if name = "help" || (Kind.ofName? name).isSome then .help else .unknownCommand
  | _ => .unknownCommand

def withoutCommand (shared : Level) : Refusal :=
  match shared.settle with
  | .error refusal => refusal
  | .ok l => if l.values.isEmpty then .nothingAsked else .missingCommand

def readFrom (shared : Level) : List String → Except Refusal Request
  | [] => .error (withoutCommand shared)
  | argument :: rest =>
    match shared.mayCommand, argument, Kind.ofName? argument with
    | true, "help", _ => .error (helpOn rest)
    | true, _, some kind => readCommand shared kind rest
    | _, _, _ => do readFrom (← shared.step none argument) rest

def read (arguments : List String) : Except Refusal Request := readFrom {} arguments

end TableFlow.Command
