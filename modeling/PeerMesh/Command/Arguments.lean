import PeerMesh.Command.Setting
import PeerMesh.Duration

/-!
# Reading the command line

* `Word` : one argument by its form;
* `Scan` : the settings read so far. A flag and its value are judged only when the next flag comes or the
  arguments end, so that an argument that means nothing is reported before a value that is bad;
* `scan` : reads arguments up to the name of a command, or to the end;
* `Invocation` : a command with its settings; `Invocation.read` takes them from the arguments, then from
  the environment, and then from the defaults.
-/

namespace PeerMesh.Command

/-! ## Arguments -/

/-- One argument by its form. -/
inductive Word where
  /-- A flag with two dashes in front, and a value after an equals sign. -/
  | long (flag : String) (value : Option String)
  /-- Flags of one letter, of which the first is told. -/
  | short (flag : Char)
  | endOfFlags
  | plain (text : String)
  deriving DecidableEq, Repr, Inhabited

/-- A flag and what follows its first equals sign. -/
def Word.ofFlag (chars : List Char) : Word :=
  match chars.span (· ≠ '=') with
  | (flag, _ :: value) => .long (String.ofList flag) (some (String.ofList value))
  | (flag, []) => .long (String.ofList flag) none

def Word.ofText (text : String) : Word :=
  match text.toList with
  | ['-', '-'] => .endOfFlags
  | '-' :: '-' :: rest => ofFlag rest
  | '-' :: c :: _ => .short c
  | _ => .plain text

inductive Name where
  | serve
  | ping
  | rtt
  deriving DecidableEq, Repr, Inhabited

namespace Name

def text : Name → String
  | serve => "serve"
  | ping => "ping"
  | rtt => "rtt"

def ofText? (text : String) : Option Name := [serve, ping, rtt].find? fun n => n.text = text

/-- The settings of a command, in the order in which the environment is asked for them. -/
def settings : Name → List Setting
  | serve => [.name, .target, .requestTimeout, .caCertPath, .caCert, .listen, .join, .tlsCert, .tlsKey]
  | _ => [.name, .target, .requestTimeout, .caCertPath, .caCert, .peerName, .peerTarget]

def required : Name → List Setting
  | serve => [.name, .target]
  | _ => [.name, .target, .peerName, .peerTarget]

end Name

/-! ## Scanning -/

/-- The settings read so far. -/
structure Scan where
  /-- Every setting with its values, judged. -/
  given : List (Setting × List String) := []
  /-- A flag, and its value if that has come; not judged yet. -/
  pending : Option (Setting × Option String) := none
  deriving Inhabited

namespace Scan

def values? (s : Scan) (setting : Setting) : Option (List String) :=
  if s.given.any fun g => g.1 = setting then
    some ((s.given.filter fun g => g.1 = setting).flatMap Prod.snd)
  else none

def accept (s : Scan) (setting : Setting) (value : Option String) : Except UsageError Scan :=
  match value with
  | none => .error .valueMissing
  | some text =>
    if (s.values? setting).isSome ∧ ¬setting.repeats then .error .valueRepeated
    else (setting.accept text).map fun values => { given := s.given ++ [(setting, values)] }

def settle (s : Scan) : Except UsageError Scan :=
  match s.pending with
  | none => .ok s
  | some (setting, value) => { s with pending := none }.accept setting value

def stop {α : Type} (s : Scan) (error : UsageError) : Except UsageError α :=
  match s.settle with
  | .ok _ => .error error
  | .error e => .error e

/-- Takes a value from the environment for a setting that has none. -/
def fromEnvironment (env : String → Option String) (s : Scan) (setting : Setting) :
    Except UsageError Scan :=
  match s.values? setting, setting.envName?.bind env with
  | none, some text => s.accept setting (some text)
  | _, _ => .ok s

end Scan

/-- What asking for help comes to: about one command at most, of which this asking is one. No command has
commands of its own. -/
def helpAbout : List String → UsageError
  | [] => .helpWanted
  | [word] => if (Name.ofText? word).isSome ∨ word = "help" then .helpWanted else .commandUnknown
  | _ => .commandUnknown

/-- What a plain argument means where a command is expected but no flag may follow any more. -/
def trailing (text : String) : UsageError :=
  if (Name.ofText? text).isSome ∨ text = "help" then .argumentUnknown else .commandUnknown

/-- Reads arguments to the end, or before a command is named (`top`) up to its name and what follows it.
Only the given settings have flags. -/
def scan (top : Bool) (settings : List Setting) :
    List String → Scan → Except UsageError (Scan × Option (Name × List String))
  | [], s => .ok (s, none)
  | arg :: args, s =>
    match Word.ofText arg with
    | .plain text =>
      match s.pending with
      | some (setting, none) => scan top settings args { s with pending := some (setting, some text) }
      | _ =>
        if ¬top then .error .argumentUnknown
        else if text = "help" then .error (helpAbout args)
        else
          match Name.ofText? text with
          | some name => .ok (s, some (name, args))
          | none => .error .commandUnknown
    | .endOfFlags =>
      match args with
      | [] => .ok (s, none)
      | text :: _ => .error (if top then trailing text else .argumentUnknown)
    | .short 'h' => s.stop .helpWanted
    | .short 'V' => if top then s.stop .versionWanted else .error .argumentUnknown
    | .short _ => .error .argumentUnknown
    | .long flag value =>
      if flag = "help" ∨ flag = "version" ∧ top then
        if value.isSome then .error .valueUnexpected
        else s.stop (if flag = "help" then .helpWanted else .versionWanted)
      else
        match settings.find? fun k => k.flag = flag with
        | none => .error .argumentUnknown
        | some setting =>
          match s.settle with
          | .error e => .error e
          | .ok s =>
            match value with
            | none => scan top settings args { s with pending := some (setting, none) }
            | some text =>
              match s.accept setting (some text) with
              | .error e => .error e
              | .ok s => scan top settings args s

/-! ## Invocations -/

/-- What every command is told of the node that it runs. -/
structure NodeSettings where
  name : String
  target : String
  /-- The limit of every request, in milliseconds. -/
  requestTimeout : Nat
  caCertPath : Option String
  caCert : Option String
  deriving DecidableEq, Repr

def NodeSettings.limit (s : NodeSettings) : Duration := .ofMillis s.requestTimeout

structure ServeSettings where
  node : NodeSettings
  /-- The address on which requests are accepted. -/
  listen : String
  /-- The candidates for joining, in order. -/
  join : List String
  tlsCert : Option String
  tlsKey : Option String
  deriving DecidableEq, Repr

structure ProbeSettings where
  node : NodeSettings
  peerName : String
  peerTarget : String
  deriving DecidableEq, Repr

inductive Task where
  | serve (settings : ServeSettings)
  | ping (settings : ProbeSettings)
  | rtt (settings : ProbeSettings)
  deriving DecidableEq, Repr

def Task.name : Task → Name
  | serve _ => .serve
  | ping _ => .ping
  | rtt _ => .rtt

/-- What the program is called for. -/
structure Invocation where
  /-- Which of its own doings the program tells of. -/
  log : String
  task : Task
  deriving DecidableEq, Repr

namespace Scan

def value? (s : Scan) (setting : Setting) : Option String :=
  match s.values? setting with
  | some values => values.head?
  | none => setting.default?

def value (s : Scan) (setting : Setting) : String := (s.value? setting).getD ""

def node (s : Scan) : NodeSettings :=
  { name := s.value .name, target := s.value .target
    requestTimeout := (Setting.number? (s.value .requestTimeout)).getD 0
    caCertPath := s.value? .caCertPath, caCert := s.value? .caCert }

def probe (s : Scan) : ProbeSettings :=
  { node := s.node, peerName := s.value .peerName, peerTarget := s.value .peerTarget }

def serve (s : Scan) : ServeSettings :=
  { node := s.node, listen := s.value .listen, join := (s.values? .join).getD []
    tlsCert := s.value? .tlsCert, tlsKey := s.value? .tlsKey }

def task (s : Scan) : Name → Task
  | .serve => .serve s.serve
  | .ping => .ping s.probe
  | .rtt => .rtt s.probe

/-- Whether everything is there that the command needs: certificate and key only together. -/
def complete (s : Scan) (name : Name) : Bool :=
  name.required.all (fun k => (s.values? k).isSome) &&
    (s.values? .tlsCert).isSome == (s.values? .tlsKey).isSome

end Scan

def scanCommand (env : String → Option String) (name : Name) (args : List String) :
    Except UsageError Scan := do
  let (s, _) ← scan false (name.settings ++ [.log]) args {}
  let s ← s.settle
  let s ← name.settings.foldlM (Scan.fromEnvironment env) s
  if s.complete name then pure s else throw .settingMissing

def Invocation.read (env : String → Option String) (args : List String) :
    Except UsageError Invocation := do
  match ← scan true [.log] args {} with
  | (top, none) =>
    let top ← top.settle
    let top ← top.fromEnvironment env .log
    throw (if (top.values? .log).isSome then .commandMissing else .nothingGiven)
  | (top, some (name, rest)) =>
    let s ← scanCommand env name rest
    let top ← top.settle
    let top ← top.fromEnvironment env .log
    let log := match s.values? .log with
      | some values => values.headD ""
      | none => top.value .log
    pure { log, task := s.task name }

end PeerMesh.Command
