import PeerMesh.Text.Decimal

/-!
# Settings

* `Setting` : what a command can be told, each under a flag and most in an environment variable;
* `UsageError` : why arguments do not make a command;
* `Setting.accept` : the values that a text stands for. A time limit is a positive number of milliseconds
  in 64 bits, a path is not empty, and a list is cut at its commas.
-/

namespace PeerMesh.Command

/-- What a command can be told. -/
inductive Setting where
  | log
  | name
  | target
  | requestTimeout
  | caCertPath
  | caCert
  | listen
  | join
  | tlsCert
  | tlsKey
  | peerName
  | peerTarget
  deriving DecidableEq, Repr, Inhabited

/-- Why arguments do not make a command. -/
inductive UsageError where
  | helpWanted
  | versionWanted
  | nothingGiven
  | commandMissing
  | commandUnknown
  | argumentUnknown
  /-- A flag that takes no value got one. -/
  | valueUnexpected
  /-- A flag that takes a value got none, or an empty one that it does not take. -/
  | valueMissing
  | valueRepeated
  | valueRefused
  | settingMissing
  deriving DecidableEq, Repr, Inhabited

def UsageError.exitCode : UsageError → Nat
  | helpWanted => 0
  | versionWanted => 0
  | _ => 2

namespace Setting

def flag : Setting → String
  | log => "log"
  | name => "name"
  | target => "target"
  | requestTimeout => "request-timeout-ms"
  | caCertPath => "ca-cert-path"
  | caCert => "ca-cert"
  | listen => "listen"
  | join => "join"
  | tlsCert => "tls-cert"
  | tlsKey => "tls-key"
  | peerName => "peer-name"
  | peerTarget => "peer-target"

/-- The environment variable that stands in for the flag. -/
def envName? : Setting → Option String
  | log => some "MESH_LOG"
  | name => some "MESH_NAME"
  | target => some "MESH_TARGET"
  | requestTimeout => some "MESH_REQUEST_TIMEOUT_MS"
  | caCertPath => some "MESH_CA_CERT_PATH"
  | caCert => some "MESH_CA_CERT"
  | listen => some "MESH_LISTEN"
  | join => some "MESH_JOIN"
  | tlsCert => some "MESH_TLS_CERT"
  | tlsKey => some "MESH_TLS_KEY"
  | peerName => none
  | peerTarget => none

def repeats (s : Setting) : Bool := s = join

/-- What the setting is when nothing is said about it. -/
def default? : Setting → Option String
  | log => some "info"
  | requestTimeout => some "5000"
  | listen => some "0.0.0.0:8081"
  | _ => none

def number? (text : String) : Option Nat := (Text.decimal? text.toList).filter (· < Nat.pow 2 64)

/-- The values that a text stands for. -/
def accept (s : Setting) (text : String) : Except UsageError (List String) :=
  match s with
  | requestTimeout =>
    match number? text with
    | some (_ + 1) => .ok [text]
    | _ => .error .valueRefused
  | caCertPath | tlsCert | tlsKey => if text.isEmpty then .error .valueMissing else .ok [text]
  | join => .ok (text.splitOn ",")
  | _ => .ok [text]

end Setting

end PeerMesh.Command
