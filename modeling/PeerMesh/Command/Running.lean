import PeerMesh.Command.Arguments
import PeerMesh.Measurement.RoundTrip
import PeerMesh.Membership.Joining
import PeerMesh.Text.Json

/-!
# Running commands

* `CommandError` : why a command failed, as a chain of causes;
* `CommandResult` : how a command ended well, and what the program prints then;
* `Host` : the files and the addresses of the machine that the program runs on;
* `Task.run` : what a command does. A serving node that has joined, or need not, or whose name is taken,
  goes on serving until it is stopped.
-/

namespace PeerMesh.Command

inductive CommandError where
  | credentials (error : CredentialError)
  | bind (address : String) (fault : IoFault)
  | join (candidates : List String) (error : PeerError)
  | ping (target : String) (error : PeerError)
  | measurement (target : String)
  deriving DecidableEq, Repr, Inhabited

namespace CommandError

/-- What failed, and then why, and why that. -/
def chain : CommandError → List String
  | credentials error => "failed to load server TLS credentials" :: error.chain
  | bind address fault => ["failed to bind " ++ address, fault.message]
  | join candidates error =>
    ("could not join mesh through " ++ Text.quotedList candidates) :: error.chain
  | ping target error => ("ping to " ++ target ++ " failed") :: error.chain
  | measurement target => ["RTT measurement to " ++ target ++ " failed"]

def message (e : CommandError) : String := ": ".intercalate e.chain

end CommandError

inductive CommandResult where
  | stopped
  | pinged (peer : String)
  | measured (samples : List Sample)
  deriving Repr, Inhabited

namespace CommandResult

/-- A sample as the program prints it. -/
def report (s : Sample) : Text.Json :=
  .object [("from", .text s.source), ("key", .text s.kind.name), ("to", .text s.dest),
    ("ts", .int s.takenAt.toInt), ("value", .text s.value)]

def render : CommandResult → Option String
  | stopped => none
  | pinged peer => some (peer ++ " is reachable")
  | measured samples => some (Text.Json.list (samples.map report)).pretty

end CommandResult

structure Host where
  files : Files
  /-- Starts to accept connections on an address. -/
  bind : String → Except IoFault Unit

def NodeSettings.profile (files : Files) (s : NodeSettings) : Profile :=
  { name := s.name, target := s.target, limit := s.limit
    security := .ofLoaded (ClientCredentials.load files s.caCertPath s.caCert) }

def ServeSettings.credentials (files : Files) (s : ServeSettings) :
    Except CommandError (Option ServerCredentials) :=
  match s.tlsCert, s.tlsKey with
  | some certificate, some key =>
    match ServerCredentials.load files certificate key with
    | .ok credentials => .ok (some credentials)
    | .error e => .error (.credentials e)
  | _, _ => .ok none

/-- Joins through the candidates, if there are any. A taken name does not keep a node from serving. -/
def ServeSettings.enter (me : Profile) (s : ServeSettings) : Activity (Except CommandError Unit) := do
  if s.join.isEmpty then pure (.ok ())
  else
    let outcome ← me.join s.join
    match outcome.result me.name with
    | .ok _ => pure (.ok ())
    | .error (.nameConflict _) => pure (.ok ())
    | .error e => pure (.error (.join s.join e))

namespace Task

def serving (host : Host) (s : ServeSettings) : Activity (Except CommandError CommandResult) :=
  match s.credentials host.files with
  | .error e => pure (.error e)
  | .ok _ =>
    match host.bind s.listen with
    | .error fault => pure (.error (.bind s.listen fault))
    | .ok () => (·.map fun _ => .stopped) <$> s.enter (s.node.profile host.files)

def pinging (host : Host) (s : ProbeSettings) : Activity (Except CommandError CommandResult) := do
  match ← (s.node.profile host.files).ping ⟨s.peerName, s.peerTarget⟩ with
  | .ok () => pure (.ok (.pinged s.peerName))
  | .error e => pure (.error (.ping s.peerTarget e))

def measuring (host : Host) (s : ProbeSettings) : Activity (Except CommandError CommandResult) := do
  Activity.onStore fun store => ((), store.putNode (.new s.peerName s.peerTarget .ok))
  (s.node.profile host.files).rtt
  match ← Activity.readStore Store.samples with
  | [] => pure (.error (.measurement s.peerTarget))
  | samples => pure (.ok (.measured samples))

def run (host : Host) : Task → Activity (Except CommandError CommandResult)
  | serve s => serving host s
  | ping s => pinging host s
  | rtt s => measuring host s

end Task

end PeerMesh.Command
