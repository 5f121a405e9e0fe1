import PeerMesh.Command.Running
import PeerMesh.Machine.Running
import Std.Async.Signal

/-!
# The program

Reads the command line and the environment, runs the command on this machine, and prints what comes of
it. A serving node is stopped by an interrupt.
-/

namespace PeerMesh.Program

open Std.Async Command Machine

def usage : String :=
  "Run or probe a mesh health node\n\n" ++
  "Usage: mesh-node [--log FILTER] COMMAND\n\n" ++
  "  serve --name NAME --target ADDRESS [--listen ADDRESS] [--join ADDRESS,...]\n" ++
  "        [--tls-cert FILE --tls-key FILE]\n" ++
  "  ping  --name NAME --target ADDRESS --peer-name NAME --peer-target ADDRESS\n" ++
  "  rtt   --name NAME --target ADDRESS --peer-name NAME --peer-target ADDRESS\n\n" ++
  "All commands take --request-timeout-ms, --ca-cert-path and --ca-cert."

def complaint : UsageError → String
  | .helpWanted => usage
  | .versionWanted => "mesh-node 0.1.0"
  | .nothingGiven => usage
  | .commandMissing => "error: a command is required"
  | .commandUnknown => "error: unrecognized command"
  | .argumentUnknown => "error: unexpected argument"
  | .valueUnexpected => "error: unexpected value"
  | .valueMissing => "error: a value is required"
  | .valueRepeated => "error: an argument cannot be used multiple times"
  | .valueRefused => "error: invalid value"
  | .settingMissing => "error: required arguments were not provided"

def environment : IO (List (String × String)) := do
  let names := (Setting.log :: Name.settings .serve).filterMap Setting.envName?
  names.filterMapM fun name => do pure ((← IO.getEnv name).map fun value => (name, value))

/-- The files that the settings name, as they are read. -/
def filesOf (task : Command.Task) : IO Files := do
  let named : List (Option String) := match task with
    | .serve s => [s.node.caCertPath, s.tlsCert, s.tlsKey]
    | .ping s => [s.node.caCertPath]
    | .rtt s => [s.node.caCertPath]
  let read ← (named.filterMap id).mapM fun path => do pure (path, ← readFile path)
  pure fun path => (read.lookup path).getD (.error .notFound)

/-- Serves until the program is interrupted. -/
def serve (files : Files) (settings : ServeSettings) : Async (Except CommandError CommandResult) := do
  match settings.credentials files with
  | .error error => pure (.error error)
  | .ok (some _) => pure (.error (.bind settings.listen (.other "no TLS on this machine")))
  | .ok none =>
    match ← listen settings.listen with
    | .error fault => pure (.error (.bind settings.listen fault))
    | .ok server =>
      let interrupt ← Signal.Waiter.mk .sigint false
      let interrupted ← interrupt.wait
      let node ← Running.new (settings.node.profile files)
      background (node.serve server)
      match ← node.exec (settings.enter node.profile) with
      | .error error => pure (.error error)
      | .ok () =>
        let _ ← await interrupted
        pure (.ok .stopped)

def probe (files : Files) (task : Command.Task) (settings : ProbeSettings) :
    Async (Except CommandError CommandResult) := do
  let node ← Running.new (settings.node.profile files)
  node.exec (task.run { files, bind := fun _ => .ok () })

def run (task : Command.Task) : Async (Except CommandError CommandResult) := do
  let files ← filesOf task
  match task with
  | .serve settings => serve files settings
  | .ping settings => probe files task settings
  | .rtt settings => probe files task settings

end PeerMesh.Program

open PeerMesh Command in
def main (args : List String) : IO UInt32 := do
  let env ← Program.environment
  match Invocation.read (fun name => env.lookup name) args with
  | .error e =>
    if e.exitCode = 0 then IO.println (Program.complaint e) else IO.eprintln (Program.complaint e)
    pure e.exitCode.toUInt32
  | .ok invocation =>
    match ← (Program.run invocation.task).block with
    | .error e =>
      IO.eprintln ("Error: " ++ e.message)
      pure 1
    | .ok result =>
      if let some text := result.render then IO.println text
      pure 0
