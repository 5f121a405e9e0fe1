import PeerMesh.Connection.Obtaining
import PeerMesh.Membership.Answering

/-!
# Spreading what a node knows

* `Profile.announce` : tells a node of a newcomer. Failures are dropped;
* `Profile.push` : sends every sample to a node in one request; with no sample there is nothing to send.
-/

namespace PeerMesh.Profile

def announce (me : Profile) (notice : Notice) : Activity Unit := do
  match ← me.obtain notice.listener with
  | .error _ => pure ()
  | .ok client => do
    let _ ← Activity.callEmpty client (.nodeDiscovery ⟨notice.newcomer, me.peer⟩)
    pure ()

def push (me : Profile) (peer : Peer) : Activity (Except PeerError Unit) := do
  match ← Activity.readStore Store.samples with
  | [] => pure (.ok ())
  | samples => do
    match ← me.obtain peer with
    | .error e => pure (.error e)
    | .ok client => Activity.callEmpty client (.pushSamples (samples.map Sample.toReading))

end PeerMesh.Profile
