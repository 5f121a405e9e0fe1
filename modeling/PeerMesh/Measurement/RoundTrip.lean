import PeerMesh.Connection.Obtaining

/-!
# Round trips

* `Profile.ping` : whether a peer answers;
* `RoundTrip` : the two times of one exchange. The whole of it takes no less than its request;
* `Profile.measure` : dials a peer on a connection of its own, sends an empty request and hangs up;
* `Profile.recordRoundTrip` : reports both times and stores them as samples;
* `Profile.rtt` : measures the round trip to one healthy node, chosen by chance.
-/

namespace PeerMesh

structure RoundTrip where
  /-- From the start of the dial to the answer. -/
  total : Duration
  /-- From the finished dial to the answer. -/
  request : Duration
  deriving DecidableEq, Repr, Inhabited

def RoundTrip.ofReadings (start ready done : Nat) : RoundTrip :=
  ⟨.between start done, .between ready done⟩

namespace Profile

/-- Asks a peer for a sign of life. The store is left alone. -/
def ping (me : Profile) (peer : Peer) : Activity (Except PeerError Unit) := do
  match ← me.obtain peer with
  | .error e => pure (.error e)
  | .ok client => Activity.callEmpty client (.ping me.peer)

/-- Measures the round trip to a target. However the request ends, the connection is closed. -/
def measure (me : Profile) (target : String) : Activity (Except PeerError RoundTrip) := do
  let start ← Activity.elapsed
  match ← Activity.dial target me.security .blocking (some me.limit) with
  | .error e => pure (.error (.dial target e))
  | .ok channel => do
    let ready ← Activity.elapsed
    let answer ← Activity.callEmpty ⟨channel, me.limit⟩ .rtt
    let stop ← Activity.elapsed
    let _ ← Activity.close channel
    pure (answer.map fun _ => .ofReadings start ready stop)

def roundTripSamples (me : Profile) (peer : Node) (trip : RoundTrip) (now : Int64) : Sample × Sample :=
  (.new me.name peer.name .rttTotal (toString trip.total.nanos) now,
    .new me.name peer.name .rttRequest (toString trip.request.nanos) now)

def recordRoundTrip (me : Profile) (peer : Node) (trip : RoundTrip) : Activity Unit := do
  Activity.observe ⟨.rttTotal, peer.name, trip.total.seconds⟩
  Activity.observe ⟨.rttRequest, peer.name, trip.request.seconds⟩
  let now ← Activity.date
  let samples := me.roundTripSamples peer trip now
  Activity.onStore fun s => ((), s.putSample samples.1)
  Activity.onStore fun s => ((), s.putSample samples.2)

/-- Measures the round trip to one healthy node. A failed measurement leaves no trace. -/
def rtt (me : Profile) : Activity Unit := do
  let choice ← Activity.draw
  match ← Activity.readStore fun s => s.drawNodes .ok 1 fun _ => choice with
  | [] => pure ()
  | peer :: _ => do
    match ← me.measure peer.target with
    | .error _ => pure ()
    | .ok trip => me.recordRoundTrip peer trip

end Profile

end PeerMesh
