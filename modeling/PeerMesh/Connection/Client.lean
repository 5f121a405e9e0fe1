import PeerMesh.Failure

/-!
# Clients

* `DialMode`, `Channel` : how eagerly a target is dialed, and what dialing it gives;
* `heard` : what a caller makes of the answer that came, or did not come;
* `Client` : a channel with the limit that every call on it is held to;
* `Client.empty`, `Client.joinReply` : what an answer to a request means. A request to join wants the
  answer to that, every other request the empty answer.
-/

namespace PeerMesh

/-- How eagerly a target is dialed. -/
inductive DialMode where
  /-- Connect on the first call. -/
  | lazy
  /-- Return only when connected. -/
  | blocking
  deriving DecidableEq, Repr, Inhabited

def DialMode.text : DialMode → String
  | lazy => "lazy"
  | blocking => "blocking"

/-- What dialing a target gives. No two channels have the same number. -/
structure Channel where
  number : Nat
  target : String
  deriving DecidableEq, Repr, Inhabited

/-- What a caller makes of the answer to its call: without one the connection was lost, and an answer
that tells of a failure is an error of the other side. -/
def heard (method : Method) : Option Response → Except CallError Response
  | none => .error (.lost method)
  | some (.failure text) => .error (.remote method text)
  | some response => .ok response

/-- A channel with the limit of every call on it. -/
structure Client where
  channel : Channel
  limit : Duration
  deriving DecidableEq, Repr, Inhabited

namespace Client

def target (c : Client) : String := c.channel.target

def empty (target : String) (method : Method) : Except CallError Response → Except PeerError Unit
  | .ok .empty => .ok ()
  | .ok _ => .error (.call target (.unexpected method))
  | .error e => .error (.call target e)

def joinReply (target : String) : Except CallError Response → Except PeerError JoinReply
  | .ok (.joinMesh reply) => .ok reply
  | .ok _ => .error (.call target (.unexpected .joinMesh))
  | .error e => .error (.call target e)

end Client

end PeerMesh
