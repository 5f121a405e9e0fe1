import PeerMesh.Node
import PeerMesh.Sample

/-!
# Messages between nodes

* `Method` : the name of a remote procedure, with its full path;
* `Request`, `Response` : what is asked and what is answered;
* `Notice` : an announcement that has yet to be made;
* `Frame` : a message with the number of the call it belongs to, so that many calls can share one
  connection.
-/

namespace PeerMesh

inductive Method where
  | joinMesh
  | ping
  | nodeDiscovery
  | pushSamples
  | rtt
  deriving DecidableEq, Repr, Inhabited

namespace Method

def name : Method → String
  | joinMesh => "JoinMesh"
  | ping => "Ping"
  | nodeDiscovery => "NodeDiscovery"
  | pushSamples => "PushSamples"
  | rtt => "Rtt"

def path (m : Method) : String := "/mesh.v1.MeshService/" ++ m.name

end Method

structure JoinReply where
  /-- False when another node has the name already. -/
  nameUnique : Bool
  responder : String
  nodes : List Peer
  deriving DecidableEq, Repr, Inhabited

/-- Word of a node that the sender has learned of. -/
structure Announcement where
  newcomer : Peer
  announcer : Peer
  deriving DecidableEq, Repr, Inhabited

/-- An announcement to be made: whom to tell, and of whom. -/
structure Notice where
  listener : Peer
  newcomer : Peer
  deriving DecidableEq, Repr, Inhabited

inductive Request where
  | joinMesh (joiner : Peer)
  | ping (sender : Peer)
  | nodeDiscovery (word : Announcement)
  | pushSamples (readings : List Reading)
  | rtt
  deriving DecidableEq, Repr, Inhabited

def Request.method : Request → Method
  | joinMesh _ => .joinMesh
  | ping _ => .ping
  | nodeDiscovery _ => .nodeDiscovery
  | pushSamples _ => .pushSamples
  | rtt => .rtt

inductive Response where
  | joinMesh (reply : JoinReply)
  | empty
  /-- The answering node failed, with a text that says why. -/
  | failure (message : String)
  deriving DecidableEq, Repr, Inhabited

/-- A message with the number of its call. -/
structure Frame (α : Type) where
  callId : UInt64
  body : α
  deriving DecidableEq, Repr, Inhabited

end PeerMesh
