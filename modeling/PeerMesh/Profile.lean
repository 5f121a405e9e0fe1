import PeerMesh.Credentials.Loading
import PeerMesh.Duration
import PeerMesh.Node

/-!
# Profiles

* `Profile` : what a node knows of itself before it meets any other.
-/

namespace PeerMesh

structure Profile where
  name : String
  /-- The address at which other nodes reach this one. -/
  target : String
  /-- The limit of every call, and of dials that wait for the connection. -/
  limit : Duration := .ofSeconds 5
  /-- How the connections that this node dials are protected. -/
  security : Security := .insecure
  deriving Repr

namespace Profile

/-- The node as it tells others of itself. -/
def peer (me : Profile) : Peer := ⟨me.name, me.target⟩

def id (me : Profile) : NodeId := .ofTarget me.target

end Profile

end PeerMesh
