import PeerMesh.Identity

/-!
# Nodes

* `Peer` : a node as other nodes tell of it, by name and address;
* `Health` : how a node is doing, as seen from here;
* `Node` : a peer with its id, its health and the moment the health last changed. Health and moment
  never leave the node that keeps the record: `Node.toPeer` drops them, `Node.ofPeer` starts anew.
-/

namespace PeerMesh

/-- A node as other nodes tell of it. -/
structure Peer where
  name : String
  /-- The address at which the node is reached. -/
  target : String
  deriving DecidableEq, Repr, Inhabited

def Peer.id (p : Peer) : NodeId := .ofTarget p.target

inductive Health where
  | ok
  | warning
  | notOk
  deriving DecidableEq, Repr, Inhabited

def Health.text : Health → String
  | ok => "ok"
  | warning => "warning"
  | notOk => "not-ok"

structure Node where
  id : NodeId
  name : String
  target : String
  health : Health
  /-- The unix second of the last change of health, zero until there is one. -/
  changedAt : Int64
  deriving DecidableEq, Repr, Inhabited

namespace Node

/-- A record that has seen no change of health yet. -/
def new (name target : String) (health : Health) : Node :=
  { id := .ofTarget target, name, target, health, changedAt := 0 }

def ofPeer (p : Peer) (health : Health) : Node := new p.name p.target health

/-- What other nodes are told about the node. -/
def toPeer (n : Node) : Peer := ⟨n.name, n.target⟩

theorem toPeer_ofPeer (p : Peer) (h : Health) : (ofPeer p h).toPeer = p := rfl

end Node

end PeerMesh
