import PeerMesh.Message
import PeerMesh.Profile
import PeerMesh.Store

/-!
# Answering requests

What a node does with a request. It stores only what the message carries, and a health chosen here.

* `Profile.nameTaken`, `Store.letIn` : the two accesses to the store that an attempt to join makes;
* `Store.hear`, `Profile.learn`, `Profile.takeOver` : a ping, an announcement and pushed samples;
* `Profile.answer` : the answer to any request, the store after it, and the announcements to be made
  (`Notice`), which the answer does not wait for.
-/

namespace PeerMesh

def Store.letIn (s : Store) (joiner : Peer) : Store := s.putNode (.ofPeer joiner .ok)

/-- A ping: its sender is well, and known from now on. -/
def Store.hear (s : Store) (now : Int64) (sender : Peer) : Store :=
  match s.setHealth sender.id .ok now with
  | (true, s) => s
  | (false, s) => (s.addNode (.ofPeer sender .ok)).2

namespace Profile

/-! ## Joining -/

/-- Whether a joiner claims a name that belongs to another node: this one, or one in the store. -/
def nameTaken (me : Profile) (joiner : Peer) (s : Store) : Bool :=
  (joiner.name = me.name && joiner.id ≠ me.id) ||
    match s.nodeNamed? joiner.name with
    | some holder => holder.id ≠ joiner.id
    | none => false

/-- The nodes that are told of a joiner: all that are known, without the joiner and this node. -/
def notices (me : Profile) (joiner : Peer) (s : Store) : List Notice :=
  (s.nodes.filter fun n => n.id ≠ joiner.id && n.id ≠ me.id).map fun n => ⟨n.toPeer, joiner⟩

def answerJoin (me : Profile) (joiner : Peer) (s : Store) : JoinReply × Store × List Notice :=
  if me.nameTaken joiner s then
    ({ nameUnique := false, responder := me.name, nodes := [] }, s, [])
  else
    let s := s.letIn joiner
    ({ nameUnique := true, responder := me.name, nodes := s.nodes.map Node.toPeer }, s,
      me.notices joiner s)

/-! ## The other requests -/

/-- Word of a peer: it is known from now on, unless it is this node. -/
def meet (me : Profile) (peer : Peer) (s : Store) : Store :=
  if peer.id = me.id then s else (s.addNode (.ofPeer peer .ok)).2

/-- An announcement: word of the newcomer, and then of the announcer. -/
def learn (me : Profile) (word : Announcement) (s : Store) : Store :=
  me.meet word.announcer (me.meet word.newcomer s)

/-- Pushed samples: all are stored but those that this node itself has measured. -/
def takeOver (me : Profile) (readings : List Reading) (s : Store) : Store :=
  (readings.filter fun r => r.source ≠ me.name).foldl (fun s r => s.putSample (.ofReading r)) s

def answer (me : Profile) (now : Int64) (request : Request) (s : Store) :
    Response × Store × List Notice :=
  match request with
  | .joinMesh joiner =>
    let (reply, s, notices) := me.answerJoin joiner s
    (.joinMesh reply, s, notices)
  | .ping sender => (.empty, s.hear now sender, [])
  | .nodeDiscovery word => (.empty, me.learn word s, [])
  | .pushSamples readings => (.empty, me.takeOver readings s, [])
  | .rtt => (.empty, s, [])

end Profile

end PeerMesh
