import PeerMesh.Activity
import PeerMesh.Membership.Answering

/-!
# Serving requests

* `Profile.serveJoin` : an attempt to join. The name is looked up, the joiner is let in (`Profile.enroll`) and the table
  is read for the answer (`Profile.welcome`), and other activities may have their turn in between;
* `Profile.serveAtOnce` : any other request, for which the store changes in one step;
* `Profile.serve` : the activity of a node that answers a request.

The announcements that come of a request are made in the background.
-/

namespace PeerMesh.Profile

/-- Reads the table for a joiner that is in it, and answers. -/
def welcome (me : Profile) (joiner : Peer) : Activity JoinReply := do
  let (nodes, notices) ← Activity.readStore fun s => (s.nodes.map Node.toPeer, me.notices joiner s)
  Activity.announce notices
  pure { nameUnique := true, responder := me.name, nodes }

/-- Lets a joiner in, whatever has happened since its name was looked up. -/
def enroll (me : Profile) (joiner : Peer) : Activity JoinReply := do
  Activity.onStore fun s => ((), s.letIn joiner)
  me.welcome joiner

def serveJoin (me : Profile) (joiner : Peer) : Activity JoinReply := do
  if ← Activity.readStore (me.nameTaken joiner) then
    pure { nameUnique := false, responder := me.name, nodes := [] }
  else me.enroll joiner

/-- Answers a request with one change of the store. -/
def serveAtOnce (me : Profile) (request : Request) : Activity Response := do
  let now ← Activity.date
  let (response, notices) ← Activity.onStore fun s =>
    let (response, s, notices) := me.answer now request s
    ((response, notices), s)
  Activity.announce notices
  pure response

def serve (me : Profile) : Request → Activity Response
  | .joinMesh joiner => .joinMesh <$> me.serveJoin joiner
  | request => me.serveAtOnce request

end PeerMesh.Profile
