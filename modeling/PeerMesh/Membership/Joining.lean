import PeerMesh.Connection.Obtaining

/-!
# Joining

* `JoinOutcome` : how an attempt to join ended;
* `Profile.adopt` : what the store learns from the answer of a member;
* `Profile.join` : asks one candidate after another until one answers. A name conflict is an answer.
-/

namespace PeerMesh

inductive JoinOutcome where
  /-- A member of the given name let this node in. -/
  | joined (peer : String)
  /-- A member was reached, and the name is taken. -/
  | nameConflict (candidate : String)
  /-- No candidate answered. -/
  | exhausted
  deriving DecidableEq, Repr, Inhabited

namespace JoinOutcome

def reached : JoinOutcome → Bool
  | exhausted => false
  | _ => true

def fatal : JoinOutcome → Bool
  | exhausted => true
  | _ => false

/-- The name of the member that let the node in, or why there is none. -/
def result (localName : String) : JoinOutcome → Except PeerError String
  | joined peer => .ok peer
  | nameConflict _ => .error (.nameConflict localName)
  | exhausted => .error .exhausted

end JoinOutcome

namespace Profile

def requestJoin (me : Profile) (candidate : String) : Activity (Except PeerError JoinReply) := do
  match ← me.obtain ⟨"", candidate⟩ with
  | .error e => pure (.error e)
  | .ok client => do
    let answer ← Activity.call client (.joinMesh me.peer)
    pure (Client.joinReply client.target answer)

/-- What the store learns from a member that lets this node in: the member, and every node it tells
of, without this one. -/
def adopt (me : Profile) (candidate : String) (reply : JoinReply) (s : Store) : Store :=
  (Peer.mk reply.responder candidate :: reply.nodes.filter fun p => p.id ≠ me.id).foldl
    (fun s p => s.putNode (.ofPeer p .ok)) s

/-- Joins through the first candidate that answers. They are used up when the last one fails. -/
def join (me : Profile) : List String → Activity JoinOutcome
  | [] => pure .exhausted
  | candidate :: candidates => do
    match ← me.requestJoin candidate with
    | .error _ => if candidates.isEmpty then pure .exhausted else me.join candidates
    | .ok reply =>
      if reply.nameUnique then do
        Activity.onStore fun s => ((), me.adopt candidate reply s)
        pure (.joined reply.responder)
      else pure (.nameConflict candidate)

end Profile

end PeerMesh
