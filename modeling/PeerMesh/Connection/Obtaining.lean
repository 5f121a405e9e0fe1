import PeerMesh.Activity

/-!
# Obtaining clients

* `Profile.obtain` : the client of a peer, from the pool, or else by a lazy dial that the pool keeps if
  it succeeds. A failed dial is not tried again here;
* `Peer.disconnect` : takes the client of a peer out of the pool and closes it.
-/

namespace PeerMesh

namespace Profile

/-- The dial for an empty slot, and its end. -/
def fill (me : Profile) (slot : Nat) (target : String) : Activity (Except PeerError Client) := do
  match ← Activity.dial target me.security .lazy with
  | .ok channel =>
    let client : Client := ⟨channel, me.limit⟩
    Activity.onPool fun p => ((), p.settle slot (some client))
    pure (.ok client)
  | .error e =>
    Activity.onPool fun p => ((), p.settle slot none)
    pure (.error (.dial target e))

def obtain (me : Profile) (peer : Peer) : Activity (Except PeerError Client) := do
  let slot ← Activity.onPool fun p => p.enter peer.id
  match ← Activity.claim slot with
  | some client => pure (.ok client)
  | none => me.fill slot peer.target

end Profile

/-- Ends the connection to a peer. The client leaves the pool even when it does not close well. -/
def Peer.disconnect (peer : Peer) : Activity (Except PeerError Unit) := do
  match ← Activity.onPool fun p => p.evict peer.id with
  | none => pure (.error (.noConnection peer.id))
  | some client => do
    let result ← Activity.close client.channel
    pure (result.mapError (.dial peer.target))

end PeerMesh
