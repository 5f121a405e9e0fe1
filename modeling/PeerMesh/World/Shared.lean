import PeerMesh.World.Basic

/-!
# A network of members

* `SharedNetwork` : the target of every member, and the targets that are down. A call reaches the member
  with that target, the last one if there are several;
* `takeDown`, `bringUp` : cut a target off and bring it back.
-/

namespace PeerMesh

structure SharedNetwork where
  targets : List String
  down : List String := []
  deriving Inhabited

namespace SharedNetwork

/-- The member that a target reaches, if it is up. -/
def reach (n : SharedNetwork) (target : String) : Option Nat :=
  if target ∈ n.down then none
  else ((n.targets.zipIdx.filter fun t => t.1 = target).map Prod.snd).getLast?

/-- Cuts a target off; tells whether it was up. -/
def takeDown (n : SharedNetwork) (target : String) : Bool × SharedNetwork :=
  if target ∈ n.down then (false, n) else (true, { n with down := target :: n.down })

/-- Brings a target back; tells whether it was down. -/
def bringUp (n : SharedNetwork) (target : String) : Bool × SharedNetwork :=
  (decide (target ∈ n.down), { n with down := n.down.filter fun t => t ≠ target })

def refused (target : String) : DialError := .connect target (.other "refused")

instance : Network SharedNetwork where
  dial n channel _ mode :=
    match mode, n.reach channel.target with
    | .lazy, _ => (.now (.ok ()), n)
    | .blocking, some _ => (.now (.ok ()), n)
    | .blocking, none => (.now (.error (refused channel.target)), n)
  call n channel _ :=
    match n.reach channel.target with
    | some member => (.serve member, n)
    | none => (.reply (.now (.error (.dial (refused channel.target)))), n)
  close n _ := (.ok (), n)

end SharedNetwork

end PeerMesh
