import PeerMesh.Connection.Client
import PeerMesh.Table

/-!
# The pool of clients

Every node id has at most one slot in the pool. The first caller that finds the slot empty dials; who
comes while the dial runs waits in the order of arrival. A dial that succeeds fills the slot for good
and serves all who wait; one that fails hands the slot to the first of them.

* `Slot` : `claim` asks for the client, `verdict` tells a caller where it stands, `settle` ends a dial;
* `Pool` : the slots, and which of them the table has under each id. A slot taken out of the table
  lives on for those who hold it;
* `Pool.enter`, `Pool.evict` : the slot of an id, made where there is none, and taken out;
* `Pool.client?`, `Pool.contains`, `Pool.size` : the filled slots in the table.
-/

namespace PeerMesh

/-- Names a caller that may have to wait. -/
structure Ticket where
  number : Nat
  deriving DecidableEq, Repr, Inhabited

/-- The place of one client. -/
structure Slot where
  client : Option Client := none
  /-- The caller that dials. -/
  dialer : Option Ticket := none
  /-- The callers that wait for the end of the dial, in the order of arrival. -/
  waiting : List Ticket := []
  deriving DecidableEq, Repr, Inhabited

namespace Slot

/-- A caller asks for the client: it dials if nobody does, and waits otherwise. -/
def claim (s : Slot) (t : Ticket) : Slot :=
  if s.client.isSome ∨ s.dialer = some t ∨ t ∈ s.waiting then s
  else if s.dialer.isNone then { s with dialer := some t }
  else { s with waiting := s.waiting ++ [t] }

/-- What a caller knows: nothing yet, that there is the client, or that it has to dial itself. -/
def verdict (s : Slot) (t : Ticket) : Option (Option Client) :=
  match s.client with
  | some c => some (some c)
  | none => if s.dialer = some t then some none else none

/-- The dial ends, with a client or without one. -/
def settle (s : Slot) : Option Client → Slot
  | some c => { client := some c }
  | none => { client := none, dialer := s.waiting.head?, waiting := s.waiting.tail }

end Slot

structure Pool where
  /-- Every slot there ever was. -/
  slots : List Slot := []
  /-- The number of the slot of each id. -/
  table : Table NodeId Nat := {}
  deriving Inhabited

namespace Pool

/-- The number of the slot of an id, which is made if there is none. -/
def enter (p : Pool) (id : NodeId) : Nat × Pool :=
  match p.table.get? id with
  | some n => (n, p)
  | none =>
    (p.slots.length, { slots := p.slots ++ [{}], table := p.table.insert id p.slots.length })

def onSlot (p : Pool) (n : Nat) (f : Slot → Slot) : Pool := { p with slots := p.slots.modify n f }

def claim (p : Pool) (n : Nat) (t : Ticket) : Pool := p.onSlot n (·.claim t)

def verdict (p : Pool) (n : Nat) (t : Ticket) : Option (Option Client) :=
  p.slots[n]?.bind (·.verdict t)

def settle (p : Pool) (n : Nat) (result : Option Client) : Pool := p.onSlot n (·.settle result)

def client? (p : Pool) (id : NodeId) : Option Client :=
  (p.table.get? id).bind fun n => p.slots[n]?.bind Slot.client

/-- Takes the slot of an id out of the table, and hands over its client. -/
def evict (p : Pool) (id : NodeId) : Option Client × Pool :=
  (p.client? id, { p with table := p.table.erase id })

def contains (p : Pool) (id : NodeId) : Bool := (p.client? id).isSome

def size (p : Pool) : Nat := p.table.keys.countP p.contains

end Pool

end PeerMesh
