import PeerMesh.Connection.Client
import PeerMesh.Connection.Pool

/-!
# Links: many calls on one connection

* `Link` : the calling side of one connection. Every call takes the next number and waits under it; an
  answer goes to the call whose number it carries, and to none if that call waits no more;
* `register`, `abandon`, `deliver`, `lose` : a call begins, is given up, is answered; the connection ends
  and with it every call that still waits. A link that has ended takes no calls.
-/

namespace PeerMesh.Tcp

/-- The calling side of one connection. -/
structure Link where
  /-- The number of the next call. -/
  next : UInt64 := 1
  /-- Who waits for an answer, by the number of the call; `none` once the connection has ended. -/
  waiting : Option (Table UInt64 Ticket) := some {}
  deriving Inhabited

namespace Link

def alive (l : Link) : Bool := l.waiting.isSome

/-- A call takes the next number and waits under it; tells the number, and whether the call waits. -/
def register (l : Link) (t : Ticket) : UInt64 × Bool × Link :=
  (l.next, l.alive,
    { next := l.next + 1, waiting := l.waiting.map fun table => table.insert l.next t })

def abandon (l : Link) (number : UInt64) : Link :=
  { l with waiting := l.waiting.map fun table => table.erase number }

/-- An answer comes; tells who gets it. -/
def deliver (l : Link) (answer : Frame Response) : Option (Ticket × Response) × Link :=
  ((l.waiting.bind fun table => table.get? answer.callId).map fun t => (t, answer.body),
    l.abandon answer.callId)

def lose (l : Link) : List Ticket × Link :=
  ((l.waiting.map Table.values).getD [], { l with waiting := none })

end Link

end PeerMesh.Tcp
