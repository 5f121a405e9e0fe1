import PeerMesh.Tcp.Link

/-!
# Lines: a target and the connections to it

* `Line` : what stands behind one channel over TCP: a target, the connections opened to it one after the
  other, and whether the channel was closed. At most the last connection is alive;
* `Line.ready` : whether a call finds a connection that is alive, must dial, or is refused;
* `Line.opened` : a dial has succeeded;
* `Line.close` : the first close ends the connection, every other is refused.
-/

namespace PeerMesh.Tcp

/-- What stands behind one channel. -/
structure Line where
  target : String
  closed : Bool := false
  /-- The connections that were opened and have ended, the last first. -/
  ended : List Link := []
  /-- The last connection that was opened, unless the channel was closed since. -/
  current : Option Link := none
  deriving Inhabited

inductive Readiness where
  | connected (link : Link)
  | mustDial
  | refused (error : DialError)

namespace Line

def live? (l : Line) : Option Link := l.current.filter Link.alive

def ready (l : Line) : Readiness :=
  if l.closed then .refused (.closed l.target)
  else
    match l.live? with
    | some link => .connected link
    | none => .mustDial

/-- A dial has succeeded: the new connection takes the place of one that has ended. -/
def opened (l : Line) : Line := { l with ended := l.current.toList ++ l.ended, current := some {} }

def onLink (l : Line) (f : Link → Link) : Line := { l with current := l.current.map f }

/-- Closes the channel; tells whether it was open, and who waits in vain. -/
def close (l : Line) : Except DialError Unit × List Ticket × Line :=
  if l.closed then (.error (.closed l.target), [], l)
  else
    match l.current with
    | none => (.ok (), [], { l with closed := true })
    | some link =>
      let (losers, link) := link.lose
      (.ok (), losers, { l with closed := true, ended := link :: l.ended, current := none })

end Line

end PeerMesh.Tcp
