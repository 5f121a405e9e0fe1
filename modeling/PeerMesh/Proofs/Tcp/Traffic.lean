import PeerMesh.Proofs.Store.Lookup
import PeerMesh.Tcp.Intake
import PeerMesh.Tcp.Line

/-!
# Calls over one channel

Any number of calls over a channel whose connections may end at any time, with a server, or whatever else, at the
other end. A connection goes by its number among those that were opened (`Line.links`), a call by its number among
those that were begun.

* `Link.ticket?` : who waits under a number, after each thing that can happen to a connection;
* `Line.links`, `Line.close_eq` : the connections of a line, and the two steps in which it is closed;
* `Call`, `Job`, `Connection`, `Traffic` : a call with what it has come to, a request at the server, what has passed
  over a connection, and all of it together. The records of who wrote what, and who got what, are kept for
  statements only;
* `Move`, `Traffic.step?` : one caller, the reader of one connection, or the other end does one thing;
* `Traffic.start`, `Traffic.run` : a channel that was never used, and many moves.
-/

namespace PeerMesh.Tcp

namespace Link

/-! ## Who waits on a connection -/

/-- Who waits under a number. -/
def ticket? (l : Link) (number : UInt64) : Option Ticket := l.waiting.bind fun table => table.get? number

theorem ticket?_register (l : Link) (t : Ticket) (number : UInt64) :
    (l.register t).2.2.ticket? number = if l.alive ∧ number = l.next then some t else l.ticket? number := by
  unfold ticket? register alive
  cases l.waiting with
  | none => simp
  | some table =>
    simp only [Option.map_some, Option.bind_some, Option.isSome_some, true_and, Table.get?_insert]

theorem ticket?_abandon (l : Link) (number k : UInt64) :
    (l.abandon number).ticket? k = if k = number then none else l.ticket? k := by
  unfold ticket? abandon
  cases l.waiting with
  | none => simp
  | some table => simp only [Option.map_some, Option.bind_some, Table.get?_erase]

theorem ticket?_of_abandon {l : Link} {number k : UInt64} {t : Ticket} (h : (l.abandon number).ticket? k = some t) :
    l.ticket? k = some t := by
  rw [ticket?_abandon] at h
  split at h
  · cases h
  · exact h

theorem ticket?_lose (l : Link) (number : UInt64) : l.lose.2.ticket? number = none := rfl

theorem mem_lose (l : Link) (t : Ticket) : t ∈ l.lose.1 ↔ ∃ number, l.ticket? number = some t := by
  unfold ticket? lose
  cases l.waiting with
  | none => simp
  | some table => exact Table.mem_values

theorem deliver_eq (l : Link) (answer : Frame Response) :
    l.deliver answer = ((l.ticket? answer.callId).map fun t => (t, answer.body), l.abandon answer.callId) := rfl

end Link

namespace Line

/-! ## The connections of a line -/

def links (l : Line) : List Link := l.ended.reverse ++ l.current.toList

def setLink (l : Line) (n : Nat) (link : Link) : Line :=
  if n < l.ended.length then { l with ended := (l.ended.reverse.set n link).reverse }
  else if n = l.ended.length then l.onLink fun _ => link
  else l

def shut (l : Line) : Line := { l with closed := true }

/-- The connection in use ends for good; tells who waits in vain. -/
def tearDown (l : Line) : List Ticket × Line :=
  match l.current with
  | none => ([], l)
  | some link => (link.lose.1, { l with ended := link.lose.2 :: l.ended, current := none })

/-- A channel is closed in two steps, between which a dial may come to its end. -/
theorem close_eq (l : Line) :
    l.close = if l.closed then (.error (.closed l.target), [], l) else (.ok (), l.shut.tearDown) := by
  unfold close tearDown shut
  split
  · rfl
  · cases l.current with
    | none => rfl
    | some link => rfl

theorem links_setLink (l : Line) (n : Nat) (link : Link) : (l.setLink n link).links = l.links.set n link := by
  unfold setLink links
  have hlength : l.ended.reverse.length = l.ended.length := List.length_reverse
  split
  · rename_i hn
    rw [List.reverse_reverse, List.set_append_left _ _ (by omega)]
  · rename_i hn
    rw [List.set_append_right _ _ (by omega), hlength]
    split
    · rename_i heq
      rw [heq, Nat.sub_self]
      cases hcurrent : l.current with
      | none => simp [onLink, hcurrent]
      | some old => simp [onLink, hcurrent]
    · rename_i hne
      cases l.current with
      | none => rfl
      | some old =>
        obtain ⟨k, hk⟩ := Nat.exists_eq_succ_of_ne_zero (by omega : n - l.ended.length ≠ 0)
        rw [hk]
        rfl

theorem links_opened (l : Line) : l.opened.links = l.links ++ [({} : Link)] := by
  unfold opened links
  cases l.current with
  | none => simp
  | some link => simp

theorem links_current {l : Line} {link : Link} (h : l.current = some link) :
    l.links[l.ended.length]? = some link := by
  unfold links
  rw [h, List.getElem?_append_right (by simp), List.length_reverse, Nat.sub_self]
  rfl

theorem links_tearDown {l : Line} {link : Link} (h : l.current = some link) :
    l.tearDown.1 = link.lose.1 ∧ l.tearDown.2.links = l.links.set l.ended.length link.lose.2 := by
  unfold tearDown links
  rw [h]
  refine ⟨rfl, ?_⟩
  simp

end Line

/-! ## What passes over a channel -/

/-- What has been told to a call. -/
inductive Mail where
  | empty
  /-- The answer at a position among the frames of the other end. -/
  | answer (position : Nat) (response : Response)
  /-- There will be no answer. -/
  | lost
  deriving DecidableEq, Repr

inductive Ending where
  | returned (result : Except CallError Response)
  /-- The caller gave the call up. -/
  | abandoned

structure Call where
  request : Request
  /-- The connection that the call was given. -/
  connection : Option Nat := none
  /-- The number that it took there. -/
  number : Option UInt64 := none
  /-- The position of its frame among those that were written there. -/
  place : Option Nat := none
  /-- Whether all of the frame has gone out. -/
  flushed : Bool := false
  mail : Mail := .empty
  ending : Option Ending := none

/-- A request that the server has read, and what the handler answered to it. -/
structure Job where
  frame : Frame Request
  answer : Option Response := none
  deriving DecidableEq, Repr

structure Connection where
  /-- The calls that took a number, in order. -/
  callers : List Nat := []
  /-- The frames that were written to the other end, with the call that wrote each. -/
  sent : List (Nat × Frame Request) := []
  jobs : List Job := []
  /-- The frames that the other end wrote. -/
  replies : List (Frame Response) := []
  /-- The call, if any, that got each of the frames that have arrived. -/
  receivers : List (Option Nat) := []
  /-- Whether the other end wrote anything that was no answer of the handler. -/
  foreign : Bool := false
  deriving DecidableEq, Repr

structure Traffic where
  line : Line
  connections : List Connection := []
  /-- The call that dials; nobody else asks for a connection meanwhile. -/
  dialing : Option Nat := none
  /-- Whether the channel was closed and its connection has yet to be ended. -/
  closing : Bool := false
  calls : List Call := []

inductive Move where
  | begin (request : Request)
  /-- A call asks for a connection: it gets the one in use, sets out to dial, or is refused. -/
  | connect (call : Nat)
  /-- The dial of a call ends, with an error or without. -/
  | dialed (call : Nat) (error : Option DialError)
  /-- A call takes a number, and waits under it. -/
  | register (call : Nat)
  /-- A call hands its frame to the connection, unless it is too large. -/
  | put (call : Nat)
  | flush (call : Nat)
  /-- The connection fails while a call writes. -/
  | breakOff (call : Nat) (fault : IoFault)
  /-- A call returns with what it was told. -/
  | receive (call : Nat)
  /-- The caller gives up, at any time. -/
  | abandon (call : Nat)
  /-- The next frame of the other end arrives. -/
  | arrive (connection : Nat)
  /-- The reader of a connection comes to its end. -/
  | lose (connection : Nat)
  | shut
  | tearDown
  /-- The server reads the next request. -/
  | serve (connection : Nat)
  /-- The handler has answered a request, and the answer is written unless it is too large. -/
  | answer (connection : Nat) (job : Nat) (response : Response)
  /-- The other end writes a frame of its own making. -/
  | inject (connection : Nat) (frame : Frame Response)

namespace Traffic

def start (target : String) : Traffic := { line := { target } }

def open? (s : Traffic) (t : Nat) : Option Call := s.calls[t]?.filter fun call => call.ending.isNone

/-- A call comes to its end. If it has a number, nobody waits under that any more. -/
def conclude (s : Traffic) (t : Nat) (call : Call) (ending : Ending) : Traffic :=
  { s with
    line :=
      match call.connection, call.number with
      | some n, some number =>
        match s.line.links[n]? with
        | some link => s.line.setLink n (link.abandon number)
        | none => s.line
      | _, _ => s.line
    calls := s.calls.set t { call with ending := some ending } }

/-- Calls are told that there will be no answer. -/
def tellLost (s : Traffic) (line : Line) (losers : List Ticket) : Traffic :=
  { s with
    line
    calls := s.calls.mapIdx fun t call => if ⟨t⟩ ∈ losers then { call with mail := .lost } else call }

/-! ## The moves of a call -/

def connect (s : Traffic) (t : Nat) : Option Traffic := do
  let call ← s.open? t
  if call.connection.isSome ∨ s.dialing.isSome then none
  else
    match s.line.ready with
    | .refused error => some (s.conclude t call (.returned (.error (.dial error))))
    | .connected _ => some { s with calls := s.calls.set t { call with connection := some s.line.ended.length } }
    | .mustDial => some { s with dialing := some t }

def dialed (s : Traffic) (t : Nat) (error : Option DialError) : Option Traffic := do
  let call ← s.open? t
  if call.connection.isSome ∨ s.dialing ≠ some t then none
  else
    match error with
    | some error => some { s.conclude t call (.returned (.error (.dial error))) with dialing := none }
    | none =>
      some { s with
        line := s.line.opened
        connections := s.connections ++ [{}]
        dialing := none
        calls := s.calls.set t { call with connection := some s.connections.length } }

def register (s : Traffic) (t : Nat) : Option Traffic := do
  let call ← s.open? t
  let n ← call.connection
  let link ← s.line.links[n]?
  let c ← s.connections[n]?
  if call.number.isSome then none
  else
    let (number, waits, link) := link.register ⟨t⟩
    let ending := if waits then none else some (.returned (.error (.lost call.request.method)))
    some { s with
      line := s.line.setLink n link
      connections := s.connections.set n { c with callers := c.callers ++ [t] }
      calls := s.calls.set t { call with number := some number, ending } }

def put (s : Traffic) (t : Nat) : Option Traffic := do
  let call ← s.open? t
  let n ← call.connection
  let number ← call.number
  let c ← s.connections[n]?
  if call.place.isSome then none
  else
    match Wire.send (Wire.frame Wire.request) ⟨number, call.request⟩ with
    | .error error => some (s.conclude t call (.returned (.error (.codec error))))
    | .ok _ =>
      some { s with
        connections := s.connections.set n { c with sent := c.sent ++ [(t, ⟨number, call.request⟩)] }
        calls := s.calls.set t { call with place := some c.sent.length } }

def flush (s : Traffic) (t : Nat) : Option Traffic := do
  let call ← s.open? t
  if call.place.isNone then none else some { s with calls := s.calls.set t { call with flushed := true } }

def breakOff (s : Traffic) (t : Nat) (fault : IoFault) : Option Traffic := do
  let call ← s.open? t
  if call.number.isNone ∨ call.flushed then none
  else some (s.conclude t call (.returned (.error (.codec (.io fault)))))

def receive (s : Traffic) (t : Nat) : Option Traffic := do
  let call ← s.open? t
  if call.flushed then
    match call.mail with
    | .empty => none
    | .lost => some (s.conclude t call (.returned (heard call.request.method none)))
    | .answer _ response => some (s.conclude t call (.returned (heard call.request.method (some response))))
  else none

def abandon (s : Traffic) (t : Nat) : Option Traffic := do
  let call ← s.open? t
  some { s.conclude t call .abandoned with dialing := s.dialing.filter (· ≠ t) }

/-! ## The moves of a connection and of the channel -/

def arrive (s : Traffic) (n : Nat) : Option Traffic := do
  let link ← s.line.links[n]?
  let c ← s.connections[n]?
  let frame ← c.replies[c.receivers.length]?
  if link.alive then
    let (receiver, after) := link.deliver frame
    let s := { s with line := s.line.setLink n after }
    match receiver with
    | none => some { s with connections := s.connections.set n { c with receivers := c.receivers ++ [none] } }
    | some (ticket, response) => do
      let call ← s.calls[ticket.number]?
      some { s with
        connections := s.connections.set n { c with receivers := c.receivers ++ [some ticket.number] }
        calls := s.calls.set ticket.number { call with mail := .answer c.receivers.length response } }
  else none

def lose (s : Traffic) (n : Nat) : Option Traffic := do
  let link ← s.line.links[n]?
  some (s.tellLost (s.line.setLink n link.lose.2) link.lose.1)

def shut (s : Traffic) : Option Traffic :=
  if s.line.closed then none else some { s with line := s.line.shut, closing := true }

def tearDown (s : Traffic) : Option Traffic :=
  if s.closing ∧ s.dialing.isNone then
    some { s.tellLost s.line.tearDown.2 s.line.tearDown.1 with closing := false }
  else none

/-! ## The moves of the other end -/

def serve (s : Traffic) (n : Nat) : Option Traffic := do
  let c ← s.connections[n]?
  let next ← c.sent[c.jobs.length]?
  some { s with connections := s.connections.set n { c with jobs := c.jobs ++ [{ frame := next.2 }] } }

def answer (s : Traffic) (n k : Nat) (response : Response) : Option Traffic := do
  let c ← s.connections[n]?
  let job ← c.jobs[k]?
  if job.answer.isSome then none
  else
    let reply : Frame Response := ⟨job.frame.callId, response⟩
    let written := match Wire.send (Wire.frame Wire.response) reply with
      | .ok _ => [reply]
      | .error _ => []
    some { s with
      connections := s.connections.set n
        { c with jobs := c.jobs.set k { job with answer := some response }, replies := c.replies ++ written } }

def inject (s : Traffic) (n : Nat) (frame : Frame Response) : Option Traffic := do
  let c ← s.connections[n]?
  some { s with connections := s.connections.set n { c with replies := c.replies ++ [frame], foreign := true } }

def step? (s : Traffic) : Move → Option Traffic
  | .begin request => some { s with calls := s.calls ++ [{ request }] }
  | .connect t => s.connect t
  | .dialed t error => s.dialed t error
  | .register t => s.register t
  | .put t => s.put t
  | .flush t => s.flush t
  | .breakOff t fault => s.breakOff t fault
  | .receive t => s.receive t
  | .abandon t => s.abandon t
  | .arrive n => s.arrive n
  | .lose n => s.lose n
  | .shut => s.shut
  | .tearDown => s.tearDown
  | .serve n => s.serve n
  | .answer n k response => s.answer n k response
  | .inject n frame => s.inject n frame

def run : List Move → Traffic → Option Traffic
  | [], s => some s
  | move :: moves, s => (s.step? move).bind (run moves)

end Traffic

end PeerMesh.Tcp
