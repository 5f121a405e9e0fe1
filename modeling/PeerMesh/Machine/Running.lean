import PeerMesh.Machine.Calling
import PeerMesh.Membership.Serving
import PeerMesh.Membership.Spreading
import PeerMesh.Text.Blank

/-!
# A running node

The outer layer around activities: each effect is carried out on this machine.

* `Machine.Running` : a node with its store, its pool and its channels;
* `Machine.Running.perform`, `Machine.Running.exec` : one effect, and a whole activity;
* `Machine.Running.serve` : accepts connections and answers every request that comes.
-/

namespace PeerMesh.Machine

open Std.Async

/-- A node with its store, its pool and its channels. -/
structure Running where
  profile : Profile
  store : IO.Ref Store
  pool : IO.Ref Pool
  /-- Wakes those who wait for a slot when the pool has changed. -/
  sleepers : IO.Ref (List (IO.Promise Unit))
  cables : IO.Ref (List (Nat × Cable))
  /-- The announcements that have yet to be made. -/
  outbox : IO.Ref (List Notice)
  numbers : IO.Ref Nat

namespace Running

def new (profile : Profile) : BaseIO Running := do
  pure
    { profile
      store := ← IO.mkRef {}
      pool := ← IO.mkRef {}
      sleepers := ← IO.mkRef []
      cables := ← IO.mkRef []
      outbox := ← IO.mkRef []
      numbers := ← IO.mkRef 0 }

/-- A number that was never given out before. -/
def fresh (r : Running) : BaseIO Nat := r.numbers.modifyGet fun n => (n, n + 1)

/-- Waits for the client of a slot, or for the turn to dial it. -/
def claim (r : Running) (slot : Nat) (ticket : Ticket) : Async (Option Client) := do
  r.pool.modify fun p => p.claim slot ticket
  let mut verdict : Option (Option Client) := none
  while verdict.isNone do
    let woken ← IO.Promise.new
    r.sleepers.modify (woken :: ·)
    verdict := (← r.pool.get).verdict slot ticket
    if verdict.isNone then let _ ← await woken.result?
  pure verdict.join

def dial (r : Running) (target : String) (security : Security) (mode : DialMode)
    (limit : Option Duration) : Async (Except DialError Channel) := do
  if Text.allBlank target then pure (.error (.invalidTarget target))
  else
    let number ← r.fresh
    let cable ← Cable.new target security
    r.cables.modify ((number, cable) :: ·)
    let connected ← match mode with
      | .lazy => pure (some (.ok ()))
      | .blocking => within limit cable.connected
    pure (match connected with
      | some result => result.map fun _ => ⟨number, target⟩
      | none => .error (.timeout target (limit.getD .zero)))

/-- Carries out a change of the pool, and wakes those who wait for one. -/
def changePool (r : Running) (change : Pool → Pool) : Async Pool := do
  let before ← r.pool.modifyGet fun p => (p, change p)
  for sleeper in ← r.sleepers.modifyGet fun s => (s, []) do sleeper.resolve ()
  pure before

def call (r : Running) (channel : Channel) (request : Request) (limit : Duration) :
    Async (Except CallError Response) := do
  match (← r.cables.get).lookup channel.number with
  | some cable => cable.call request limit
  | none => pure (.error (.lost request.method))

def close (r : Running) (channel : Channel) : Async (Except DialError Unit) := do
  match (← r.cables.get).lookup channel.number with
  | some cable =>
    r.cables.modify fun cs => cs.filter fun c => c.1 ≠ channel.number
    cable.close
  | none => pure (.error (.closed channel.target))

def date : Async Int64 := do
  let now ← Std.Time.Timestamp.now
  pure (Int64.ofInt now.toSecondsSinceUnixEpoch.val)

/-- Carries out one effect for the holder of a ticket. -/
def perform (r : Running) (ticket : Ticket) : (e : Effect) → Async e.Result
  | .store change => (r.store.modifyGet fun s => (s, change s) : BaseIO Store)
  | .pool change => r.changePool change
  | .claim slot => r.claim slot ticket
  | .dial target security mode limit => r.dial target security mode limit
  | .call channel request limit => r.call channel request limit
  | .close channel => r.close channel
  | .elapsed => (IO.monoNanosNow : BaseIO Nat)
  | .date => date
  | .draw => (IO.rand 0 4294967295 : BaseIO Nat)
  | .observe _ => pure ()
  | .announce notices => r.outbox.modify (· ++ notices)

def execAs {α : Type} (r : Running) (ticket : Ticket) : Activity α → Async α
  | .done a => pure a
  | .perform e next => do
    let result ← r.perform ticket e
    execAs r ticket (next result)

def exec {α : Type} (r : Running) (activity : Activity α) : Async α := do
  r.execAs ⟨← r.fresh⟩ activity

/-- Answers a request, and makes the announcements that come of it in the background. -/
def answer (r : Running) (request : Request) : Async Response := do
  let response ← r.exec (r.profile.serve request)
  for notice in ← r.outbox.modifyGet fun ns => (ns, []) do background (r.exec (r.profile.announce notice))
  pure response

/-- Answers every request of a connection, until it ends or holds what is none. -/
def attend (r : Running) (socket : TCP.Socket.Client) : Async Unit := do
  let mut intake : Tcp.Intake := {}
  while intake.sound do
    match ← attempt (socket.recv? 65536) with
    | .ok (some chunk) =>
      let (requests, rest) := intake.feed (Wire.frame Wire.request) chunk.data.toList
      intake := rest
      for request in requests do
        let bytes := Tcp.Intake.answer request (← r.answer request.body)
        let _ ← attempt (socket.send ⟨bytes.toArray⟩)
    | _ => intake := { intake with sound := false }
  let _ ← attempt socket.shutdown

def serve (r : Running) (server : TCP.Socket.Server) : Async Unit := do
  while true do
    match ← attempt server.accept with
    | .ok socket => background (r.attend socket)
    | .error _ => sleep (.ofNat 100)

end Running

end PeerMesh.Machine
