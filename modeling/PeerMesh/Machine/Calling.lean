import PeerMesh.Machine.Surroundings
import PeerMesh.Tcp.Intake
import PeerMesh.Tcp.Line
import Std.Async.Timer

/-!
# Calls over sockets

The outer layer around `Tcp.Line`: a socket for the connection in use, a task that reads answers from it,
and a promise for every call that waits.

* `Machine.within` : the result of an action, or nothing when it takes too long;
* `Machine.Cable` : a line with its socket;
* `Machine.Cable.connected`, `Machine.Cable.call`, `Machine.Cable.close`.
-/

namespace PeerMesh.Machine

open Std.Async

/-- The result of an action, or nothing when it takes longer than the limit. -/
def within {α : Type} (limit : Option Duration) (action : Async α) : Async (Option α) := do
  match limit with
  | none => some <$> action
  | some limit =>
    let late : Async (Option α) := do
      sleep (.ofNat (limit.wholeMillis.nanos / 1000000))
      pure none
    Async.race (some <$> action) late

/-- A line with its socket. -/
structure Cable where
  security : Security
  line : IO.Ref Tcp.Line
  socket : IO.Ref (Option TCP.Socket.Client)
  /-- The end of the dial that is under way, for which other callers wait. -/
  dialing : IO.Ref (Option (IO.Promise Unit))
  /-- What will be told to the callers that wait, by their tickets. -/
  promises : IO.Ref (List (Ticket × IO.Promise (Option Response)))
  tickets : IO.Ref Nat

namespace Cable

def new (target : String) (security : Security) : BaseIO Cable := do
  pure
    { security
      line := ← IO.mkRef { target }
      socket := ← IO.mkRef none
      dialing := ← IO.mkRef none
      promises := ← IO.mkRef []
      tickets := ← IO.mkRef 0 }

def tell (c : Cable) (ticket : Ticket) (answer : Option Response) : BaseIO Unit := do
  let told ← c.promises.modifyGet fun ps => ps.partition fun p => p.1 = ticket
  for (_, promise) in told do promise.resolve answer

/-- Hands out the answers that come, until the stream ends or holds what is none. -/
def readAnswers (c : Cable) (socket : TCP.Socket.Client) : Async Unit := do
  let mut intake : Tcp.Intake := {}
  while intake.sound do
    match ← attempt (socket.recv? 65536) with
    | .ok (some chunk) =>
      let (answers, rest) := intake.feed (Wire.frame Wire.response) chunk.data.toList
      intake := rest
      for answer in answers do
        let waiter ← c.line.modifyGet fun l =>
          (l.current.bind fun link => (link.deliver answer).1, l.onLink fun link => (link.deliver answer).2)
        match waiter with
        | some (ticket, response) => c.tell ticket (some response)
        | none => pure ()
    | _ => intake := { intake with sound := false }
  let losers ← c.line.modifyGet fun l =>
    ((l.current.map fun link => link.lose.1).getD [], l.onLink fun link => link.lose.2)
  for ticket in losers do c.tell ticket none

/-- Makes a connection for a line that has none. -/
def open? (c : Cable) : Async (Except DialError Unit) := do
  let target := (← c.line.get).target
  match ← connect target with
  | .error fault => pure (.error (.connect target fault))
  | .ok socket =>
    if c.security.isSecure then
      match Tcp.ServerName.ofTarget? target with
      | none => pure (.error (.invalidTarget target))
      | some _ => pure (.error (.tls target (.other "no TLS on this machine")))
    else
      c.line.modify Tcp.Line.opened
      c.socket.set (some socket)
      background (c.readAnswers socket)
      pure (.ok ())

/-- Finds the connection in use alive, or makes a new one. Who comes while a dial is under way waits for
its end first. -/
def connected (c : Cable) : Async (Except DialError Unit) := do
  let mut result : Option (Except DialError Unit) := none
  while result.isNone do
    let mine ← IO.Promise.new
    match ← c.dialing.modifyGet fun other => (other, some (other.getD mine)) with
    | some other => let _ ← await other.result?
    | none =>
      result ← match (← c.line.get).ready with
        | .refused error => pure (some (.error error))
        | .connected _ => pure (some (.ok ()))
        | .mustDial => some <$> c.open?
      c.dialing.set none
      mine.resolve ()
  pure (result.getD (.ok ()))

/-- Registers a call; tells its number and what will be told to it. -/
def register (c : Cable) : BaseIO (Option (UInt64 × IO.Promise (Option Response))) := do
  let ticket : Ticket := ⟨← c.tickets.modifyGet fun n => (n, n + 1)⟩
  let promise ← IO.Promise.new
  c.promises.modify ((ticket, promise) :: ·)
  c.line.modifyGet fun l =>
    match l.current with
    | none => (none, l)
    | some link =>
      let (number, waits, link) := link.register ticket
      (if waits then some (number, promise) else none, { l with current := some link })

def call (c : Cable) (request : Request) (limit : Duration) : Async (Except CallError Response) := do
  let method := request.method
  let begun : IO.Ref (Option UInt64) ← IO.mkRef none
  let result ← within (some limit) do
    match ← c.connected with
    | .error error => pure (.error (.dial error))
    | .ok () =>
      match ← c.register, ← c.socket.get with
      | some (number, promise), some socket =>
        begun.set (some number)
        match Wire.send (Wire.frame Wire.request) ⟨number, request⟩ with
        | .error error => pure (.error (.codec error))
        | .ok frame =>
          match ← attempt (socket.send ⟨frame.toArray⟩) with
          | .error fault => pure (.error (.codec (.io fault)))
          | .ok () => do
            let answer ← await promise.result?
            pure (heard method answer.join)
      | _, _ => pure (.error (.lost method))
  if let some number ← begun.get then c.line.modify fun l => l.onLink fun link => link.abandon number
  pure (result.getD (.error (.deadline method limit)))

def close (c : Cable) : Async (Except DialError Unit) := do
  let (result, losers) ← c.line.modifyGet fun l =>
    let (result, losers, line) := l.close
    ((result, losers), line)
  for ticket in losers do c.tell ticket none
  if let some socket ← c.socket.modifyGet fun s => (s, none) then
    let _ ← attempt socket.shutdown
  pure result

end Cable

end PeerMesh.Machine
