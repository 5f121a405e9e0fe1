import PeerMesh.Wire.Framing

/-!
# Intakes: reading a connection up to the first fault

Both sides of a connection read messages until the stream ends or holds anything that is no message;
what follows is not read any more.

* `Intake.feed` : the messages that a chunk completes;
* `Intake.messages` : all messages of a stream that arrives in chunks;
* `Intake.answer` : what is written for one request.
-/

namespace PeerMesh.Tcp

open Wire

structure Intake where
  receiver : Receiver := {}
  /-- Whether nothing has come yet but whole messages and the beginning of one. -/
  sound : Bool := true
  deriving Inhabited

def leading {ε α : Type} : List (Except ε α) → List α
  | .ok a :: rest => a :: leading rest
  | _ => []

namespace Intake

def feed {α : Type} (f : Format α) (i : Intake) (chunk : Bytes) : List α × Intake :=
  if i.sound then
    let (payloads, last) := (i.receiver.feed chunk).drain
    let found := leading (payloads.map (unpack f))
    (found, { receiver := last.getD {}, sound := last.isSome && found.length = payloads.length })
  else ([], i)

def messagesFrom {α : Type} (f : Format α) (i : Intake) : List Bytes → List α
  | [] => []
  | chunk :: chunks =>
    let (found, i) := i.feed f chunk
    found ++ messagesFrom f i chunks

def messages {α : Type} (f : Format α) (chunks : List Bytes) : List α := messagesFrom f {} chunks

/-- What is written for one request: a frame with its number, or nothing if the answer is too large. -/
def answer (request : Frame Request) (response : Response) : Bytes :=
  match send (frame Wire.response) ⟨request.callId, response⟩ with
  | .ok bytes => bytes
  | .error _ => []

end Intake

end PeerMesh.Tcp
