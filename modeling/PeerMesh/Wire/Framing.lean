import PeerMesh.Fault
import PeerMesh.Wire.Message

/-!
# Messages on a stream

On a stream every message is a frame: the length of its payload in 32 bits, most significant octet
first, and the payload.

* `maxPayload` : the greatest length of a payload, the same for sender and receiver;
* `CodecError` : why a message was not sent or not received;
* `pack`, `send` : the payload of a message, and its whole frame;
* `unpack` : the message of a payload (octets after it are ignored);
* `Receiver` : what has arrived and not been handed out, and whether a length has been read; `feed`
  takes a chunk in, `drain` hands out every whole payload, `finish` judges the end of the stream;
* `receive f chunks` : everything that a stream arriving in `chunks` yields.
-/

namespace PeerMesh.Wire

def maxPayload : Nat := 4194304

/-- Why a message was not sent or not received. -/
inductive CodecError where
  | io (fault : IoFault)
  | malformed (fault : DecodeFault)
  /-- The payload would have so many octets, more than `maxPayload`. -/
  | tooLarge (size : Nat)
  deriving DecidableEq, Repr, Inhabited

namespace CodecError

def message : CodecError → String
  | io fault => "io error: " ++ fault.message
  | malformed fault => "serialization error: " ++ fault.message
  | tooLarge size =>
    "frame of " ++ toString size ++ " bytes exceeds the maximum of " ++ toString maxPayload ++ " bytes"

/-- The message, and then that of what lies behind the error. -/
def chain (e : CodecError) : List String :=
  e.message :: match e with
    | io fault => [fault.message]
    | malformed fault => [fault.message]
    | tooLarge _ => []

end CodecError

/-! ## Sending -/

def pack {α : Type} (f : Format α) (x : α) : Except CodecError Bytes :=
  let payload := f.encode x
  let size := payload.length
  if maxPayload < size then .error (.tooLarge size) else .ok payload

def framed (payload : Bytes) : Bytes := toBE 4 payload.length ++ payload

def send {α : Type} (f : Format α) (x : α) : Except CodecError Bytes := framed <$> pack f x

/-! ## Receiving -/

def unpack {α : Type} (f : Format α) (payload : Bytes) : Except CodecError α :=
  match f.decode.run payload with
  | .ok (x, _) => .ok x
  | .error fault => .error (.malformed fault)

structure Receiver where
  /-- The length of the next payload, once its four octets have been taken. -/
  awaited : Option Nat := none
  /-- What has arrived and not been taken. -/
  buffer : Bytes := []
  deriving Inhabited

/-- What a receiver has to offer. -/
inductive Offer where
  /-- Nothing yet. -/
  | wait (r : Receiver)
  | payload (bs : Bytes) (r : Receiver)
  /-- The next payload is too long; nothing will follow. -/
  | tooBig

namespace Receiver

def feed (r : Receiver) (chunk : Bytes) : Receiver := { r with buffer := r.buffer ++ chunk }

/-- Hands out a payload of `n` octets, if it is there. -/
def offerPayload (n : Nat) (buffer : Bytes) : Offer :=
  match split? n buffer with
  | none => .wait ⟨some n, buffer⟩
  | some (bs, rest) => .payload bs ⟨none, rest⟩

def offer (r : Receiver) : Offer :=
  match r.awaited with
  | some n => offerPayload n r.buffer
  | none =>
    match split? 4 r.buffer with
    | none => .wait r
    | some (head, rest) => if maxPayload < ofBE head then .tooBig else offerPayload (ofBE head) rest

/-- How much a receiver can still hand out: it grows smaller with every payload. -/
def weight (r : Receiver) : Nat := 2 * r.buffer.length + if r.awaited.isSome then 1 else 0

theorem weight_offer {r s : Receiver} {bs : Bytes} (h : r.offer = .payload bs s) :
    s.weight < r.weight := by
  have key : ∀ n buffer, offerPayload n buffer = .payload bs s → s.weight ≤ 2 * buffer.length := by
    intro n buffer h
    simp only [offerPayload, split?_eq] at h
    split at h
    · cases h
    · rename_i e
      split at e
      · cases e
        cases h
        have := List.length_drop (i := n) (l := buffer)
        simp only [weight, Option.isSome_none, Bool.false_eq_true, if_false]
        omega
      · cases e
  unfold offer at h
  split at h
  · rename_i n hn
    have := key n _ h
    simp only [weight, hn, Option.isSome_some, if_true] at this ⊢
    omega
  · rename_i hn
    split at h
    · cases h
    · rename_i head rest e
      split at h
      · cases h
      · have := key _ _ h
        rw [split?_eq] at e
        split at e
        · cases e
          have := List.length_drop (i := 4) (l := r.buffer)
          simp only [weight, hn, Option.isSome_none, Bool.false_eq_true, if_false] at *
          omega
        · cases e

/-- Every whole payload that has arrived, and the receiver after them (none after one too long). -/
def drain (r : Receiver) : List Bytes × Option Receiver :=
  match _h : r.offer with
  | .wait r => ([], some r)
  | .tooBig => ([], none)
  | .payload bs s =>
    let (more, last) := s.drain
    (bs :: more, last)
termination_by r.weight
decreasing_by exact weight_offer _h

/-- What the end of the stream shows: octets left over are part of a frame. -/
def finish (r : Receiver) : Option IoFault := if r.buffer.isEmpty then none else some .cutFrame

end Receiver

/-- What the receiver `r` yields when the rest of the stream arrives in the given chunks. -/
def receiveFrom {α : Type} (f : Format α) (r : Receiver) : List Bytes → List (Except CodecError α)
  | [] => r.finish.toList.map fun fault => .error (.io fault)
  | chunk :: chunks =>
    let (payloads, last) := (r.feed chunk).drain
    payloads.map (unpack f) ++
      match last with
      | none => [.error (.io .frameTooBig)]
      | some r => receiveFrom f r chunks

/-- What a stream yields that arrives in the given chunks: messages, and faults in between. -/
def receive {α : Type} (f : Format α) (chunks : List Bytes) : List (Except CodecError α) :=
  receiveFrom f {} chunks

end PeerMesh.Wire
