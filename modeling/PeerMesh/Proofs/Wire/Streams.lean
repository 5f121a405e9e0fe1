import PeerMesh.Proofs.Wire.Kinds
import PeerMesh.Proofs.Wire.Receiver

/-!
# Messages over a stream

* `sendOnto`, `sendAll` : messages sent one after another onto a stream;
* `Sendable` : the messages that are not too large;
* `receive_sendAll` : what is written for messages, and that it is read as those of them that are sendable, in
  whatever chunks it arrives.
-/

namespace PeerMesh.Wire

variable {α : Type}

/-- Sends a message onto a stream. One that is too large leaves the stream as it is. -/
def sendOnto (f : Format α) (stream : Bytes) (x : α) : Except CodecError Unit × Bytes :=
  match send f x with
  | .ok bs => (.ok (), stream ++ bs)
  | .error e => (.error e, stream)

/-- Sends messages onto a stream, one after another whatever became of those before. -/
def sendAll (f : Format α) : List α → Bytes → List (Except CodecError Unit) × Bytes
  | [], stream => ([], stream)
  | x :: xs, stream =>
    let (result, stream) := sendOnto f stream x
    let (results, stream) := sendAll f xs stream
    (result :: results, stream)

def Sendable (f : Format α) (x : α) : Prop := (f.encode x).length ≤ maxPayload

instance (f : Format α) (x : α) : Decidable (Sendable f x) := inferInstanceAs (Decidable (_ ≤ _))

def verdict (f : Format α) (x : α) : Except CodecError Unit :=
  if Sendable f x then .ok () else .error (.tooLarge (f.encode x).length)

def frames (f : Format α) (xs : List α) : Bytes :=
  ((xs.filter (Sendable f ·)).map f.encode).flatMap framed

section

variable {f : Format α}

theorem frames_cons (x : α) (xs : List α) : frames f (x :: xs) = frames f [x] ++ frames f xs := by
  unfold frames
  rw [← List.flatMap_append, ← List.map_append, ← List.filter_append]
  rfl

theorem sendOnto_eq (stream : Bytes) (x : α) : sendOnto f stream x = (verdict f x, stream ++ frames f [x]) := by
  unfold sendOnto send pack verdict frames
  by_cases h : Sendable f x
  · have hle : ¬ maxPayload < (f.encode x).length := Nat.not_lt.2 h
    have hfilter : [x].filter (Sendable f ·) = [x] := by simp [h]
    rw [if_neg hle, if_pos h, hfilter]
    show (_, stream ++ framed (f.encode x)) = (_, stream ++ (framed (f.encode x) ++ []))
    rw [List.append_nil]
  · have hlt : maxPayload < (f.encode x).length := Nat.not_le.1 h
    have hfilter : [x].filter (Sendable f ·) = [] := by simp [h]
    rw [if_pos hlt, if_neg h, hfilter]
    show (_, stream) = (_, stream ++ [])
    rw [List.append_nil]

theorem sendAll_eq (xs : List α) (stream : Bytes) :
    sendAll f xs stream = (xs.map (verdict f), stream ++ frames f xs) := by
  induction xs generalizing stream with
  | nil => exact congrArg (Prod.mk []) (List.append_nil stream).symm
  | cons x xs ih =>
    rw [sendAll, sendOnto_eq]
    show (_ :: (sendAll f xs _).1, (sendAll f xs _).2) = _
    rw [ih, frames_cons x xs, List.append_assoc]
    rfl

/-- The frames of messages, in whatever chunks they arrive, are read as the messages. -/
theorem receive_frames (hf : f.Lawful) {xs : List α} {chunks : List Bytes} (h : chunks.flatten = frames f xs) :
    receive f chunks = (xs.filter (Sendable f ·)).map .ok := by
  have hsendable : ∀ x ∈ xs.filter (Sendable f ·), (f.encode x).length ≤ maxPayload := by
    intro x hx
    exact of_decide_eq_true (List.mem_filter.1 hx).2
  have hdrain : (Receiver.feed {} (frames f xs)).drain = ((xs.filter (Sendable f ·)).map f.encode, some {}) := by
    apply Receiver.drain_framed
    intro payload hp
    obtain ⟨x, hx, rfl⟩ := List.mem_map.1 hp
    exact hsendable x hx
  have hunpack : ∀ x ∈ xs.filter (Sendable f ·), unpack f (f.encode x) = .ok x := by
    intro x hx
    have hle : (f.encode x).length ≤ maxPayload := hsendable x hx
    have hlt : (f.encode x).length < 2 ^ 64 := Nat.lt_of_le_of_lt hle (by decide)
    exact hf.unpack_of_prefix hlt (List.prefix_refl _)
  calc receive f chunks
      = receiveFrom f {} [frames f xs] := by rw [receive_flatten, h]; rfl
    _ = ((xs.filter (Sendable f ·)).map f.encode).map (unpack f) ++ receiveFrom f {} [] := by
        rw [receiveFrom_cons, hdrain]
    _ = (xs.filter (Sendable f ·)).map (unpack f ∘ f.encode) := by
        rw [List.map_map]
        exact List.append_nil _
    _ = (xs.filter (Sendable f ·)).map .ok := List.map_congr_left hunpack

end

/-- Messages sent one after another leave on the stream the frames of those that are not too large, in order, and
whoever sends one that is too large is told so. However the stream is cut into chunks, those messages are what is
received, in order, and then the stream ends. -/
theorem receive_sendAll (k : Kind) (xs : List k.Value) :
    sendAll k.format xs [] = (xs.map (verdict k.format), frames k.format xs) ∧
    ∀ chunks : List Bytes, chunks.flatten = (sendAll k.format xs []).2 →
      receive k.format chunks = (xs.filter (Sendable k.format ·)).map .ok := by
  have hsent : sendAll k.format xs [] = (xs.map (verdict k.format), frames k.format xs) := sendAll_eq xs []
  refine ⟨hsent, ?_⟩
  intro chunks h
  rw [hsent] at h
  exact receive_frames k.lawful h

/-- Two frames that are cut inside a length and inside a number. -/
theorem receive_cut_frames :
    receive (Kind.format (.frame .request))
        [[0, 0, 0, 12, 1, 0, 0], [0, 0, 0, 0, 0, 4, 0, 0, 0, 0, 0], [0, 12, 2, 0, 0, 0, 0, 0, 0, 0, 4, 0, 0, 0]] =
      ([.ok ⟨1, .rtt⟩, .ok ⟨2, .rtt⟩] : List (Except CodecError (Frame Request))) :=
  (receive_sendAll (.frame .request) ([⟨1, .rtt⟩, ⟨2, .rtt⟩] : List (Frame Request))).2 _ (by decide)

end PeerMesh.Wire
