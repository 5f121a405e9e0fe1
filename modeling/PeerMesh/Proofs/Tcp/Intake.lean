import PeerMesh.Proofs.Wire.Receiver
import PeerMesh.Tcp.Intake

/-!
# Reading up to the first fault

* `IsLeadingRun` : the messages at the front of a stream, up to the first frame that is none;
* `Intake.messages_eq` : what is read of a stream is what stands in front of its first fault;
* `isLeadingRun_iff` : and that is the leading run, in whatever chunks the stream arrives.
-/

namespace PeerMesh.Tcp

open Wire Receiver

variable {α : Type} {f : Format α} {bytes : Bytes} {found : List α}

/-! ## The leading run of a stream -/

/-- The messages are those of the frames at the front of the stream, up to the first that is too long, is not whole, or
holds none. -/
def IsLeadingRun (f : Format α) (bytes : Bytes) (messages : List α) : Prop :=
  ∃ (payloads : List Bytes) (rest : Bytes), bytes = payloads.flatMap framed ++ rest ∧
    (∀ p ∈ payloads, p.length ≤ maxPayload) ∧ payloads.map (unpack f) = messages.map .ok ∧
    ∀ (p tail : Bytes) (m : α), p.length ≤ maxPayload → rest = framed p ++ tail → unpack f p ≠ .ok m

theorem leading_append {ε : Type} (xs ys : List (Except ε α)) :
    leading (xs ++ ys) = leading xs ++ if (leading xs).length = xs.length then leading ys else [] := by
  induction xs with
  | nil => rfl
  | cons x xs ih =>
    cases x with
    | error e => rfl
    | ok a =>
      show a :: leading (xs ++ ys) = a :: leading xs ++ _
      rw [ih]
      simp [leading]

theorem leading_eq_nil {rest : Bytes}
    (h : ∀ (p tail : Bytes) (m : α), p.length ≤ maxPayload → rest = framed p ++ tail → unpack f p ≠ .ok m) :
    leading ((drain ⟨none, rest⟩).1.map (unpack f)) = [] := by
  cases hoffer : offer ⟨none, rest⟩ with
  | wait r => rw [drain_of_wait hoffer]; rfl
  | tooBig => rw [drain_of_tooBig hoffer]; rfl
  | payload p r =>
    obtain ⟨hlength, hrest, -⟩ := eq_framed_of_offer hoffer
    rw [drain_of_payload hoffer, List.map_cons]
    cases hunpack : unpack f p with
    | ok m => exact absurd hunpack (h p r.buffer m hlength hrest)
    | error e => rfl

theorem IsLeadingRun.eq (h : IsLeadingRun f bytes found) :
    leading ((drain ⟨none, bytes⟩).1.map (unpack f)) = found := by
  obtain ⟨payloads, rest, rfl, hlength, hmessages, hrest⟩ := h
  induction payloads generalizing found with
  | nil =>
    cases found with
    | nil => exact leading_eq_nil hrest
    | cons m ms => cases hmessages
  | cons p ps ih =>
    cases found with
    | nil => cases hmessages
    | cons m ms =>
      obtain ⟨hm, hms⟩ := List.cons.inj hmessages
      rw [List.flatMap_cons, List.append_assoc, drain_of_payload (offer_framed (hlength p List.mem_cons_self) _),
        List.map_cons, hm]
      exact congrArg (m :: ·) (ih (fun q hq => hlength q (List.mem_cons_of_mem p hq)) hms)

theorem isLeadingRun_drain (bytes : Bytes) :
    IsLeadingRun f bytes (leading ((drain ⟨none, bytes⟩).1.map (unpack f))) := by
  have hnone : ∀ {bytes : Bytes},
      (∀ (p tail : Bytes) (m : α), p.length ≤ maxPayload → bytes = framed p ++ tail → unpack f p ≠ .ok m) →
      IsLeadingRun f bytes (leading ((drain ⟨none, bytes⟩).1.map (unpack f))) := by
    intro bytes h
    rw [leading_eq_nil h]
    exact ⟨[], bytes, rfl, by simp, rfl, h⟩
  suffices h : ∀ r : Receiver, r.awaited = none →
      IsLeadingRun f r.buffer (leading (r.drain.1.map (unpack f))) from h ⟨none, bytes⟩ rfl
  intro r hr
  induction r using drain_induction with
  | wait r s hoffer =>
    obtain ⟨awaited, buffer⟩ := r
    cases hr
    refine hnone fun p tail m hlength hrest => ?_
    rw [show buffer = framed p ++ tail from hrest, offer_framed hlength] at hoffer
    cases hoffer
  | tooBig r hoffer =>
    obtain ⟨awaited, buffer⟩ := r
    cases hr
    refine hnone fun p tail m hlength hrest => ?_
    rw [show buffer = framed p ++ tail from hrest, offer_framed hlength] at hoffer
    cases hoffer
  | payload r p s hoffer ih =>
    obtain ⟨awaited, buffer⟩ := r
    cases hr
    obtain ⟨hlength, hbuffer, hs⟩ := eq_framed_of_offer hoffer
    cases hunpack : unpack f p with
    | error e =>
      refine hnone fun q tail m hq hrest hok => ?_
      rw [show buffer = framed q ++ tail from hrest, offer_framed hq] at hoffer
      cases hoffer
      cases hunpack.symm.trans hok
    | ok m =>
      obtain ⟨payloads, rest, heq, hlengths, hmessages, hrest⟩ := ih (by rw [hs])
      refine ⟨p :: payloads, rest, ?_, ?_, ?_, hrest⟩
      · rw [List.flatMap_cons, List.append_assoc, ← heq]
        exact hbuffer
      · intro q hq
        rcases List.mem_cons.1 hq with rfl | hq
        · exact hlength
        · exact hlengths q hq
      · rw [drain_of_payload hoffer, List.map_cons, List.map_cons, hunpack, hmessages]
        rfl

/-! ## What an intake reads -/

namespace Intake

theorem messagesFrom_of_unsound {i : Intake} (h : i.sound = false) (chunks : List Bytes) :
    messagesFrom f i chunks = [] := by
  induction chunks with
  | nil => rfl
  | cons chunk chunks ih =>
    rw [messagesFrom, feed, h]
    exact ih

theorem messagesFrom_eq {i : Intake} (h : i.sound = true) (chunks : List Bytes) :
    messagesFrom f i chunks = leading (receiveFrom f i.receiver chunks) := by
  induction chunks generalizing i with
  | nil =>
    unfold messagesFrom receiveFrom finish
    split <;> rfl
  | cons chunk chunks ih =>
    rw [messagesFrom, feed, if_pos h, receiveFrom_cons, leading_append, List.length_map]
    show leading _ ++ messagesFrom f { receiver := _, sound := _ } chunks = _
    congr 1
    split
    · rename_i hall
      cases hlast : (i.receiver.feed chunk).drain.2 with
      | none => exact messagesFrom_of_unsound rfl chunks
      | some r =>
        refine ih ?_
        simp [hall]
    · rename_i hsome
      refine messagesFrom_of_unsound ?_ chunks
      simp [hsome]

/-- What is read of a stream is what stands in front of its first fault. -/
theorem messages_eq (chunks : List Bytes) : messages f chunks = leading (receive f chunks) :=
  messagesFrom_eq (i := {}) rfl chunks

theorem messages_eq_drain (chunks : List Bytes) :
    messages f chunks = leading ((drain ⟨none, chunks.flatten⟩).1.map (unpack f)) := by
  rw [messages_eq, receive_flatten, ← messages_eq]
  exact List.append_nil _

end Intake

/-- What is read of a stream is its leading run, in whatever chunks it arrives. -/
theorem isLeadingRun_iff {chunks : List Bytes} :
    IsLeadingRun f chunks.flatten found ↔ Intake.messages f chunks = found := by
  rw [Intake.messages_eq_drain]
  constructor
  · exact IsLeadingRun.eq
  · rintro rfl
    exact isLeadingRun_drain chunks.flatten

end PeerMesh.Tcp
