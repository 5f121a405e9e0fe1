import PeerMesh.Proofs.Bytes
import PeerMesh.Wire.Framing

/-!
# What a receiver makes of the octets that arrive

* `Receiver.offer_feed` : more octets do not change what a receiver had to offer;
* `Receiver.drain_feed_of_some`, `receive_flatten` : so what a stream yields does not depend on the chunks in which it
  arrives;
* `Receiver.offer_framed`, `Receiver.eq_framed_of_offer` : what is handed out first is what was framed;
* `Receiver.drain_framed` : payloads that were framed are handed out as they were, and nothing is left.
-/

namespace PeerMesh.Wire

theorem split?_append {n : Nat} {bs head rest : Bytes} (h : split? n bs = some (head, rest)) (cs : Bytes) :
    split? n (bs ++ cs) = some (head, rest ++ cs) := by
  rw [split?_eq] at h ⊢
  split at h
  · rename_i hn
    cases h
    rw [if_pos (by rw [List.length_append]; omega), List.take_append_of_le_length hn,
      List.drop_append_of_le_length hn]
  · cases h

theorem split?_length (head rest : Bytes) : split? head.length (head ++ rest) = some (head, rest) := by
  rw [split?_eq, if_pos (by rw [List.length_append]; omega), List.take_left, List.drop_left]

theorem eq_append_of_split? {n : Nat} {bs head rest : Bytes} (h : split? n bs = some (head, rest)) :
    head.length = n ∧ bs = head ++ rest := by
  rw [split?_eq] at h
  split at h
  · rename_i hn
    cases h
    exact ⟨List.length_take_of_le hn, (List.take_append_drop n bs).symm⟩
  · cases h

theorem maxPayload_lt : maxPayload < 2 ^ 32 := by decide

theorem ofBE_toBE_of_lt {n : Nat} (h : n < 2 ^ 32) : ofBE (toBE 4 n) = n := by
  rw [ofBE_toBE, Nat.mod_eq_of_lt (by omega)]

def Offer.feed (cs : Bytes) : Offer → Offer
  | wait r => (r.feed cs).offer
  | payload bs r => payload bs (r.feed cs)
  | tooBig => tooBig

namespace Receiver

theorem feed_nil (r : Receiver) : r.feed [] = r := by
  unfold feed
  rw [List.append_nil]

theorem feed_feed (r : Receiver) (bs cs : Bytes) : (r.feed bs).feed cs = r.feed (bs ++ cs) := by
  unfold feed
  rw [List.append_assoc]

/-! ## One offer -/

theorem offerPayload_feed (n : Nat) (buffer cs : Bytes) :
    offerPayload n (buffer ++ cs) = (offerPayload n buffer).feed cs := by
  cases h : split? n buffer with
  | none =>
    have hwait : offerPayload n buffer = .wait ⟨some n, buffer⟩ := by
      unfold offerPayload
      rw [h]
    rw [hwait]
    rfl
  | some parts =>
    unfold offerPayload
    rw [h, split?_append h cs]
    rfl

theorem offer_feed (r : Receiver) (cs : Bytes) : (r.feed cs).offer = r.offer.feed cs := by
  obtain ⟨awaited, buffer⟩ := r
  cases awaited with
  | some n => exact offerPayload_feed n buffer cs
  | none =>
    cases h : split? 4 buffer with
    | none =>
      have hwait : offer ⟨none, buffer⟩ = .wait ⟨none, buffer⟩ := by
        unfold offer
        rw [h]
      rw [hwait]
      rfl
    | some parts =>
      unfold offer feed
      rw [h, split?_append h cs]
      show (if maxPayload < ofBE parts.1 then _ else _) = Offer.feed cs (if maxPayload < ofBE parts.1 then _ else _)
      split
      · rfl
      · exact offerPayload_feed _ _ cs

theorem offer_of_wait {r s : Receiver} (h : r.offer = .wait s) : s.offer = .wait s := by
  have key : ∀ n buffer, offerPayload n buffer = .wait s → s.offer = .wait s := by
    intro n buffer hp
    have hs := hp
    unfold offerPayload at hs
    split at hs
    · cases hs
      exact hp
    · cases hs
  unfold offer at h
  split at h
  · exact key _ _ h
  · rename_i hnone
    split at h
    · rename_i hsplit
      cases h
      unfold offer
      simp only [hnone, hsplit]
    · split at h
      · cases h
      · exact key _ _ h

/-! ## All offers -/

theorem drain_eq (r : Receiver) :
    r.drain =
      match r.offer with
      | .wait s => ([], some s)
      | .tooBig => ([], none)
      | .payload bs s => (bs :: s.drain.1, s.drain.2) := by
  rw [drain]
  split
  · rename_i h
    rw [h]
  · rename_i h
    rw [h]
  · rename_i h
    rw [h]

theorem drain_of_wait {r s : Receiver} (h : r.offer = .wait s) : r.drain = ([], some s) := by
  rw [drain_eq, h]

theorem drain_of_tooBig {r : Receiver} (h : r.offer = .tooBig) : r.drain = ([], none) := by
  rw [drain_eq, h]

theorem drain_of_payload {r s : Receiver} {bs : Bytes} (h : r.offer = .payload bs s) :
    r.drain = (bs :: s.drain.1, s.drain.2) := by
  rw [drain_eq, h]

theorem drain_induction {motive : Receiver → Prop} (wait : ∀ r s, r.offer = .wait s → motive r)
    (tooBig : ∀ r, r.offer = .tooBig → motive r)
    (payload : ∀ r bs s, r.offer = .payload bs s → motive s → motive r) (r : Receiver) : motive r := by
  induction hw : r.weight using Nat.strongRecOn generalizing r with
  | _ w ih =>
    cases h : r.offer with
    | wait s => exact wait r s h
    | tooBig => exact tooBig r h
    | payload bs s =>
      have hlt : s.weight < w := hw ▸ weight_offer h
      exact payload r bs s h (ih s.weight hlt s rfl)

theorem offer_of_drain {r s : Receiver} (h : r.drain.2 = some s) : s.offer = .wait s := by
  induction r using drain_induction with
  | wait r t hr =>
    rw [drain_of_wait hr] at h
    cases h
    exact offer_of_wait hr
  | tooBig r hr =>
    rw [drain_of_tooBig hr] at h
    cases h
  | payload r bs t hr ih =>
    rw [drain_of_payload hr] at h
    exact ih h

theorem drain_feed_of_none {r : Receiver} (h : r.drain.2 = none) (cs : Bytes) : (r.feed cs).drain = r.drain := by
  induction r using drain_induction with
  | wait r s hr =>
    rw [drain_of_wait hr] at h
    cases h
  | tooBig r hr =>
    have hfeed : (r.feed cs).offer = .tooBig := by
      rw [offer_feed, hr]
      rfl
    rw [drain_of_tooBig hr, drain_of_tooBig hfeed]
  | payload r bs s hr ih =>
    have hfeed : (r.feed cs).offer = .payload bs (s.feed cs) := by
      rw [offer_feed, hr]
      rfl
    rw [drain_of_payload hr] at h
    rw [drain_of_payload hr, drain_of_payload hfeed, ih h]

theorem drain_feed_of_some {r s : Receiver} (h : r.drain.2 = some s) (cs : Bytes) :
    (r.feed cs).drain = (r.drain.1 ++ (s.feed cs).drain.1, (s.feed cs).drain.2) := by
  induction r using drain_induction with
  | wait r t hr =>
    have hoffer : (r.feed cs).offer = (t.feed cs).offer := by
      rw [offer_feed, offer_feed, hr, offer_of_wait hr]
    rw [drain_of_wait hr] at h ⊢
    cases h
    rw [drain_eq, hoffer, ← drain_eq]
    rfl
  | tooBig r hr =>
    rw [drain_of_tooBig hr] at h
    cases h
  | payload r bs t hr ih =>
    have hfeed : (r.feed cs).offer = .payload bs (t.feed cs) := by
      rw [offer_feed, hr]
      rfl
    rw [drain_of_payload hr] at h ⊢
    rw [drain_of_payload hfeed, ih h]
    rfl

end Receiver

open Receiver

/-! ## Streams -/

section

variable {α : Type} {f : Format α}

theorem receiveFrom_cons (r : Receiver) (chunk : Bytes) (chunks : List Bytes) :
    receiveFrom f r (chunk :: chunks) =
      (r.feed chunk).drain.1.map (unpack f) ++
        match (r.feed chunk).drain.2 with
        | none => [.error (.io .frameTooBig)]
        | some s => receiveFrom f s chunks := rfl

theorem receiveFrom_flatten {r : Receiver} (hr : r.offer = .wait r) (chunks : List Bytes) :
    receiveFrom f r chunks = receiveFrom f r [chunks.flatten] := by
  induction chunks generalizing r with
  | nil =>
    rw [receiveFrom_cons, List.flatten_nil, feed_nil, drain_of_wait hr]
    rfl
  | cons chunk chunks ih =>
    rw [receiveFrom_cons, receiveFrom_cons, List.flatten_cons, ← feed_feed]
    cases hlast : (r.feed chunk).drain.2 with
    | none => rw [drain_feed_of_none hlast, hlast]
    | some s =>
      rw [drain_feed_of_some hlast, List.map_append, List.append_assoc]
      congr 1
      exact (ih (offer_of_drain hlast)).trans (receiveFrom_cons s chunks.flatten [])

theorem offer_empty : Receiver.offer {} = .wait {} := rfl

/-- What a stream yields does not depend on the chunks in which it arrives. -/
theorem receive_flatten (chunks : List Bytes) : receive f chunks = receive f [chunks.flatten] :=
  receiveFrom_flatten offer_empty chunks

end

/-! ## Payloads that were framed -/

namespace Receiver

theorem offer_framed {payload : Bytes} (h : payload.length ≤ maxPayload) (rest : Bytes) :
    offer ⟨none, framed payload ++ rest⟩ = .payload payload ⟨none, rest⟩ := by
  have hhead : split? 4 (framed payload ++ rest) = some (toBE 4 payload.length, payload ++ rest) := by
    unfold framed
    rw [List.append_assoc]
    exact split?_length (toBE 4 payload.length) (payload ++ rest)
  have hsize : ofBE (toBE 4 payload.length) = payload.length := ofBE_toBE_of_lt (Nat.lt_of_le_of_lt h maxPayload_lt)
  unfold offer
  simp only [hhead]
  rw [hsize, if_neg (by omega)]
  unfold offerPayload
  rw [split?_length]

/-- What is handed out first was framed, and what was behind it is left. -/
theorem eq_framed_of_offer {bs payload : Bytes} {r : Receiver} (h : offer ⟨none, bs⟩ = .payload payload r) :
    payload.length ≤ maxPayload ∧ bs = framed payload ++ r.buffer ∧ r = ⟨none, r.buffer⟩ := by
  unfold offer at h
  simp only at h
  split at h
  · cases h
  · rename_i head rest hhead
    split at h
    · cases h
    · rename_i hsize
      unfold offerPayload at h
      split at h
      · cases h
      · rename_i found left hpayload
        cases h
        obtain ⟨hfour, rfl⟩ := eq_append_of_split? hhead
        obtain ⟨hlength, rfl⟩ := eq_append_of_split? hpayload
        refine ⟨by omega, ?_, rfl⟩
        rw [framed, hlength, ← hfour, toBE_ofBE, List.append_assoc]

theorem drain_framed {payloads : List Bytes} (h : ∀ p ∈ payloads, p.length ≤ maxPayload) :
    drain ⟨none, payloads.flatMap framed⟩ = (payloads, some {}) := by
  induction payloads with
  | nil => exact drain_of_wait offer_empty
  | cons p ps ih =>
    rw [List.flatMap_cons, drain_of_payload (offer_framed (h p List.mem_cons_self) _),
      ih fun q hq => h q (List.mem_cons_of_mem p hq)]

end Receiver

end PeerMesh.Wire
