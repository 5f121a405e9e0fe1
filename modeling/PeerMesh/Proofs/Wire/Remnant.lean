import PeerMesh.Proofs.Wire.Receiver

/-!
# What a stream yields

Every stream is a number of whole frames, and then a remnant that no frame stands in front of.

* `Remnant` : what a remnant can be, and the fault that it shows if it shows one;
* `exists_remnant`, `eq_of_frames_append_eq` : a stream is whole frames and a remnant, in one way only;
* `receive_frames_append`, `Remnant.receive` : what each of the two yields;
* `receive_octets` : what a stream yields follows from its octets, one item for each frame and one for the remnant at most.
  No payload has a say in what is read after it.
-/

namespace PeerMesh.Wire

/-- Octets that no whole frame stands in front of, and the faults that they show at the end of a stream. A length with
nothing behind it shows none. -/
inductive Remnant : Bytes → List IoFault → Prop where
  | empty : Remnant [] []
  | cutLength {part : Bytes} (hpos : 0 < part.length) (hlt : part.length < 4) : Remnant part [.cutFrame]
  | bareLength {n : Nat} (hpos : 0 < n) (hmax : n ≤ maxPayload) : Remnant (toBE 4 n) []
  | cutPayload {n : Nat} {part : Bytes} (hmax : n ≤ maxPayload) (hpos : 0 < part.length) (hlt : part.length < n) :
      Remnant (toBE 4 n ++ part) [.cutFrame]
  | tooBig {head rest : Bytes} (hhead : head.length = 4) (hmax : maxPayload < ofBE head) :
      Remnant (head ++ rest) [.frameTooBig]

theorem length_framed (payload : Bytes) : (framed payload).length = 4 + payload.length := by
  rw [framed, List.length_append, length_toBE]

theorem remnant_or_frame (bytes : Bytes) :
    (∃ faults, Remnant bytes faults) ∨
      ∃ payload rest, payload.length ≤ maxPayload ∧ bytes = framed payload ++ rest := by
  rcases Nat.lt_or_ge bytes.length 4 with hshort | hlong
  · refine Or.inl ?_
    rcases Nat.eq_zero_or_pos bytes.length with hnil | hpos
    · rw [List.length_eq_zero_iff.1 hnil]
      exact ⟨_, .empty⟩
    · exact ⟨_, .cutLength hpos hshort⟩
  · obtain ⟨head, body, hhead, rfl⟩ : ∃ head body, head.length = 4 ∧ bytes = head ++ body :=
      ⟨_, _, List.length_take_of_le hlong, (List.take_append_drop 4 bytes).symm⟩
    rcases Nat.lt_or_ge maxPayload (ofBE head) with hbig | hmax
    · exact Or.inl ⟨_, .tooBig hhead hbig⟩
    · have hlength : toBE 4 (ofBE head) = head := hhead ▸ toBE_ofBE head
      rcases Nat.lt_or_ge body.length (ofBE head) with hcut | hwhole
      · refine Or.inl ?_
        rw [← hlength]
        cases body with
        | nil =>
          rw [List.append_nil]
          exact ⟨_, .bareLength hcut hmax⟩
        | cons b body => exact ⟨_, .cutPayload hmax (Nat.succ_pos _) hcut⟩
      · have hpayload : (body.take (ofBE head)).length = ofBE head := List.length_take_of_le hwhole
        refine Or.inr ⟨body.take (ofBE head), body.drop (ofBE head), by omega, ?_⟩
        rw [framed, hpayload, hlength, List.append_assoc, List.take_append_drop]

theorem exists_remnant (bytes : Bytes) :
    ∃ (before : List Bytes) (rest : Bytes) (faults : List IoFault),
      (∀ p ∈ before, p.length ≤ maxPayload) ∧ bytes = before.flatMap framed ++ rest ∧ Remnant rest faults := by
  induction hn : bytes.length using Nat.strongRecOn generalizing bytes with
  | _ n ih =>
    rcases remnant_or_frame bytes with ⟨faults, hrest⟩ | ⟨payload, rest, hmax, rfl⟩
    · exact ⟨[], bytes, faults, by simp, rfl, hrest⟩
    · rw [List.length_append, length_framed] at hn
      obtain ⟨before, rest, faults, hbefore, rfl, hrest⟩ := ih rest.length (by omega) rest rfl
      refine ⟨payload :: before, rest, faults, ?_, ?_, hrest⟩
      · intro p hp
        rcases List.mem_cons.1 hp with rfl | hp
        · exact hmax
        · exact hbefore p hp
      · rw [List.flatMap_cons, List.append_assoc]

section

variable {α : Type} {f : Format α}

/-! ## Whole frames -/

theorem receive_single (bytes : Bytes) :
    receive f [bytes] = (Receiver.drain ⟨none, bytes⟩).1.map (unpack f) ++
      match (Receiver.drain ⟨none, bytes⟩).2 with
      | none => [.error (.io .frameTooBig)]
      | some r => r.finish.toList.map fun fault => .error (.io fault) := rfl

theorem receive_framed_append {payload : Bytes} (h : payload.length ≤ maxPayload) (rest : Bytes) :
    receive f [framed payload ++ rest] = unpack f payload :: receive f [rest] := by
  rw [receive_single, receive_single, Receiver.drain_of_payload (Receiver.offer_framed h rest)]
  rfl

theorem receive_frames_append {before : List Bytes} (h : ∀ p ∈ before, p.length ≤ maxPayload) (rest : Bytes) :
    receive f [before.flatMap framed ++ rest] = before.map (unpack f) ++ receive f [rest] := by
  induction before with
  | nil => rfl
  | cons p before ih =>
    rw [List.flatMap_cons, List.append_assoc, receive_framed_append (h p List.mem_cons_self),
      ih fun q hq => h q (List.mem_cons_of_mem p hq)]
    rfl

/-! ## Remnants -/

theorem receive_of_wait {bytes : Bytes} {r : Receiver} (h : Receiver.offer ⟨none, bytes⟩ = .wait r) :
    receive f [bytes] = r.finish.toList.map fun fault => .error (.io fault) := by
  rw [receive_single, Receiver.drain_of_wait h]
  rfl

theorem receive_of_tooBig {bytes : Bytes} (h : Receiver.offer ⟨none, bytes⟩ = .tooBig) :
    receive f [bytes] = [.error (.io .frameTooBig)] := by
  rw [receive_single, Receiver.drain_of_tooBig h]
  rfl

theorem split?_of_lt {n : Nat} {bytes : Bytes} (h : bytes.length < n) : split? n bytes = none := by
  rw [split?_eq, if_neg (Nat.not_le.2 h)]

theorem offer_of_short {bytes : Bytes} (h : bytes.length < 4) :
    Receiver.offer ⟨none, bytes⟩ = .wait ⟨none, bytes⟩ := by
  unfold Receiver.offer
  simp only [split?_of_lt h]

theorem offer_of_head {head : Bytes} (h : head.length = 4) (body : Bytes) :
    Receiver.offer ⟨none, head ++ body⟩ =
      if maxPayload < ofBE head then .tooBig else Receiver.offerPayload (ofBE head) body := by
  have hsplit : split? 4 (head ++ body) = some (head, body) := h ▸ split?_length head body
  unfold Receiver.offer
  simp only [hsplit]

theorem offer_of_cut {n : Nat} (hmax : n ≤ maxPayload) {part : Bytes} (hlt : part.length < n) :
    Receiver.offer ⟨none, toBE 4 n ++ part⟩ = .wait ⟨some n, part⟩ := by
  have hread : ofBE (toBE 4 n) = n := ofBE_toBE_of_lt (Nat.lt_of_le_of_lt hmax maxPayload_lt)
  rw [offer_of_head (length_toBE 4 n), hread, if_neg (Nat.not_lt.2 hmax)]
  unfold Receiver.offerPayload
  rw [split?_of_lt hlt]

theorem finish_of_pos {awaited : Option Nat} {part : Bytes} (h : 0 < part.length) :
    Receiver.finish ⟨awaited, part⟩ = some .cutFrame := by
  cases part with
  | nil => cases h
  | cons b part => rfl

theorem Remnant.offer {rest : Bytes} {faults : List IoFault} (h : Remnant rest faults) :
    (∃ r, Receiver.offer ⟨none, rest⟩ = .wait r ∧ r.finish.toList = faults) ∨
      Receiver.offer ⟨none, rest⟩ = .tooBig ∧ faults = [.frameTooBig] := by
  cases h with
  | empty => exact Or.inl ⟨{}, offer_empty, rfl⟩
  | cutLength hpos hlt => exact Or.inl ⟨_, offer_of_short hlt, by rw [finish_of_pos hpos]; rfl⟩
  | @bareLength n hpos hmax =>
    have hoffer : Receiver.offer ⟨none, toBE 4 n ++ []⟩ = .wait ⟨some n, []⟩ := offer_of_cut hmax hpos
    rw [List.append_nil] at hoffer
    exact Or.inl ⟨_, hoffer, rfl⟩
  | cutPayload hmax hpos hlt => exact Or.inl ⟨_, offer_of_cut hmax hlt, by rw [finish_of_pos hpos]; rfl⟩
  | tooBig hhead hmax => exact Or.inr ⟨by rw [offer_of_head hhead, if_pos hmax], rfl⟩

theorem Remnant.receive {rest : Bytes} {faults : List IoFault} (h : Remnant rest faults) :
    Wire.receive f [rest] = faults.map fun fault => .error (.io fault) := by
  rcases h.offer with ⟨r, hwait, hfinish⟩ | ⟨htooBig, rfl⟩
  · rw [receive_of_wait hwait, hfinish]
  · rw [receive_of_tooBig htooBig]
    rfl

theorem Remnant.ne_framed_append {rest : Bytes} {faults : List IoFault} (h : Remnant rest faults) {payload : Bytes}
    (hmax : payload.length ≤ maxPayload) (more : Bytes) : rest ≠ framed payload ++ more := by
  rintro rfl
  have hoffer := Receiver.offer_framed hmax more
  rcases h.offer with ⟨r, hwait, -⟩ | ⟨htooBig, -⟩
  · cases hoffer.symm.trans hwait
  · cases hoffer.symm.trans htooBig

/-- A stream is whole frames and a remnant in one way only. -/
theorem eq_of_frames_append_eq {before before' : List Bytes} {rest rest' : Bytes} {faults faults' : List IoFault}
    (h : ∀ p ∈ before, p.length ≤ maxPayload) (hrest : Remnant rest faults)
    (h' : ∀ p ∈ before', p.length ≤ maxPayload) (hrest' : Remnant rest' faults')
    (heq : before.flatMap framed ++ rest = before'.flatMap framed ++ rest') : before = before' ∧ rest = rest' := by
  induction before generalizing before' with
  | nil =>
    cases before' with
    | nil => exact ⟨rfl, heq⟩
    | cons q before' =>
      rw [List.flatMap_cons, List.append_assoc] at heq
      exact absurd heq (hrest.ne_framed_append (h' q List.mem_cons_self) _)
  | cons p before ih =>
    have hp : p.length ≤ maxPayload := h p List.mem_cons_self
    rw [List.flatMap_cons, List.append_assoc] at heq
    cases before' with
    | nil => exact absurd heq.symm (hrest'.ne_framed_append hp _)
    | cons q before' =>
      have hq : q.length ≤ maxPayload := h' q List.mem_cons_self
      rw [List.flatMap_cons, List.append_assoc] at heq
      have hoffer := Receiver.offer_framed hp (before.flatMap framed ++ rest)
      rw [heq, Receiver.offer_framed hq] at hoffer
      injection hoffer with hpayload hleft
      injection hleft with _ hleft
      obtain ⟨rfl, rfl⟩ := ih (fun x hx => h x (List.mem_cons_of_mem p hx))
        (fun x hx => h' x (List.mem_cons_of_mem q hx)) hleft.symm
      exact ⟨by rw [hpayload], rfl⟩

/-! ## Streams -/

theorem unpack_of_error {payload : Bytes} {fault : DecodeFault} (h : f.decode.run payload = .error fault) :
    unpack f payload = .error (.malformed fault) := by
  rw [unpack, h]

theorem receive_of_flatten {chunks : List Bytes} {before : List Bytes} {rest : Bytes}
    (h : ∀ p ∈ before, p.length ≤ maxPayload) (hchunks : chunks.flatten = before.flatMap framed ++ rest) :
    receive f chunks = before.map (unpack f) ++ receive f [rest] := by
  rw [receive_flatten, hchunks, receive_frames_append h]

end

theorem Remnant.length_faults {rest : Bytes} {faults : List IoFault} (h : Remnant rest faults) :
    4 * faults.length ≤ rest.length + 3 := by
  cases h with
  | empty => simp
  | cutLength hpos => simp only [List.length_singleton]; omega
  | bareLength => simp
  | cutPayload =>
    simp only [List.length_append, length_toBE, List.length_singleton]
    omega
  | tooBig hhead => simp only [List.length_append, List.length_singleton, hhead]; omega

theorem length_flatMap_framed (before : List Bytes) : 4 * before.length ≤ (before.flatMap framed).length := by
  induction before with
  | nil => simp
  | cons p before ih =>
    rw [List.flatMap_cons, List.length_append, length_framed, List.length_cons]
    omega

/-- What a stream yields follows from its octets, in whatever chunks they arrive. A payload that cannot be read yields
one error, and then comes what the octets behind it yield. A length that is too great yields one error, and then
nothing comes. A stream is whole frames and a remnant, and yields an item for each frame and one at most for the
remnant; so it comes to an end. -/
theorem receive_octets {α : Type} (f : Format α) (chunks : List Bytes) :
    (∀ others : List Bytes, others.flatten = chunks.flatten → receive f others = receive f chunks) ∧
    (∀ (before : List Bytes) (payload rest : Bytes) (fault : DecodeFault), (∀ p ∈ before, p.length ≤ maxPayload) →
      payload.length ≤ maxPayload → f.decode.run payload = .error fault →
      chunks.flatten = before.flatMap framed ++ (framed payload ++ rest) →
      receive f chunks = before.map (unpack f) ++ .error (.malformed fault) :: receive f [rest]) ∧
    (∀ (before : List Bytes) (head rest : Bytes), (∀ p ∈ before, p.length ≤ maxPayload) →
      head.length = 4 → maxPayload < ofBE head → chunks.flatten = before.flatMap framed ++ (head ++ rest) →
      receive f chunks = before.map (unpack f) ++ [.error (.io .frameTooBig)]) ∧
    (∃ (before : List Bytes) (rest : Bytes) (faults : List IoFault), (∀ p ∈ before, p.length ≤ maxPayload) ∧
      chunks.flatten = before.flatMap framed ++ rest ∧ Remnant rest faults ∧
      receive f chunks = before.map (unpack f) ++ faults.map fun fault => .error (.io fault)) ∧
    4 * (receive f chunks).length ≤ chunks.flatten.length + 3 := by
  obtain ⟨before, rest, faults, hbefore, hchunks, hrest⟩ := exists_remnant chunks.flatten
  have hyield : receive f chunks = before.map (unpack f) ++ faults.map fun fault => .error (.io fault) := by
    rw [receive_of_flatten hbefore hchunks, hrest.receive]
  refine ⟨?_, ?_, ?_, ⟨before, rest, faults, hbefore, hchunks, hrest, hyield⟩, ?_⟩
  · intro others h
    rw [receive_flatten, h, ← receive_flatten]
  · intro before payload rest fault hbefore hpayload hfault h
    rw [receive_of_flatten hbefore h, receive_framed_append hpayload, unpack_of_error hfault]
  · intro before head rest hbefore hhead hmax h
    rw [receive_of_flatten hbefore h, (Remnant.tooBig hhead hmax).receive]
    rfl
  · have hframes : 4 * before.length ≤ (before.flatMap framed).length := length_flatMap_framed before
    have hfaults : 4 * faults.length ≤ rest.length + 3 := hrest.length_faults
    rw [hyield, hchunks, List.length_append, List.length_append, List.length_map, List.length_map]
    omega

/-- Two frames with one between them that cannot be read, and then a length that is too great, in chunks that are cut
inside the lengths and inside the payloads. -/
theorem receive_spoilt :
    receive (frame request)
        [[0, 0], [0, 12, 1, 0, 0, 0, 0], [0, 0, 0, 4, 0, 0, 0, 0, 0, 0, 3, 9], [9, 9, 0, 0, 0, 12, 2, 0, 0, 0, 0, 0],
          [0, 0, 4, 0, 0, 0, 255], [255, 255, 255, 0]] =
      [.ok ⟨1, .rtt⟩, .error (.malformed .cutShort), .ok ⟨2, .rtt⟩, .error (.io .frameTooBig)] := by
  have hspoilt := (receive_octets (frame request)
    [[0, 0], [0, 12, 1, 0, 0, 0, 0], [0, 0, 0, 4, 0, 0, 0, 0, 0, 0, 3, 9], [9, 9, 0, 0, 0, 12, 2, 0, 0, 0, 0, 0],
      [0, 0, 4, 0, 0, 0, 255], [255, 255, 255, 0]]).2.1
    [[1, 0, 0, 0, 0, 0, 0, 0, 4, 0, 0, 0]] [9, 9, 9] [0, 0, 0, 12, 2, 0, 0, 0, 0, 0, 0, 0, 4, 0, 0, 0, 255, 255, 255, 255, 0]
    .cutShort (by decide) (by decide) rfl (by decide)
  have htooBig := (receive_octets (frame request)
    [[0, 0, 0, 12, 2, 0, 0, 0, 0, 0, 0, 0, 4, 0, 0, 0, 255, 255, 255, 255, 0]]).2.2.1
    [[2, 0, 0, 0, 0, 0, 0, 0, 4, 0, 0, 0]] [255, 255, 255, 255] [0] (by decide) rfl (by decide) (by decide)
  rw [hspoilt, htooBig]
  rfl

end PeerMesh.Wire
