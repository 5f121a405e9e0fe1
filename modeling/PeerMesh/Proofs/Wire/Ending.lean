import PeerMesh.Proofs.Wire.Remnant

/-!
# What the end of a stream shows

* `EndsClean` : a stream comes to its end and shows no fault of its own;
* `WholeFrames`, `EndsInLength` : octets that are whole frames, and those that are whole frames and one more length;
* `faultsOfCut` : what a stream shows that breaks off inside a frame;
* `endsClean_means_whole_iff` : a clean end means whole frames except where the stream ends in a length. A frame that
  breaks off anywhere else shows a fault.
-/

namespace PeerMesh.Wire

/-- The stream comes to its end, and no fault of the stream is among what it yields. -/
def EndsClean {α : Type} (f : Format α) (chunks : List Bytes) : Prop :=
  ∀ fault, Except.error (.io fault) ∉ receive f chunks

/-- Lengths of 32 bits, each with a payload of that length behind it. -/
def WholeFrames (bytes : Bytes) : Prop :=
  ∃ payloads : List Bytes, (∀ p ∈ payloads, p.length < 2 ^ 32) ∧ bytes = payloads.flatMap framed

/-- Frames, and then the length of one more, with nothing behind it. -/
def EndsInLength (bytes : Bytes) : Prop :=
  ∃ (before : List Bytes) (n : Nat), (∀ p ∈ before, p.length ≤ maxPayload) ∧ 0 < n ∧ n ≤ maxPayload ∧
    bytes = before.flatMap framed ++ toBE 4 n

/-- What a stream shows that breaks off after `k` octets of a frame whose payload has `size` octets. -/
def faultsOfCut (size k : Nat) : List IoFault :=
  if k < 4 then [.cutFrame] else if maxPayload < size then [.frameTooBig] else if k = 4 then [] else [.cutFrame]

theorem faultsOfCut_eq_nil_iff {size k : Nat} : faultsOfCut size k = [] ↔ k = 4 ∧ size ≤ maxPayload := by
  unfold faultsOfCut
  split
  · simp only [List.cons_ne_nil, false_iff]
    omega
  · split
    · simp only [List.cons_ne_nil, false_iff]
      omega
    · split <;> simp <;> omega

theorem remnant_take_framed {payload : Bytes} (hsize : payload.length < 2 ^ 32) {k : Nat} (hpos : 0 < k)
    (hlt : k < (framed payload).length) :
    Remnant ((framed payload).take k) (faultsOfCut payload.length k) := by
  have hlength : (toBE 4 payload.length).length = 4 := length_toBE 4 _
  have hread : ofBE (toBE 4 payload.length) = payload.length := ofBE_toBE_of_lt hsize
  rw [length_framed] at hlt
  unfold faultsOfCut
  split
  · have htake : ((framed payload).take k).length = k := by
      rw [List.length_take, length_framed]
      omega
    exact .cutLength (by omega) (by omega)
  · have htake : (framed payload).take k = toBE 4 payload.length ++ payload.take (k - 4) := by
      rw [framed, List.take_append, hlength, List.take_of_length_le (by omega)]
    rw [htake]
    split
    · exact .tooBig hlength (by omega)
    · split
      · subst k
        rw [Nat.sub_self, List.take_zero, List.append_nil]
        exact .bareLength (by omega) (by omega)
      · have hpart : (payload.take (k - 4)).length = k - 4 := List.length_take_of_le (by omega)
        exact .cutPayload (by omega) (by omega) (by omega)

section

variable {α : Type} {f : Format α} {chunks : List Bytes}

theorem unpack_ne_io (payload : Bytes) (fault : IoFault) : unpack f payload ≠ .error (.io fault) := by
  intro h
  unfold unpack at h
  split at h
  · cases h
  · cases h

theorem endsClean_iff {before : List Bytes} {rest : Bytes} {faults : List IoFault}
    (hbefore : ∀ p ∈ before, p.length ≤ maxPayload) (hchunks : chunks.flatten = before.flatMap framed ++ rest)
    (hrest : Remnant rest faults) : EndsClean f chunks ↔ faults = [] := by
  unfold EndsClean
  rw [receive_of_flatten hbefore hchunks, hrest.receive]
  constructor
  · intro h
    cases faults with
    | nil => rfl
    | cons fault faults =>
      exact absurd (List.mem_append_right _ (List.mem_map_of_mem List.mem_cons_self)) (h fault)
  · rintro rfl fault hmem
    rw [List.map_nil, List.append_nil] at hmem
    obtain ⟨payload, -, hpayload⟩ := List.mem_map.1 hmem
    exact unpack_ne_io payload fault hpayload

theorem EndsClean.le_maxPayload (h : EndsClean f chunks) {before : List Bytes} (hsize : ∀ p ∈ before, p.length < 2 ^ 32)
    {rest : Bytes} (hchunks : chunks.flatten = before.flatMap framed ++ rest) :
    ∀ p ∈ before, p.length ≤ maxPayload := by
  unfold EndsClean at h
  rw [receive_flatten, hchunks] at h
  clear hchunks
  induction before with
  | nil => exact fun p hp => nomatch hp
  | cons p before ih =>
    rw [List.flatMap_cons, List.append_assoc] at h
    have hlt : p.length < 2 ^ 32 := hsize p List.mem_cons_self
    have hp : p.length ≤ maxPayload := by
      refine Nat.not_lt.1 fun hlarge => h .frameTooBig ?_
      have hremnant : Remnant (toBE 4 p.length ++ (p ++ (before.flatMap framed ++ rest))) [.frameTooBig] :=
        .tooBig (length_toBE 4 _) (by rwa [ofBE_toBE_of_lt hlt])
      rw [framed, List.append_assoc, hremnant.receive]
      exact List.mem_cons_self
    rw [receive_framed_append hp] at h
    have hbefore := ih (fun q hq => hsize q (List.mem_cons_of_mem p hq))
      fun fault hmem => h fault (List.mem_cons_of_mem _ hmem)
    exact List.forall_mem_cons.2 ⟨hp, hbefore⟩

theorem EndsInLength.endsClean (h : EndsInLength chunks.flatten) : EndsClean f chunks := by
  obtain ⟨before, n, hbefore, hpos, hmax, hchunks⟩ := h
  exact (endsClean_iff hbefore hchunks (.bareLength hpos hmax)).2 rfl

theorem EndsInLength.not_wholeFrames (h : EndsInLength chunks.flatten) : ¬ WholeFrames chunks.flatten := by
  rintro ⟨payloads, hsize, hwhole⟩
  have hclean : EndsClean text chunks := h.endsClean
  rw [← List.append_nil (payloads.flatMap framed)] at hwhole
  have hpayloads : ∀ p ∈ payloads, p.length ≤ maxPayload := hclean.le_maxPayload hsize hwhole
  obtain ⟨before, n, hbefore, hpos, hmax, hchunks⟩ := h
  rw [hchunks] at hwhole
  have hnil : toBE 4 n = [] := (eq_of_frames_append_eq hbefore (.bareLength hpos hmax) hpayloads .empty hwhole).2
  have hlength : (toBE 4 n).length = 4 := length_toBE 4 n
  rw [hnil] at hlength
  cases hlength

theorem EndsClean.wholeFrames_or (h : EndsClean f chunks) :
    WholeFrames chunks.flatten ∨ EndsInLength chunks.flatten := by
  obtain ⟨before, rest, faults, hbefore, hchunks, hrest⟩ := exists_remnant chunks.flatten
  obtain rfl : faults = [] := (endsClean_iff hbefore hchunks hrest).1 h
  cases hrest with
  | empty =>
    have hsize : ∀ p ∈ before, p.length < 2 ^ 32 := fun p hp => Nat.lt_of_le_of_lt (hbefore p hp) maxPayload_lt
    exact Or.inl ⟨before, hsize, hchunks.trans (List.append_nil _)⟩
  | @bareLength n hpos hmax => exact Or.inr ⟨before, n, hbefore, hpos, hmax, hchunks⟩

end

/-- If a stream comes to a clean end then its octets are whole frames, unless they are frames and the length of one
more: such a stream ends clean all the same, for the length is taken before the payload is waited for. Where a stream
breaks off inside a frame, it ends clean in no other place, and shows what `faultsOfCut` says. -/
theorem endsClean_means_whole_iff {α : Type} (f : Format α) (chunks : List Bytes) :
    ((EndsClean f chunks → WholeFrames chunks.flatten) ↔ ¬ EndsInLength chunks.flatten) ∧
    ∀ (before : List Bytes) (payload : Bytes) (k : Nat), (∀ p ∈ payload :: before, p.length < 2 ^ 32) →
      0 < k → k < (framed payload).length → chunks.flatten = before.flatMap framed ++ (framed payload).take k →
      (EndsClean f chunks ↔ k = 4 ∧ ∀ p ∈ payload :: before, p.length ≤ maxPayload) ∧
      ((∀ p ∈ before, p.length ≤ maxPayload) →
        receive f chunks =
          before.map (unpack f) ++ (faultsOfCut payload.length k).map fun fault => .error (.io fault)) := by
  refine ⟨⟨?_, ?_⟩, ?_⟩
  · intro h hends
    exact hends.not_wholeFrames (h hends.endsClean)
  · intro hends hclean
    exact hclean.wholeFrames_or.resolve_right hends
  · intro before payload k hsize hpos hlt hchunks
    have hrest := remnant_take_framed (hsize payload List.mem_cons_self) hpos hlt
    refine ⟨?_, fun hbefore => by rw [receive_of_flatten hbefore hchunks, hrest.receive]⟩
    rw [List.forall_mem_cons, ← and_assoc, ← faultsOfCut_eq_nil_iff]
    constructor
    · intro hclean
      have hbefore := hclean.le_maxPayload (fun p hp => hsize p (List.mem_cons_of_mem payload hp)) hchunks
      exact ⟨(endsClean_iff hbefore hchunks hrest).1 hclean, hbefore⟩
    · rintro ⟨hnil, hbefore⟩
      exact (endsClean_iff hbefore hchunks hrest).2 hnil

/-- A frame, and two octets of the payload of the next. -/
theorem receive_cut_payload :
    receive (frame request) [[0, 0, 0, 12, 1, 0, 0, 0, 0, 0, 0, 0, 4, 0], [0, 0, 0, 0, 0], [12, 2, 0]] =
      [.ok ⟨1, .rtt⟩, .error (.io .cutFrame)] := by
  have h := (endsClean_means_whole_iff (frame request)
    [[0, 0, 0, 12, 1, 0, 0, 0, 0, 0, 0, 0, 4, 0], [0, 0, 0, 0, 0], [12, 2, 0]]).2
    [[1, 0, 0, 0, 0, 0, 0, 0, 4, 0, 0, 0]] [2, 0, 0, 0, 0, 0, 0, 0, 4, 0, 0, 0] 6 (by decide) (by decide) (by decide)
    (by decide)
  rw [h.2 (by decide)]
  rfl

/-- A frame, and the length of the next: it ends clean. -/
theorem receive_bare_length :
    EndsClean (frame request) [[0, 0, 0, 12, 1, 0, 0, 0, 0, 0, 0, 0, 4, 0], [0, 0, 0, 0, 0, 12]] ∧
      ¬ WholeFrames [[0, 0, 0, 12, 1, 0, 0, 0, 0, 0, 0, 0, 4, 0], [0, 0, 0, 0, 0, 12]].flatten := by
  have hends : EndsInLength [[0, 0, 0, 12, 1, 0, 0, 0, 0, 0, 0, 0, 4, 0], [0, 0, 0, 0, 0, 12]].flatten :=
    ⟨[[1, 0, 0, 0, 0, 0, 0, 0, 4, 0, 0, 0]], 12, by decide, by decide, by decide, by decide⟩
  exact ⟨hends.endsClean, hends.not_wholeFrames⟩

end PeerMesh.Wire
