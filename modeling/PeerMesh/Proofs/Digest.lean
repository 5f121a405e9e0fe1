import PeerMesh.Measurement.RoundTrip
import PeerMesh.Proofs.Identity
import PeerMesh.Proofs.Store.Readings

/-!
# Texts that differ in their last octet

The digest is no injection, but each of its steps is one in the octet or the word that it takes in, and in the state that
it takes it into. So an octet that comes last is never lost.

* `rotl_injective`, `mul_injective`, `xorShift_injective` : what the steps are made of;
* `avalanche_injective`, `mixWord_injective`, `mixOctet_injective`, `absorb_injective` : the steps;
* `tail_concat_injective`, `stripes_concat` : where the last octet goes;
* `xxh32_concat_injective`, `digest_append_singleton_injective` : two inputs that differ in their last octet, or two texts
  in their last ASCII character, have two digests;
* `SampleId.ofEdge_ne`, `Store.sample?_putSamples` : the samples of one round trip have two ids, so that both stay;
* `ids_tell_last_character` : what this means for texts, for samples and for addresses.
-/

namespace PeerMesh.Digest

/-! ## Permutations of words -/

theorem getLsbD_rotl (x : UInt32) {r : UInt32} (hpos : 0 < r.toNat) (hlt : r.toNat < 32) {i : Nat} (hi : i < 32) :
    (rotl x r).toBitVec.getLsbD i =
      x.toBitVec.getLsbD (if i < r.toNat then i + (32 - r.toNat) else i - r.toNat) := by
  have hleft : (r.toBitVec % 32).toNat = r.toNat := by
    rw [BitVec.toNat_umod]
    exact Nat.mod_eq_of_lt hlt
  have hright : ((32 - r).toBitVec % 32).toNat = 32 - r.toNat := by
    have hsub : (32 - r).toNat = 32 - r.toNat :=
      UInt32.toNat_sub_of_le _ _ (UInt32.le_iff_toNat_le.2 (Nat.le_of_lt hlt))
    have hsmall : 32 - r.toNat < 32 := by omega
    rw [BitVec.toNat_umod, UInt32.toNat_toBitVec, hsub]
    exact Nat.mod_eq_of_lt hsmall
  simp only [rotl, UInt32.toBitVec_or, UInt32.toBitVec_shiftLeft, UInt32.toBitVec_shiftRight, BitVec.getLsbD_or,
    BitVec.shiftLeft_eq', BitVec.ushiftRight_eq', BitVec.getLsbD_shiftLeft, BitVec.getLsbD_ushiftRight, hleft, hright]
  by_cases hlow : i < r.toNat
  · simp [hlow, Nat.add_comm]
  · have hover : x.toBitVec.getLsbD (32 - r.toNat + i) = false := BitVec.getLsbD_of_ge _ _ (by omega)
    simp [hlow, hi, hover]

theorem rotl_injective {r : UInt32} (hpos : 0 < r.toNat) (hlt : r.toNat < 32) {x y : UInt32}
    (h : rotl x r = rotl y r) : x = y := by
  apply UInt32.toBitVec_inj.1
  apply BitVec.eq_of_getLsbD_eq
  intro i hi
  by_cases hin : i + r.toNat < 32
  · have hbit := congrArg (fun w : UInt32 => w.toBitVec.getLsbD (i + r.toNat)) h
    simp only [getLsbD_rotl _ hpos hlt hin] at hbit
    rw [if_neg (by omega), Nat.add_sub_cancel] at hbit
    exact hbit
  · have hlow : i + r.toNat - 32 < 32 := by omega
    have hbit := congrArg (fun w : UInt32 => w.toBitVec.getLsbD (i + r.toNat - 32)) h
    simp only [getLsbD_rotl _ hpos hlt hlow] at hbit
    rw [if_pos (by omega)] at hbit
    have hback : i + r.toNat - 32 + (32 - r.toNat) = i := by omega
    rw [hback] at hbit
    exact hbit

/-- A factor with an inverse loses nothing. -/
theorem mul_injective {p q : UInt32} (hunit : p * q = 1) {x y : UInt32} (h : x * p = y * p) : x = y := by
  have hq := congrArg (fun w => w * q) h
  simpa only [UInt32.mul_assoc, hunit, UInt32.mul_one] using hq

/-- A word and the same word shifted to the right, one upon the other, still tell the word: its highest bits stand as
they are, and each gives away the one that it covers. -/
theorem xorShift_injective {k : UInt32} (hpos : 0 < k.toNat) (hlt : k.toNat < 32) {x y : UInt32}
    (h : x ^^^ (x >>> k) = y ^^^ (y >>> k)) : x = y := by
  have hshift : (k.toBitVec % 32).toNat = k.toNat := by
    rw [BitVec.toNat_umod]
    exact Nat.mod_eq_of_lt hlt
  have hbit : ∀ i, (x.toBitVec.getLsbD i ^^ x.toBitVec.getLsbD (k.toNat + i)) =
      (y.toBitVec.getLsbD i ^^ y.toBitVec.getLsbD (k.toNat + i)) := by
    intro i
    have hi := congrArg (fun w : UInt32 => w.toBitVec.getLsbD i) h
    simpa only [UInt32.toBitVec_xor, UInt32.toBitVec_shiftRight, BitVec.getLsbD_xor, BitVec.ushiftRight_eq',
      BitVec.getLsbD_ushiftRight, hshift] using hi
  -- by induction from the highest bit down
  have hall : ∀ n i, 32 ≤ i + n → x.toBitVec.getLsbD i = y.toBitVec.getLsbD i := by
    intro n
    induction n with
    | zero =>
      intro i hi
      have hi : 32 ≤ i := hi
      rw [BitVec.getLsbD_of_ge _ _ hi, BitVec.getLsbD_of_ge _ _ hi]
    | succ n ih =>
      intro i hi
      have hcover := ih (k.toNat + i) (by omega)
      have hi := hbit i
      rw [hcover] at hi
      exact Bool.xor_left_inj.1 hi
  apply UInt32.toBitVec_inj.1
  exact BitVec.eq_of_getLsbD_eq fun i hi => hall 32 i (by omega)

theorem prime1_unit : prime1 * 0x0E8B2F51 = 1 := by decide

theorem prime2_unit : prime2 * 0xB6C92F47 = 1 := by decide

theorem prime3_unit : prime3 * 0xA89ED915 = 1 := by decide

theorem prime4_unit : prime4 * 0xA0FE3BCF = 1 := by decide

theorem prime5_unit : prime5 * 0xAE398151 = 1 := by decide

/-! ## The steps -/

theorem avalanche_injective {x y : UInt32} (h : avalanche x = avalanche y) : x = y := by
  have h₁ := xorShift_injective (by decide) (by decide) h
  have h₂ := xorShift_injective (by decide) (by decide) (mul_injective prime3_unit h₁)
  exact xorShift_injective (by decide) (by decide) (mul_injective prime2_unit h₂)

theorem word_injective {a b c d d' : UInt8} (h : word a b c d = word a b c d') : d = d' := by
  have htop : ∀ e : UInt8, ∀ i < 8, (word a b c e).toBitVec.getLsbD (24 + i) = e.toBitVec.getLsbD i := by
    intro e i hi
    have hbeyond : ∀ (x : UInt8) (j : Nat), 8 ≤ j → x.toBitVec.getLsbD j = false :=
      fun x j hj => BitVec.getLsbD_of_ge _ _ hj
    have ha := hbeyond a (24 + i) (by omega)
    have hb := hbeyond b (24 + i - 8) (by omega)
    have hc := hbeyond c (24 + i - 16) (by omega)
    have hin : 24 + i < 32 := by omega
    simp [word, ha, hb, hc, hin, hi]
  apply UInt8.toBitVec_inj.1
  apply BitVec.eq_of_getLsbD_eq
  intro i hi
  rw [← htop d i hi, ← htop d' i hi, h]

theorem round_injective {acc w w' : UInt32} (h : round acc w = round acc w') : w = w' := by
  have hturned := rotl_injective (by decide) (by decide) (mul_injective prime1_unit h)
  exact mul_injective prime2_unit ((UInt32.add_right_inj acc).1 hturned)

theorem mixWord_injective {h w w' : UInt32} (hw : mixWord h w = mixWord h w') : w = w' := by
  have hturned := rotl_injective (by decide) (by decide) (mul_injective prime4_unit hw)
  exact mul_injective prime3_unit ((UInt32.add_right_inj h).1 hturned)

theorem mixOctet_injective {h : UInt32} {b b' : UInt8} (hb : mixOctet h b = mixOctet h b') : b = b' := by
  have hturned := rotl_injective (by decide) (by decide) (mul_injective prime1_unit hb)
  have hwide := mul_injective prime5_unit ((UInt32.add_right_inj h).1 hturned)
  exact UInt8.toUInt32_inj.1 hwide

theorem absorb_injective {l : Lanes} {w1 w2 w3 w w' : UInt32}
    (h : (l.absorb w1 w2 w3 w).merge = (l.absorb w1 w2 w3 w').merge) : w = w' := by
  unfold Lanes.merge at h
  exact round_injective (rotl_injective (by decide) (by decide) ((UInt32.add_right_inj _).1 h))

/-! ## The last octet -/

/-- What the stripes leave over takes its last octet in, as the end of a word or by itself. -/
theorem tail_concat_injective {a b : UInt8} :
    ∀ (p : Bytes) {h : UInt32}, tail h (p ++ [a]) = tail h (p ++ [b]) → a = b
  | [], _, heq => mixOctet_injective heq
  | [_], _, heq => mixOctet_injective heq
  | [_, _], _, heq => mixOctet_injective heq
  | [_, _, _], _, heq => word_injective (mixWord_injective heq)
  | _ :: _ :: _ :: _ :: rest, _, heq => tail_concat_injective rest heq

theorem stripes_of_length_lt (l : Lanes) {bs : Bytes} (h : bs.length < 16) : stripes l bs = (l, bs) := by
  unfold stripes
  split
  · simp only [List.length_cons] at h
    omega
  · rfl

def stripeWord (q : Bytes) (i : Nat) : UInt32 :=
  word (q[4 * i]?.getD 0) (q[4 * i + 1]?.getD 0) (q[4 * i + 2]?.getD 0) (q[4 * i + 3]?.getD 0)

def absorbStripe (l : Lanes) (q : Bytes) : Lanes :=
  l.absorb (stripeWord q 0) (stripeWord q 1) (stripeWord q 2) (stripeWord q 3)

theorem stripes_append (l : Lanes) {q : Bytes} (hq : q.length = 16) (rest : Bytes) :
    stripes l (q ++ rest) = stripes (absorbStripe l q) rest := by
  match q, hq with
  | [_, _, _, _, _, _, _, _, _, _, _, _, _, _, _, _], _ => rfl

theorem stripes_concat (l : Lanes) (p : Bytes) :
    (∃ l' q, ∀ a, stripes l (p ++ [a]) = (l', q ++ [a])) ∨
      ∃ l' q, q.length = 15 ∧ ∀ a, stripes l (p ++ [a]) = (absorbStripe l' (q ++ [a]), []) := by
  induction hn : p.length using Nat.strongRecOn generalizing l p with
  | ind n ih =>
    subst hn
    rcases Nat.lt_trichotomy p.length 15 with hlt | heq | hgt
    · refine Or.inl ⟨l, p, fun a => stripes_of_length_lt l ?_⟩
      rw [List.length_append, List.length_singleton]
      omega
    · refine Or.inr ⟨l, p, heq, fun a => ?_⟩
      have hlength : (p ++ [a]).length = 16 := by rw [List.length_append, heq, List.length_singleton]
      rw [← List.append_nil (p ++ [a]), stripes_append l hlength, List.append_nil]
      rfl
    · have hstep : ∀ a, stripes l (p ++ [a]) = stripes (absorbStripe l (p.take 16)) (p.drop 16 ++ [a]) := by
        intro a
        have htake : (p.take 16).length = 16 := by
          rw [List.length_take]
          omega
        rw [← stripes_append l htake, ← List.append_assoc, List.take_append_drop]
      have hless : (p.drop 16).length < p.length := by
        rw [List.length_drop]
        omega
      simp only [hstep]
      exact ih _ hless _ _ rfl

section

variable {q : Bytes} (hq : q.length = 15)
include hq

theorem stripeWord_concat_of_lt {i : Nat} (hi : i < 3) (a : UInt8) : stripeWord (q ++ [a]) i = stripeWord q i := by
  have hold : ∀ j, j < 15 → (q ++ [a])[j]? = q[j]? := fun j hj => List.getElem?_append_left (hq ▸ hj)
  unfold stripeWord
  rw [hold _ (by omega), hold _ (by omega), hold _ (by omega), hold _ (by omega)]

theorem stripeWord_concat (a : UInt8) :
    stripeWord (q ++ [a]) 3 = word (q[12]?.getD 0) (q[13]?.getD 0) (q[14]?.getD 0) a := by
  have hold : ∀ j, j < 15 → (q ++ [a])[j]? = q[j]? := fun j hj => List.getElem?_append_left (hq ▸ hj)
  have hnew : (q ++ [a])[15]? = some a := by rw [← hq, List.getElem?_concat_length]
  unfold stripeWord
  rw [hold _ (by omega), hold _ (by omega), hold _ (by omega), hnew]
  rfl

theorem absorbStripe_injective {l : Lanes} {a b : UInt8}
    (h : (absorbStripe l (q ++ [a])).merge = (absorbStripe l (q ++ [b])).merge) : a = b := by
  have hsame : ∀ i < 3, ∀ c, stripeWord (q ++ [c]) i = stripeWord q i := fun i hi => stripeWord_concat_of_lt hq hi
  unfold absorbStripe at h
  rw [hsame 0 (by decide), hsame 1 (by decide), hsame 2 (by decide), hsame 0 (by decide), hsame 1 (by decide),
    hsame 2 (by decide), stripeWord_concat hq, stripeWord_concat hq] at h
  exact word_injective (absorb_injective h)

end

/-- Two inputs that differ in their last octet have two digests. -/
theorem xxh32_concat_injective (p : Bytes) {a b : UInt8} (h : xxh32 (p ++ [a]) = xxh32 (p ++ [b])) : a = b := by
  unfold xxh32 at h
  simp only [List.length_append, List.length_singleton] at h
  by_cases hshort : p.length + 1 < 16
  · simp only [if_pos hshort] at h
    exact tail_concat_injective p (avalanche_injective h)
  · simp only [if_neg hshort] at h
    rcases stripes_concat .start p with ⟨l, q, hstripes⟩ | ⟨l, q, hq, hstripes⟩
    · simp only [hstripes] at h
      exact tail_concat_injective q (avalanche_injective h)
    · simp only [hstripes] at h
      exact absorbStripe_injective hq ((UInt32.add_left_inj _).1 (avalanche_injective h))

end PeerMesh.Digest

namespace PeerMesh

theorem utf8_append (s t : String) : utf8 (s ++ t) = utf8 s ++ utf8 t := by
  unfold utf8
  simp [String.toUTF8]

/-- Two texts that differ in the last character, which is ASCII in both, have two digests. -/
theorem digest_append_singleton_injective (s : String) {a b : Char} (ha : a.val ≤ 127) (hb : b.val ≤ 127)
    (h : digest (s ++ String.singleton a) = digest (s ++ String.singleton b)) : a = b := by
  have hutf8 : ∀ c : Char, c.val ≤ 127 → utf8 (s ++ String.singleton c) = utf8 s ++ [c.val.toUInt8] := by
    intro c hc
    have hsize : c.utf8Size = 1 := Char.utf8Size_eq_one_iff.2 hc
    have hsingle : utf8 (String.singleton c) = [c.val.toUInt8] := by
      unfold utf8 String.toUTF8
      rw [String.toByteArray_singleton]
      simp [List.utf8Encode, String.utf8EncodeChar_eq_singleton hsize]
    rw [utf8_append, hsingle]
  have hoctet : a.val.toUInt8 = b.val.toUInt8 := by
    apply Digest.xxh32_concat_injective (utf8 s)
    rw [← hutf8 a ha, ← hutf8 b hb]
    exact h
  have hnat := congrArg UInt8.toNat hoctet
  rw [UInt32.toNat_toUInt8, UInt32.toNat_toUInt8] at hnat
  have ha := UInt32.le_iff_toNat_le.1 ha
  have hb := UInt32.le_iff_toNat_le.1 hb
  apply Char.ext
  apply UInt32.toNat_inj.1
  simp only [UInt32.reduceToNat] at ha hb
  omega

/-- The samples of one round trip have two ids, whatever the names of the nodes. -/
theorem SampleId.ofEdge_ne (source dest : String) {k k' : SampleKind} (hk : k ≠ k') :
    ofEdge source dest k ≠ ofEdge source dest k' := by
  intro h
  have hdigest : digest (composite source dest k) = digest (composite source dest k') := congrArg SampleId.word h
  unfold composite at hdigest
  rw [SampleKind.text_eq, SampleKind.text_eq] at hdigest
  have hchar := digest_append_singleton_injective (source ++ dest) (by cases k <;> decide) (by cases k' <;> decide) hdigest
  cases k <;> cases k' <;> first | exact hk rfl | cases hchar

theorem NodeId.ofTarget_ne (s : String) {a b : Char} (ha : a.isDigit) (hb : b.isDigit) (hne : a ≠ b) :
    ofTarget (s ++ String.singleton a) ≠ ofTarget (s ++ String.singleton b) := by
  have hascii : ∀ c : Char, c.isDigit → c.val ≤ 127 := by
    intro c hc
    simp only [Char.isDigit, Bool.and_eq_true, decide_eq_true_eq] at hc
    exact UInt32.le_trans hc.2 (by decide)
  intro h
  exact hne (digest_append_singleton_injective s (hascii a ha) (hascii b hb) (congrArg NodeId.word h))

/-- Two samples with two ids leave each other alone, whichever comes first. -/
theorem Store.sample?_putSamples {x y : Sample} (hne : x.id ≠ y.id) (s : Store) :
    ((s.putSample x).putSample y).sample? x.id = some x ∧ ((s.putSample x).putSample y).sample? y.id = some y := by
  rw [sample?_putSample, sample?_putSample, sample?_putSample, if_neg hne, if_pos rfl, if_pos rfl]
  exact ⟨rfl, rfl⟩

/-- Whatever stands in front of it, another last character is another digest. So the two samples of a round trip are kept
side by side in any store, and addresses that differ in the last digit of the port are nodes of their own. -/
theorem ids_tell_last_character :
    (∀ (s : String) (a b : Char), a.val ≤ 127 → b.val ≤ 127 → a ≠ b →
      digest (s ++ String.singleton a) ≠ digest (s ++ String.singleton b)) ∧
    (∀ source dest : String, SampleId.ofEdge source dest .rttTotal ≠ SampleId.ofEdge source dest .rttRequest) ∧
    (∀ (me : Profile) (peer : Node) (trip : RoundTrip) (now : Int64) (s : Store),
      let (total, request) := me.roundTripSamples peer trip now
      (s.putSample total).sample? request.id = s.sample? request.id ∧
      (s.putSample request).sample? total.id = s.sample? total.id ∧
      ((s.putSample total).putSample request).sample? total.id = some total ∧
      ((s.putSample total).putSample request).sample? request.id = some request) ∧
    ∀ (s : String) (a b : Char), a.isDigit → b.isDigit → a ≠ b →
      NodeId.ofTarget (s ++ String.singleton a) ≠ NodeId.ofTarget (s ++ String.singleton b) := by
  have hids : ∀ source dest : String, SampleId.ofEdge source dest .rttTotal ≠ SampleId.ofEdge source dest .rttRequest :=
    fun source dest => SampleId.ofEdge_ne source dest (show SampleKind.rttTotal ≠ .rttRequest by decide)
  refine ⟨fun s a b ha hb hne h => ?_, hids, fun me peer trip now s => ?_, fun s a b ha hb hne => ?_⟩
  · exact hne (digest_append_singleton_injective s ha hb h)
  · have hne : (me.roundTripSamples peer trip now).1.id ≠ (me.roundTripSamples peer trip now).2.id :=
      hids me.name peer.name
    obtain ⟨htotal, hrequest⟩ := Store.sample?_putSamples hne s
    refine ⟨?_, ?_, htotal, hrequest⟩
    · exact (Store.sample?_putSample _ _ _).trans (if_neg hne.symm)
    · exact (Store.sample?_putSample _ _ _).trans (if_neg hne)
  · exact NodeId.ofTarget_ne s ha hb hne

theorem goose_apart :
    digest "goose1" ≠ digest "goose2" ∧ NodeId.ofTarget "goose:8081" ≠ NodeId.ofTarget "goose:8082" := by
  obtain ⟨htexts, -, -, htargets⟩ := ids_tell_last_character
  exact ⟨htexts "goose" '1' '2' (by decide) (by decide) (by decide),
    htargets "goose:808" '1' '2' (by decide) (by decide) (by decide)⟩

end PeerMesh
