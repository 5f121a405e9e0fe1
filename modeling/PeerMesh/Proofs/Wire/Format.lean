import PeerMesh.Proofs.Bytes
import PeerMesh.Wire.Message

/-!
# Formats that read exactly what they write

* `Format.Lawful` : what is read off the front of octets stood there in the one way in which it is written,
  and what was written is read back, with the octets after it left alone;
* `run_octets`, `run_number` : what a run of the two readers below all others gives;
* `Lawful.map`, `Lawful.pair`, `lawful_list` and the other combinators, one lemma for each;
* `lawful_request`, `lawful_response`, `Lawful.frame` : the messages.

A length stands in 64 bits, so writing loses information on texts and lists from `2 ^ 64` on, and only
values whose written form has a shorter length are read back. No memory holds more.
-/

namespace PeerMesh.Wire

variable {α β : Type}

/-! ## Runs of readers -/

namespace Decoder

theorem run_bind_eq_ok {x : Decoder α} {f : α → Decoder β} {bs : Bytes} {r : β × Bytes} :
    (x >>= f).run bs = .ok r ↔ ∃ a rest, x.run bs = .ok (a, rest) ∧ (f a).run rest = .ok r := by
  rw [StateT.run_bind]
  cases x.run bs with
  | error fault =>
    constructor
    · intro h
      cases h
    · rintro ⟨a, rest, h, -⟩
      cases h
  | ok p =>
    constructor
    · intro h
      exact ⟨p.1, p.2, rfl, h⟩
    · rintro ⟨a, rest, h, hf⟩
      cases h
      exact hf

theorem run_map_eq_ok {x : Decoder α} {f : α → β} {bs rest : Bytes} {b : β} :
    (f <$> x).run bs = .ok (b, rest) ↔ ∃ a, x.run bs = .ok (a, rest) ∧ f a = b := by
  rw [StateT.run_map]
  cases x.run bs with
  | error fault =>
    constructor
    · intro h
      cases h
    · rintro ⟨a, h, -⟩
      cases h
  | ok p =>
    constructor
    · intro h
      cases h
      exact ⟨p.1, rfl, rfl⟩
    · rintro ⟨a, h, rfl⟩
      cases h
      rfl

end Decoder

open Decoder

theorem run_octets {n : Nat} {shortage : DecodeFault} {bs found rest : Bytes} :
    (octets n shortage).run bs = .ok (found, rest) ↔ found.length = n ∧ bs = found ++ rest := by
  show octets n shortage bs = _ ↔ _
  unfold octets
  rw [split?_eq]
  split
  · rename_i parts h
    split at h
    · rename_i hn
      cases h
      constructor
      · intro h
        cases h
        exact ⟨List.length_take_of_le hn, (List.take_append_drop n bs).symm⟩
      · rintro ⟨rfl, rfl⟩
        rw [List.take_left, List.drop_left]
    · cases h
  · rename_i h
    split at h
    · cases h
    · rename_i hn
      constructor
      · intro h
        cases h
      · rintro ⟨rfl, rfl⟩
        simp at hn

theorem run_number {w n : Nat} {bs rest : Bytes} :
    (number w).decode.run bs = .ok (n, rest) ↔ n < 256 ^ w ∧ bs = toLE w n ++ rest := by
  show (ofLE <$> octets w .cutShort).run bs = _ ↔ _
  rw [run_map_eq_ok]
  constructor
  · rintro ⟨found, h, rfl⟩
    obtain ⟨rfl, rfl⟩ := run_octets.1 h
    exact ⟨ofLE_lt found, by rw [toLE_ofLE]⟩
  · rintro ⟨hn, rfl⟩
    exact ⟨toLE w n, run_octets.2 ⟨length_toLE w n, rfl⟩, by rw [ofLE_toLE, Nat.mod_eq_of_lt hn]⟩

/-! ## The law -/

/-- The format reads what it writes, and nothing else. -/
structure Format.Lawful (f : Format α) : Prop where
  eq_of_decode {bs rest : Bytes} {x : α} : f.decode.run bs = .ok (x, rest) → bs = f.encode x ++ rest
  decode_encode {x : α} (rest : Bytes) :
    (f.encode x).length < 2 ^ 64 → f.decode.run (f.encode x ++ rest) = .ok (x, rest)
  /-- Nothing is written in no octets: so there are never more values in a list than octets. -/
  encode_pos (x : α) : 0 < (f.encode x).length

namespace Format.Lawful

theorem map {f : Format α} (hf : f.Lawful) {read : α → β} {write : β → α} (hread : ∀ b, read (write b) = b)
    (hwrite : ∀ a, write (read a) = a) : (f.map read write).Lawful where
  eq_of_decode h := by
    obtain ⟨a, ha, rfl⟩ := run_map_eq_ok.1 h
    show _ = f.encode (write (read a)) ++ _
    rw [hwrite]
    exact hf.eq_of_decode ha
  decode_encode rest hlt := run_map_eq_ok.2 ⟨_, hf.decode_encode rest hlt, hread _⟩
  encode_pos b := hf.encode_pos (write b)

theorem pair {f : Format α} {g : Format β} (hf : f.Lawful) (hg : g.Lawful) : (f.pair g).Lawful where
  eq_of_decode h := by
    obtain ⟨a, after, ha, hsecond⟩ := run_bind_eq_ok.1 h
    obtain ⟨b, rest, hb, hpair⟩ := run_bind_eq_ok.1 hsecond
    cases hpair
    show _ = (f.encode a ++ g.encode b) ++ _
    rw [hf.eq_of_decode ha, hg.eq_of_decode hb, List.append_assoc]
  decode_encode {x} rest hlt := by
    have hlen : (f.encode x.1).length + (g.encode x.2).length < 2 ^ 64 := by
      rw [← List.length_append]
      exact hlt
    have ha := hf.decode_encode (x := x.1) (g.encode x.2 ++ rest) (by omega)
    have hb := hg.decode_encode (x := x.2) rest (by omega)
    show (f.pair g).decode.run ((f.encode x.1 ++ g.encode x.2) ++ rest) = _
    rw [List.append_assoc]
    exact run_bind_eq_ok.2 ⟨_, _, ha, run_bind_eq_ok.2 ⟨_, _, hb, rfl⟩⟩
  encode_pos x := by
    show 0 < (f.encode x.1 ++ g.encode x.2).length
    have := hf.encode_pos x.1
    rw [List.length_append]
    omega

end Format.Lawful

/-! ## The basic formats -/

theorem lawful_word32 : word32.Lawful where
  eq_of_decode h := by
    obtain ⟨n, hn, rfl⟩ := run_map_eq_ok.1 h
    obtain ⟨hlt, rfl⟩ := run_number.1 hn
    show _ = toLE 4 (UInt32.ofNat n).toNat ++ _
    rw [UInt32.toNat_ofNat_of_lt' hlt]
  decode_encode {x} rest _ :=
    run_map_eq_ok.2 ⟨x.toNat, run_number.2 ⟨x.toNat_lt, rfl⟩, UInt32.ofNat_toNat⟩
  encode_pos x := by
    show 0 < (toLE 4 x.toNat).length
    rw [length_toLE]
    decide

theorem lawful_word64 : word64.Lawful where
  eq_of_decode h := by
    obtain ⟨n, hn, rfl⟩ := run_map_eq_ok.1 h
    obtain ⟨hlt, rfl⟩ := run_number.1 hn
    show _ = toLE 8 (UInt64.ofNat n).toNat ++ _
    rw [UInt64.toNat_ofNat_of_lt' hlt]
  decode_encode {x} rest _ :=
    run_map_eq_ok.2 ⟨x.toNat, run_number.2 ⟨x.toNat_lt, rfl⟩, UInt64.ofNat_toNat⟩
  encode_pos x := by
    show 0 < (toLE 8 x.toNat).length
    rw [length_toLE]
    decide

theorem lawful_int64 : int64.Lawful := lawful_word64.map Int64.toInt64_toUInt64 fun _ => rfl

theorem lawful_bool : bool.Lawful where
  eq_of_decode h := by
    obtain ⟨found, after, hfound, hvalue⟩ := run_bind_eq_ok.1 h
    obtain ⟨-, rfl⟩ := run_octets.1 hfound
    split at hvalue
    · cases hvalue
      rfl
    · cases hvalue
      rfl
    · cases hvalue
  decode_encode {b} rest _ := by
    refine run_bind_eq_ok.2 ⟨[if b then 1 else 0], rest, run_octets.2 ⟨rfl, rfl⟩, ?_⟩
    cases b with
    | true => rfl
    | false => rfl
  encode_pos b := Nat.one_pos

theorem run_tag {n : Nat} (hn : n ≤ 2 ^ 32) (i : Fin n) (rest : Bytes) :
    (tag n).decode.run ((tag n).encode i ++ rest) = .ok (i, rest) := by
  have hlt : i.val < 2 ^ 32 := Nat.lt_of_lt_of_le i.isLt hn
  have hi : (UInt32.ofNat i.val).toNat = i.val := UInt32.toNat_ofNat_of_lt' hlt
  have hrun : word32.decode.run (toLE 4 i.val ++ rest) = .ok (UInt32.ofNat i.val, rest) :=
    run_map_eq_ok.2 ⟨i.val, run_number.2 ⟨hlt, rfl⟩, rfl⟩
  refine run_bind_eq_ok.2 ⟨_, _, hrun, ?_⟩
  rw [dif_pos (by rw [hi]; exact i.isLt)]
  exact congrArg (fun j => Except.ok (j, rest)) (Fin.ext hi)

theorem lawful_tag {n : Nat} (hn : n ≤ 2 ^ 32) : (tag n).Lawful where
  eq_of_decode h := by
    obtain ⟨i, after, hi, hvalue⟩ := run_bind_eq_ok.1 h
    split at hvalue
    · cases hvalue
      exact lawful_word32.eq_of_decode hi
    · cases hvalue
  decode_encode {i} rest _ := run_tag hn i rest
  encode_pos i := by
    show 0 < (toLE 4 i.val).length
    rw [length_toLE]
    decide

/-! ## Texts and lists -/

theorem decode?_eq_some {bs : Bytes} {s : String} : Text.decode? bs = some s ↔ bs = utf8 s := by
  unfold Text.decode? String.fromUTF8? utf8
  split
  · rename_i h
    rw [Option.some.injEq, ← String.toByteArray_inj]
    constructor
    · intro hs
      rw [String.toUTF8, ← hs]
      rfl
    · rintro rfl
      rfl
  · rename_i h
    constructor
    · intro hs
      cases hs
    · rintro rfl
      exact absurd s.isValidUTF8 h

theorem lawful_text : text.Lawful where
  eq_of_decode h := by
    obtain ⟨n, after, hn, htext⟩ := run_bind_eq_ok.1 h
    obtain ⟨found, rest, hfound, hvalue⟩ := run_bind_eq_ok.1 htext
    obtain ⟨-, rfl⟩ := run_number.1 hn
    obtain ⟨rfl, rfl⟩ := run_octets.1 hfound
    split at hvalue
    · rename_i s hs
      cases hvalue
      rw [decode?_eq_some.1 hs]
      exact (List.append_assoc _ _ _).symm
    · cases hvalue
  decode_encode {s} rest hlt := by
    have hlen : 8 + (utf8 s).length < 2 ^ 64 := by
      rw [← length_toLE 8 (utf8 s).length, ← List.length_append]
      exact hlt
    have hn : (number 8).decode.run (toLE 8 (utf8 s).length ++ (utf8 s ++ rest)) =
        .ok ((utf8 s).length, utf8 s ++ rest) := run_number.2 ⟨by omega, rfl⟩
    show text.decode.run (toLE 8 (utf8 s).length ++ utf8 s ++ rest) = _
    rw [List.append_assoc]
    refine run_bind_eq_ok.2 ⟨_, _, hn, run_bind_eq_ok.2 ⟨_, _, run_octets.2 ⟨rfl, rfl⟩, ?_⟩⟩
    rw [decode?_eq_some.2 rfl]
    rfl
  encode_pos s := by
    show 0 < (toLE 8 (utf8 s).length ++ utf8 s).length
    rw [List.length_append, length_toLE]
    omega

section Many

variable {f : Format α} (hf : f.Lawful)
include hf

theorem eq_of_many {n : Nat} {bs rest : Bytes} {xs : List α} (h : (many f n).run bs = .ok (xs, rest)) :
    xs.length = n ∧ bs = xs.flatMap f.encode ++ rest := by
  induction n generalizing bs xs with
  | zero =>
    cases h
    exact ⟨rfl, rfl⟩
  | succ n ih =>
    obtain ⟨x, after, hx, hmany⟩ := run_bind_eq_ok.1 h
    obtain ⟨ys, rest', hys, hlist⟩ := run_bind_eq_ok.1 hmany
    cases hlist
    obtain ⟨rfl, rfl⟩ := ih hys
    refine ⟨rfl, ?_⟩
    rw [hf.eq_of_decode hx, List.flatMap_cons, List.append_assoc]

theorem many_flatMap {xs : List α} (rest : Bytes) (hlt : (xs.flatMap f.encode).length < 2 ^ 64) :
    (many f xs.length).run (xs.flatMap f.encode ++ rest) = .ok (xs, rest) := by
  induction xs with
  | nil => rfl
  | cons x xs ih =>
    rw [List.flatMap_cons, List.length_append] at hlt
    rw [List.flatMap_cons, List.append_assoc]
    have hx := hf.decode_encode (x := x) (xs.flatMap f.encode ++ rest) (by omega)
    exact run_bind_eq_ok.2 ⟨_, _, hx, run_bind_eq_ok.2 ⟨_, _, ih (by omega), rfl⟩⟩

theorem length_le_flatMap (xs : List α) : xs.length ≤ (xs.flatMap f.encode).length := by
  induction xs with
  | nil => exact Nat.le_refl 0
  | cons x xs ih =>
    have := hf.encode_pos x
    rw [List.flatMap_cons, List.length_append, List.length_cons]
    omega

theorem lawful_list : (list f).Lawful where
  eq_of_decode h := by
    obtain ⟨n, after, hn, hmany⟩ := run_bind_eq_ok.1 h
    obtain ⟨-, rfl⟩ := run_number.1 hn
    obtain ⟨rfl, rfl⟩ := eq_of_many hf hmany
    exact (List.append_assoc _ _ _).symm
  decode_encode {xs} rest hlt := by
    have hlen : 8 + (xs.flatMap f.encode).length < 2 ^ 64 := by
      rw [← length_toLE 8 xs.length, ← List.length_append]
      exact hlt
    have hle := length_le_flatMap hf xs
    have hn : (number 8).decode.run (toLE 8 xs.length ++ (xs.flatMap f.encode ++ rest)) =
        .ok (xs.length, xs.flatMap f.encode ++ rest) := run_number.2 ⟨by omega, rfl⟩
    show (list f).decode.run (toLE 8 xs.length ++ xs.flatMap f.encode ++ rest) = _
    rw [List.append_assoc]
    exact run_bind_eq_ok.2 ⟨_, _, hn, many_flatMap hf rest (by omega)⟩
  encode_pos xs := by
    show 0 < (toLE 8 xs.length ++ xs.flatMap f.encode).length
    rw [List.length_append, length_toLE]
    omega

end Many

/-! ## The messages -/

theorem lawful_peer : peer.Lawful := (lawful_text.pair lawful_text).map (fun _ => rfl) fun _ => rfl

theorem lawful_health : health.Lawful :=
  (lawful_tag (n := 3) (by decide)).map (fun h => by cases h <;> rfl) (by decide)

theorem lawful_sampleKind : sampleKind.Lawful :=
  (lawful_tag (n := 2) (by decide)).map (fun k => by cases k <;> rfl) (by decide)

theorem lawful_reading : reading.Lawful :=
  (lawful_text.pair (lawful_text.pair (lawful_sampleKind.pair (lawful_text.pair lawful_int64)))).map
    (fun _ => rfl) fun _ => rfl

theorem lawful_joinReply : joinReply.Lawful :=
  (lawful_bool.pair (lawful_text.pair (lawful_list lawful_peer))).map (fun _ => rfl) fun _ => rfl

theorem lawful_announcement : announcement.Lawful :=
  (lawful_peer.pair lawful_peer).map (fun _ => rfl) fun _ => rfl

section Variants

variable {n : Nat} {i : Fin n} {f : Format β} {wrap : β → α} {rest : Bytes} (hf : f.Lawful)
include hf

theorem eq_of_variant {after : Bytes} {x : α} (h : (wrap <$> f.decode).run after = .ok (x, rest)) :
    ∃ b, x = wrap b ∧ (tag n).encode i ++ after = (tag n).encode i ++ f.encode b ++ rest := by
  obtain ⟨b, hb, rfl⟩ := run_map_eq_ok.1 h
  refine ⟨b, rfl, ?_⟩
  rw [hf.eq_of_decode hb, List.append_assoc]

theorem run_variant (hn : n ≤ 2 ^ 32) {next : Fin n → Decoder α} (hnext : next i = wrap <$> f.decode) {b : β}
    (rest : Bytes) (hlt : ((tag n).encode i ++ f.encode b).length < 2 ^ 64) :
    ((tag n).decode >>= next).run ((tag n).encode i ++ f.encode b ++ rest) = .ok (wrap b, rest) := by
  rw [List.length_append] at hlt
  rw [List.append_assoc]
  refine run_bind_eq_ok.2 ⟨i, _, run_tag hn i _, ?_⟩
  rw [hnext]
  exact run_map_eq_ok.2 ⟨b, hf.decode_encode rest (by omega), rfl⟩

end Variants

theorem encode_tag_pos {n : Nat} (i : Fin n) (bs : Bytes) : 0 < ((tag n).encode i ++ bs).length := by
  show 0 < (toLE 4 i.val ++ bs).length
  rw [List.length_append, length_toLE]
  omega

theorem lawful_request : request.Lawful where
  eq_of_decode h := by
    obtain ⟨i, after, hi, hvalue⟩ := run_bind_eq_ok.1 h
    rw [(lawful_tag (n := 5) (by decide)).eq_of_decode hi]
    split at hvalue
    · obtain ⟨joiner, rfl, heq⟩ := eq_of_variant lawful_peer hvalue
      exact heq
    · obtain ⟨sender, rfl, heq⟩ := eq_of_variant lawful_peer hvalue
      exact heq
    · obtain ⟨word, rfl, heq⟩ := eq_of_variant lawful_announcement hvalue
      exact heq
    · obtain ⟨readings, rfl, heq⟩ := eq_of_variant (lawful_list lawful_reading) hvalue
      exact heq
    · cases hvalue
      rfl
  decode_encode {x} rest hlt := by
    cases x with
    | joinMesh joiner => exact run_variant lawful_peer (by decide) rfl rest hlt
    | ping sender => exact run_variant lawful_peer (by decide) rfl rest hlt
    | nodeDiscovery word => exact run_variant lawful_announcement (by decide) rfl rest hlt
    | pushSamples readings => exact run_variant (lawful_list lawful_reading) (by decide) rfl rest hlt
    | rtt => exact run_bind_eq_ok.2 ⟨4, rest, run_tag (by decide) 4 rest, rfl⟩
  encode_pos x := by
    cases x with
    | joinMesh joiner => exact encode_tag_pos _ _
    | ping sender => exact encode_tag_pos _ _
    | nodeDiscovery word => exact encode_tag_pos _ _
    | pushSamples readings => exact encode_tag_pos _ _
    | rtt => exact (lawful_tag (n := 5) (by decide)).encode_pos _

theorem lawful_response : response.Lawful where
  eq_of_decode h := by
    obtain ⟨i, after, hi, hvalue⟩ := run_bind_eq_ok.1 h
    rw [(lawful_tag (n := 3) (by decide)).eq_of_decode hi]
    split at hvalue
    · obtain ⟨reply, rfl, heq⟩ := eq_of_variant lawful_joinReply hvalue
      exact heq
    · cases hvalue
      rfl
    · obtain ⟨message, rfl, heq⟩ := eq_of_variant lawful_text hvalue
      exact heq
  decode_encode {x} rest hlt := by
    cases x with
    | joinMesh reply => exact run_variant lawful_joinReply (by decide) rfl rest hlt
    | empty => exact run_bind_eq_ok.2 ⟨1, rest, run_tag (by decide) 1 rest, rfl⟩
    | failure message => exact run_variant lawful_text (by decide) rfl rest hlt
  encode_pos x := by
    cases x with
    | joinMesh reply => exact encode_tag_pos _ _
    | empty => exact (lawful_tag (n := 3) (by decide)).encode_pos _
    | failure message => exact encode_tag_pos _ _

theorem Format.Lawful.frame {f : Format α} (hf : f.Lawful) : (Wire.frame f).Lawful :=
  (lawful_word64.pair hf).map (fun _ => rfl) fun _ => rfl

end PeerMesh.Wire
