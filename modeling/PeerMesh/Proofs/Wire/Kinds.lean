import PeerMesh.Proofs.Wire.Format
import PeerMesh.Wire.Framing

/-!
# Everything that is written on the wire

* `Kind`, `Kind.format` : the messages with all that they are made of, and how each is written;
* `Kind.lawful` : all of it is read exactly as it is written;
* `unpack_eq_ok_iff` : a payload is read as a message exactly when it begins with the message as written.
-/

namespace PeerMesh.Wire

/-- What can stand in octets. -/
inductive Kind where
  | word64
  | int64
  | bool
  | text
  | sampleKind
  | health
  | peer
  | reading
  | joinReply
  | announcement
  | request
  | response
  | list (item : Kind)
  | frame (body : Kind)
  deriving DecidableEq, Repr

namespace Kind

def Value : Kind → Type
  | word64 => UInt64
  | int64 => Int64
  | bool => Bool
  | text => String
  | sampleKind => SampleKind
  | health => Health
  | peer => Peer
  | reading => Reading
  | joinReply => JoinReply
  | announcement => Announcement
  | request => Request
  | response => Response
  | list item => List item.Value
  | frame body => Frame body.Value

def format : (k : Kind) → Format k.Value
  | word64 => Wire.word64
  | int64 => Wire.int64
  | bool => Wire.bool
  | text => Wire.text
  | sampleKind => Wire.sampleKind
  | health => Wire.health
  | peer => Wire.peer
  | reading => Wire.reading
  | joinReply => Wire.joinReply
  | announcement => Wire.announcement
  | request => Wire.request
  | response => Wire.response
  | list item => Wire.list item.format
  | frame body => Wire.frame body.format

theorem lawful (k : Kind) : k.format.Lawful := by
  induction k with
  | word64 => exact lawful_word64
  | int64 => exact lawful_int64
  | bool => exact lawful_bool
  | text => exact lawful_text
  | sampleKind => exact lawful_sampleKind
  | health => exact lawful_health
  | peer => exact lawful_peer
  | reading => exact lawful_reading
  | joinReply => exact lawful_joinReply
  | announcement => exact lawful_announcement
  | request => exact lawful_request
  | response => exact lawful_response
  | list item ih => exact lawful_list ih
  | frame body ih => exact ih.frame

end Kind

section

variable {α : Type} {f : Format α} {bs : Bytes} {x : α}

theorem unpack_eq_ok : unpack f bs = .ok x ↔ ∃ rest, f.decode.run bs = .ok (x, rest) := by
  unfold unpack
  cases f.decode.run bs with
  | error fault =>
    constructor
    · intro h
      cases h
    · rintro ⟨rest, h⟩
      cases h
  | ok p =>
    constructor
    · intro h
      cases h
      exact ⟨p.2, rfl⟩
    · rintro ⟨rest, h⟩
      cases h
      rfl

theorem Format.Lawful.unpack_of_prefix (hf : f.Lawful) (hbs : bs.length < 2 ^ 64) (h : f.encode x <+: bs) :
    unpack f bs = .ok x := by
  obtain ⟨rest, rfl⟩ := h
  rw [List.length_append] at hbs
  exact unpack_eq_ok.2 ⟨rest, hf.decode_encode rest (by omega)⟩

theorem Format.Lawful.prefix_of_unpack (hf : f.Lawful) (h : unpack f bs = .ok x) : f.encode x <+: bs := by
  obtain ⟨rest, h⟩ := unpack_eq_ok.1 h
  exact ⟨rest, (hf.eq_of_decode h).symm⟩

end

/-- A payload is read as a message exactly when it begins with the message as it is written, and no two messages
stand at its beginning: the octets that reading takes off are those that the message is written in. The payload
is one whose length 64 bits can hold, as any in memory is. -/
theorem unpack_eq_ok_iff (k : Kind) {bs : Bytes} (hbs : bs.length < 2 ^ 64) :
    (∀ m, unpack k.format bs = .ok m ↔ k.format.encode m <+: bs) ∧
      (∀ m m', k.format.encode m <+: bs → k.format.encode m' <+: bs → m = m') ∧
      ∀ m rest, k.format.decode.run bs = .ok (m, rest) → k.format.encode m ++ rest = bs := by
  refine ⟨fun m => ⟨k.lawful.prefix_of_unpack, k.lawful.unpack_of_prefix hbs⟩, fun m m' hm hm' => ?_, ?_⟩
  · have h := k.lawful.unpack_of_prefix hbs hm
    have h' := k.lawful.unpack_of_prefix hbs hm'
    exact Except.ok.inj (h.symm.trans h')
  · intro m rest h
    exact (k.lawful.eq_of_decode h).symm

/-- A frame with a reading from before 1970, and two octets after it that are ignored. -/
theorem unpack_reading_frame :
    unpack (Kind.format (.frame .request))
        ([9, 0, 0, 0, 0, 0, 0, 0, 3, 0, 0, 0, 1, 0, 0, 0, 0, 0, 0, 0, 2, 0, 0, 0, 0, 0, 0, 0, 195, 169,
          0, 0, 0, 0, 0, 0, 0, 0, 1, 0, 0, 0, 1, 0, 0, 0, 0, 0, 0, 0, 55, 255, 255, 255, 255, 255, 255, 255, 255,
          7, 7] : Bytes) =
      .ok ⟨9, .pushSamples [⟨"é", "", .rttRequest, "7", -1⟩]⟩ :=
  ((unpack_eq_ok_iff (.frame .request) (by decide)).1 _).2 (by decide)

end PeerMesh.Wire
