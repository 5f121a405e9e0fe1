import PeerMesh.Node

/-!
# Texts with digests of their own

Ids are digests of 32 bits, so distinct texts may share one. What a store says about its peers and its edges
is therefore stated for texts of which this is known:

* `DigestsApart` : no two of the given texts share a digest;
* `DigestsApart.target_eq` : then an id belongs to one target;
* `Peer.exists_find?_id` : of the peers with one id there is a first;
* `SampleId.composite_eq_iff` : which edges have one text. Nothing stands between the two names in it.
-/

namespace PeerMesh

/-- No two of the given texts share a digest. -/
def DigestsApart (texts : List String) : Prop := ∀ a ∈ texts, ∀ b ∈ texts, digest a = digest b → a = b

instance (texts : List String) : Decidable (DigestsApart texts) :=
  inferInstanceAs (Decidable (∀ a ∈ texts, ∀ b ∈ texts, _))

namespace DigestsApart

variable {texts : List String}

theorem mono {texts' : List String} (h : DigestsApart texts) (hsub : ∀ text ∈ texts', text ∈ texts) :
    DigestsApart texts' :=
  fun a ha b hb => h a (hsub a ha) b (hsub b hb)

theorem target_eq (h : DigestsApart texts) {a b : String} (ha : a ∈ texts) (hb : b ∈ texts)
    (hid : NodeId.ofTarget a = NodeId.ofTarget b) : a = b :=
  h a ha b hb (congrArg NodeId.word hid)

theorem composite_eq (h : DigestsApart texts) {a b a' b' : String} {k k' : SampleKind}
    (ha : SampleId.composite a b k ∈ texts) (hb : SampleId.composite a' b' k' ∈ texts)
    (hid : SampleId.ofEdge a b k = SampleId.ofEdge a' b' k') :
    SampleId.composite a b k = SampleId.composite a' b' k' :=
  h _ ha _ hb (congrArg SampleId.word hid)

end DigestsApart

theorem Peer.exists_find?_id {peers : List Peer} {p : Peer} (hp : p ∈ peers) :
    ∃ q, peers.find? (fun q => q.id = p.id) = some q := by
  rw [← Option.isSome_iff_exists, List.find?_isSome]
  exact ⟨p, hp, decide_eq_true rfl⟩

theorem SampleKind.text_eq (k : SampleKind) :
    toString k.number.toNat = String.singleton (match k with | rttTotal => '1' | rttRequest => '2') := by
  cases k <;> decide

/-- Two edges have one text exactly when the names of each, written one after the other, agree. -/
theorem SampleId.composite_eq_iff {a b a' b' : String} {k k' : SampleKind} :
    composite a b k = composite a' b' k' ↔ a ++ b = a' ++ b' ∧ k = k' := by
  constructor
  · intro h
    simp only [composite, SampleKind.text_eq] at h
    have hl := congrArg String.toList h
    simp only [String.toList_append, String.toList_singleton] at hl
    obtain ⟨hs, hk⟩ := List.append_singleton_inj.1 hl
    refine ⟨String.toList_inj.1 (by simpa using hs), ?_⟩
    cases k <;> cases k' <;> first | rfl | exact absurd hk (by decide)
  · rintro ⟨h, rfl⟩
    simp only [composite, h]

end PeerMesh
