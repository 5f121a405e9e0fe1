import PeerMesh.Membership.Joining
import PeerMesh.Proofs.Store.Lookup

/-!
# Whom a store knows

Nodes that never ping fill their stores by letting joiners in, by announcements and by the answer to their
own attempt to join. Every record is then one of a healthy peer that has not changed since.

* `Store.Knows` : there is a record under an id (`knows_letIn`, `knows_learn`, `knows_adopt`);
* `Store.Lists` : all records are such, of peers with a given property (`Lists.letIn`, `Lists.learn`,
  `Lists.adopt`).
-/

namespace PeerMesh

namespace Store

def Knows (s : Store) (id : NodeId) : Prop := ∃ n, s.node? id = some n

instance (s : Store) (id : NodeId) : Decidable (s.Knows id) :=
  decidable_of_iff ((s.node? id).isSome = true) Option.isSome_iff_exists

theorem not_knows_empty (id : NodeId) : ¬ Store.Knows {} id := fun ⟨_, h⟩ => by cases h

theorem knows_putNode (s : Store) (n : Node) (id : NodeId) : (s.putNode n).Knows id ↔ id = n.id ∨ s.Knows id := by
  unfold Knows
  rw [node?_putNode]
  split
  · rename_i h
    simp [h]
  · rename_i h
    simp [h]

theorem knows_addNode (s : Store) (n : Node) (id : NodeId) : (s.addNode n).2.Knows id ↔ id = n.id ∨ s.Knows id := by
  unfold Knows
  rw [node?_addNode]
  split
  · rename_i h
    simp [h]
  · rename_i h
    simp [h]

theorem knows_putPeers (peers : List Peer) (s : Store) (id : NodeId) :
    (s.putPeers peers).Knows id ↔ (∃ p ∈ peers, id = p.id) ∨ s.Knows id := by
  induction peers generalizing s with
  | nil => simp
  | cons p peers ih =>
    have hid : (Node.ofPeer p .ok).id = p.id := rfl
    rw [putPeers_cons, ih, knows_putNode, hid]
    simp only [List.mem_cons, exists_eq_or_imp]
    exact or_left_comm.trans or_assoc.symm

theorem knows_letIn (s : Store) (joiner : Peer) (id : NodeId) :
    (s.letIn joiner).Knows id ↔ id = joiner.id ∨ s.Knows id :=
  knows_putNode s (.ofPeer joiner .ok) id

theorem nodes_letIn {s : Store} {joiner : Peer} (h : ¬ s.Knows joiner.id) :
    (s.letIn joiner).nodes = s.nodes ++ [.ofPeer joiner .ok] := by
  have hid : (Node.ofPeer joiner .ok).id = joiner.id := rfl
  have hnone : s.nodeTable.get? joiner.id = none := Option.eq_none_iff_forall_ne_some.2 fun n hn => h ⟨n, hn⟩
  unfold letIn putNode nodes
  rw [hid, if_neg (by rw [Table.contains_eq_false.2 hnone]; exact Bool.false_ne_true)]
  exact Table.values_insert (Table.get?_eq_none.1 hnone) _

end Store

namespace Profile

theorem mem_notices {me : Profile} {joiner : Peer} {s : Store} {n : Notice} :
    n ∈ me.notices joiner s ↔ ∃ x ∈ s.nodes, x.id ≠ joiner.id ∧ x.id ≠ me.id ∧ n = ⟨x.toPeer, joiner⟩ := by
  simp only [Profile.notices, List.mem_map, List.mem_filter, Bool.and_eq_true, decide_eq_true_eq, and_assoc]
  constructor
  · rintro ⟨x, hx, hj, hme, rfl⟩
    exact ⟨x, hx, hj, hme, rfl⟩
  · rintro ⟨x, hx, hj, hme, rfl⟩
    exact ⟨x, hx, hj, hme, rfl⟩

theorem knows_meet (me : Profile) (peer : Peer) (s : Store) (id : NodeId) :
    (me.meet peer s).Knows id ↔ (id = peer.id ∧ peer.id ≠ me.id) ∨ s.Knows id := by
  unfold meet
  split
  · rename_i h
    simp [h]
  · rename_i h
    simp only [h, ne_eq, not_false_iff, and_true]
    exact Store.knows_addNode s (.ofPeer peer .ok) id

theorem knows_learn (me : Profile) (word : Announcement) (s : Store) (id : NodeId) :
    (me.learn word s).Knows id ↔
      (id = word.newcomer.id ∧ word.newcomer.id ≠ me.id) ∨ (id = word.announcer.id ∧ word.announcer.id ≠ me.id) ∨
        s.Knows id := by
  unfold learn
  rw [knows_meet, knows_meet]
  tauto

theorem knows_adopt (me : Profile) (candidate : String) (reply : JoinReply) (s : Store) (id : NodeId) :
    (me.adopt candidate reply s).Knows id ↔
      id = .ofTarget candidate ∨ (∃ p ∈ reply.nodes, p.id ≠ me.id ∧ id = p.id) ∨ s.Knows id := by
  rw [adopt_eq, Store.knows_putPeers]
  simp only [mem_told, or_and_right, exists_or, exists_eq_left, and_assoc, or_assoc]
  rfl

end Profile

namespace Store

/-! ## Records of healthy peers -/

/-- Every record is that of a healthy peer with the property `P`, whose health has never changed. -/
def Lists (s : Store) (P : Peer → Prop) : Prop := ∀ id n, s.node? id = some n → ∃ p, P p ∧ p.id = id ∧ n = .ofPeer p .ok

namespace Lists

variable {s : Store} {P : Peer → Prop}

theorem empty : Lists {} P := fun _ _ h => by cases h

theorem mono {Q : Peer → Prop} (h : s.Lists P) (hPQ : ∀ p, P p → Q p) : s.Lists Q := fun id n hn => by
  obtain ⟨p, hp, hid, rfl⟩ := h id n hn
  exact ⟨p, hPQ p hp, hid, rfl⟩

theorem of_mem (h : s.Lists P) {n : Node} (hn : n ∈ s.nodes) : ∃ p, P p ∧ n = .ofPeer p .ok := by
  obtain ⟨id, hn⟩ := mem_nodes.1 hn
  obtain ⟨p, hp, -, rfl⟩ := h id n hn
  exact ⟨p, hp, rfl⟩

theorem putPeer (h : s.Lists P) {p : Peer} (hp : P p) (hinj : ∀ q, P q → q.id = p.id → q = p) :
    (s.putNode (.ofPeer p .ok)).Lists P := by
  intro id n hn
  have hpid : (Node.ofPeer p .ok).id = p.id := rfl
  rw [node?_putNode, hpid] at hn
  split at hn
  · rename_i hid
    cases hn
    refine ⟨p, hp, hid.symm, ?_⟩
    unfold merged
    rw [hpid]
    split
    · rename_i old hold
      obtain ⟨q, hq, hqid, rfl⟩ := h _ _ hold
      rw [hinj q hq hqid]
    · rfl
  · exact h id n hn

theorem letIn (h : s.Lists P) {joiner : Peer} (hp : P joiner) (hinj : ∀ q, P q → q.id = joiner.id → q = joiner) :
    (s.letIn joiner).Lists P :=
  h.putPeer hp hinj

theorem meet (h : s.Lists P) (me : Profile) {peer : Peer} (hp : peer.id ≠ me.id → P peer) :
    (me.meet peer s).Lists P := by
  unfold Profile.meet
  split
  · exact h
  · rename_i hne
    intro id n hn
    have hpid : (Node.ofPeer peer .ok).id = peer.id := rfl
    rw [node?_addNode, hpid] at hn
    split at hn
    · rename_i hid
      cases hg : s.node? peer.id with
      | none =>
        rw [hg] at hn
        cases hn
        exact ⟨peer, hp hne, hid.symm, rfl⟩
      | some old =>
        rw [hg, Option.getD_some] at hn
        cases hn
        rw [hid]
        exact h _ _ hg
    · exact h id n hn

theorem learn (h : s.Lists P) (me : Profile) {word : Announcement}
    (hn : word.newcomer.id ≠ me.id → P word.newcomer) (ha : word.announcer.id ≠ me.id → P word.announcer) :
    (me.learn word s).Lists P :=
  (h.meet me hn).meet me ha

theorem putPeers (h : s.Lists P) {peers : List Peer} (hp : ∀ p ∈ peers, P p)
    (hinj : ∀ p q, P p → P q → q.id = p.id → q = p) :
    (s.putPeers peers).Lists P := by
  induction peers generalizing s with
  | nil => exact h
  | cons p peers ih =>
    have hpp := hp p List.mem_cons_self
    exact ih (h.putPeer hpp fun q hq => hinj p q hpp hq) fun q hq => hp q (List.mem_cons_of_mem _ hq)

theorem adopt (h : s.Lists P) (me : Profile) {candidate : String} {reply : JoinReply}
    (hc : P ⟨reply.responder, candidate⟩) (hp : ∀ p ∈ reply.nodes, p.id ≠ me.id → P p)
    (hinj : ∀ p q, P p → P q → q.id = p.id → q = p) : (me.adopt candidate reply s).Lists P := by
  rw [Profile.adopt_eq]
  refine h.putPeers (fun p hpm => ?_) hinj
  rcases Profile.mem_told.1 hpm with rfl | ⟨hpm, hne⟩
  · exact hc
  · exact hp p hpm hne

end Lists

end Store

end PeerMesh
