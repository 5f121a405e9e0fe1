import PeerMesh.Membership.Joining
import PeerMesh.Proofs.Store.Readings

/-!
# Records under ids that follow from them

* `Store.Derived` : every node is kept under the id of its target, and every sample under the id of its edge and kind.
  Hence no target and no edge is recorded twice (`Store.Derived.nodup_targets`, `Store.Derived.nodup_edges`);
* `Store.Keeps` : a change that leaves a derived store derived, and the target of every known node as it is;
* `Store.keeps_answer`, `Store.keeps_adopt` : so does every answer to a request, and what a joiner learns;
* `Store.Derived.removeNode` : a removal takes out one record and changes no other.

Nothing is assumed of the digest. Where two targets share one, the target that came first keeps the id.
-/

namespace PeerMesh

/-- What a sample tells of: who measured whom, and what. -/
def Sample.edge (x : Sample) : String × String × SampleKind := (x.source, x.dest, x.kind)

namespace Store

/-- Every record is kept under its own id, and that id follows from what is recorded. -/
structure Derived (s : Store) : Prop where
  node : ∀ id n, s.node? id = some n → n.id = id ∧ id = .ofTarget n.target
  sample : ∀ id x, s.sample? id = some x → x.id = id ∧ id = .ofEdge x.source x.dest x.kind

namespace Derived

variable {s : Store}

theorem empty : Derived {} where
  node _ _ h := by cases h
  sample _ _ h := by cases h

theorem nodup_targets (hs : s.Derived) : (s.nodes.map Node.target).Nodup := by
  have hkeys : (s.nodes.map Node.target).map NodeId.ofTarget = s.nodeTable.keys := by
    unfold nodes Table.values Table.keys
    rw [List.map_map, List.map_map]
    refine List.map_congr_left fun e he => ?_
    have hnode := hs.node e.1 e.2 (Table.get?_eq_some.2 he)
    exact hnode.2.symm
  apply List.Nodup.of_map NodeId.ofTarget
  rw [hkeys]
  exact s.nodeTable.nodup

theorem nodup_edges (hs : s.Derived) : (s.samples.map Sample.edge).Nodup := by
  have hkeys : (s.samples.map Sample.edge).map (fun e => SampleId.ofEdge e.1 e.2.1 e.2.2) = s.sampleTable.keys := by
    unfold samples Table.values Table.keys
    rw [List.map_map, List.map_map]
    refine List.map_congr_left fun e he => ?_
    have hsample := hs.sample e.1 e.2 (Table.get?_eq_some.2 he)
    exact hsample.2.symm
  apply List.Nodup.of_map fun e => SampleId.ofEdge e.1 e.2.1 e.2.2
  rw [hkeys]
  exact s.sampleTable.nodup

end Derived

/-! ## Changes that keep what is known -/

/-- A change after which every known node is still known, at the same target, and ids follow from the records if they
did so before. -/
structure Keeps (s s' : Store) : Prop where
  derived : s.Derived → s'.Derived
  target : ∀ id n, s.node? id = some n → ∃ n', s'.node? id = some n' ∧ n'.target = n.target

namespace Keeps

theorem refl (s : Store) : s.Keeps s where
  derived h := h
  target _ n h := ⟨n, h, rfl⟩

theorem trans {s t u : Store} (h : s.Keeps t) (h' : t.Keeps u) : s.Keeps u where
  derived hs := h'.derived (h.derived hs)
  target id n hn := by
    obtain ⟨n₁, hn₁, htarget₁⟩ := h.target id n hn
    obtain ⟨n₂, hn₂, htarget₂⟩ := h'.target id n₁ hn₁
    exact ⟨n₂, hn₂, htarget₂.trans htarget₁⟩

theorem foldl {α : Type} {f : Store → α → Store} (hf : ∀ (s : Store) a, s.Keeps (f s a)) (xs : List α) (s : Store) :
    s.Keeps (xs.foldl f s) := by
  induction xs generalizing s with
  | nil => exact refl s
  | cons a xs ih => exact (hf s a).trans (ih (f s a))

end Keeps

theorem keeps_putNode (s : Store) (name target : String) (health : Health) :
    s.Keeps (s.putNode (.new name target health)) where
  derived hs := by
    refine ⟨fun id n h => ?_, hs.sample⟩
    rw [node?_putNode] at h
    split at h
    · rename_i hid
      cases h
      subst hid
      unfold merged
      cases hold : s.node? (Node.new name target health).id with
      | none => exact ⟨rfl, rfl⟩
      | some old => exact hs.node _ old hold
    · exact hs.node id n h
  target id n h := by
    rw [node?_putNode]
    by_cases hid : id = (Node.new name target health).id
    · subst hid
      refine ⟨_, if_pos rfl, ?_⟩
      unfold merged
      rw [h]
    · exact ⟨n, (if_neg hid).trans h, rfl⟩

theorem keeps_addNode (s : Store) (name target : String) (health : Health) :
    s.Keeps (s.addNode (.new name target health)).2 where
  derived hs := by
    refine ⟨fun id n h => ?_, fun id x h => ?_⟩
    · rw [node?_addNode] at h
      split at h
      · rename_i hid
        cases h
        subst hid
        cases hold : s.node? (Node.new name target health).id with
        | none => exact ⟨rfl, rfl⟩
        | some old => exact hs.node _ old hold
      · exact hs.node id n h
    · have hsame : (s.addNode (.new name target health)).2.sampleTable = s.sampleTable := by
        unfold addNode
        split
        · rfl
        · rfl
      unfold sample? at h
      rw [hsame] at h
      exact hs.sample id x h
  target id n h := by
    rw [node?_addNode]
    by_cases hid : id = (Node.new name target health).id
    · subst hid
      refine ⟨_, if_pos rfl, ?_⟩
      rw [h]
      rfl
    · exact ⟨n, (if_neg hid).trans h, rfl⟩

theorem keeps_setHealth (s : Store) (k : NodeId) (health : Health) (now : Int64) :
    s.Keeps (s.setHealth k health now).2 := by
  have hsame : ∀ n : Node,
      (if n.health = health then n else { n with health, changedAt := now }).id = n.id ∧
        (if n.health = health then n else { n with health, changedAt := now }).target = n.target := by
    intro n
    split
    · exact ⟨rfl, rfl⟩
    · exact ⟨rfl, rfl⟩
  refine ⟨fun hs => ⟨fun id n h => ?_, hs.sample⟩, fun id n h => ?_⟩
  · rw [node?_setHealth] at h
    split at h
    · obtain ⟨old, hold, rfl⟩ := Option.map_eq_some_iff.1 h
      rw [(hsame old).1, (hsame old).2]
      exact hs.node id old hold
    · exact hs.node id n h
  · rw [node?_setHealth, h]
    split
    · exact ⟨_, rfl, (hsame n).2⟩
    · exact ⟨n, rfl, rfl⟩

theorem keeps_putSample (s : Store) (r : Reading) : s.Keeps (s.putSample (.ofReading r)) where
  derived hs := by
    refine ⟨hs.node, fun id x h => ?_⟩
    rw [sample?_putSample] at h
    split at h
    · rename_i hid
      cases h
      exact ⟨hid.symm, hid⟩
    · exact hs.sample id x h
  target _ n h := ⟨n, h, rfl⟩

/-! ## What a node does with requests and answers -/

theorem keeps_hear (s : Store) (now : Int64) (sender : Peer) : s.Keeps (s.hear now sender) := by
  have hset := s.keeps_setHealth sender.id .ok now
  unfold hear
  split
  · rename_i t h
    rw [h] at hset
    exact hset
  · rename_i t h
    rw [h] at hset
    exact hset.trans (t.keeps_addNode _ _ _)

theorem keeps_meet (s : Store) (me : Profile) (peer : Peer) : s.Keeps (me.meet peer s) := by
  unfold Profile.meet
  split
  · exact .refl s
  · exact s.keeps_addNode _ _ _

theorem keeps_takeOver (s : Store) (me : Profile) (readings : List Reading) : s.Keeps (me.takeOver readings s) :=
  .foldl keeps_putSample _ s

theorem keeps_answerJoin (s : Store) (me : Profile) (joiner : Peer) : s.Keeps (me.answerJoin joiner s).2.1 := by
  rw [Profile.store_answerJoin]
  split
  · exact s.keeps_putNode _ _ _
  · exact .refl s

theorem keeps_answer (s : Store) (me : Profile) (now : Int64) (request : Request) :
    s.Keeps (me.answer now request s).2.1 := by
  cases request with
  | joinMesh joiner => exact s.keeps_answerJoin me joiner
  | ping sender => exact s.keeps_hear now sender
  | nodeDiscovery word => exact (s.keeps_meet me word.newcomer).trans (keeps_meet _ me word.announcer)
  | pushSamples readings => exact s.keeps_takeOver me readings
  | rtt => exact .refl s

theorem keeps_putPeers (s : Store) (peers : List Peer) : s.Keeps (s.putPeers peers) :=
  .foldl (fun s (p : Peer) => s.keeps_putNode p.name p.target .ok) peers s

theorem keeps_adopt (s : Store) (me : Profile) (candidate : String) (reply : JoinReply) :
    s.Keeps (me.adopt candidate reply s) :=
  s.keeps_putPeers (me.told candidate reply)

/-! ## Removals -/

theorem node?_removeNode (s : Store) (k id : NodeId) :
    (s.removeNode k).2.node? id = if id = k then none else s.node? id :=
  Table.get?_erase _ _ _

theorem Derived.removeNode {s : Store} (hs : s.Derived) (k : NodeId) : (s.removeNode k).2.Derived where
  node id n h := by
    rw [node?_removeNode] at h
    split at h
    · cases h
    · exact hs.node id n h
  sample := hs.sample

end Store

end PeerMesh
