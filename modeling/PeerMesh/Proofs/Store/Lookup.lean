import PeerMesh.Membership.Answering
import PeerMesh.Membership.Joining
import Mathlib.Data.List.Nodup

/-!
# Look-ups in a store

* `Table.get?_eq_some` : a look-up finds exactly the entries, so it does not see their order
  (`Table.Reordered.get?`);
* `Profile.store_answerJoin` : what an answer to a joiner does to the store;
* `Store.merged` : what a record turns into when it is put in, field by field;
* `Store.node?_putNode`, `Store.node?_addNode`, `Store.node?_setHealth`, `Store.node?_hear` : the record
  of an id after each change of the node table;
* `Store.putPeers`, `Profile.told` : records of peers, put in one after another; those that the answer to an attempt to
  join tells of (`Profile.adopt_eq`);
* `Store.Keyed` : every record is kept under its own id. Whatever a node answers keeps it so
  (`Store.Keyed.answer`).
-/

namespace PeerMesh

namespace Table

variable {κ α : Type}

def Reordered (s t : Table κ α) : Prop := s.entries.Perm t.entries

theorem Reordered.mem_values {s t : Table κ α} (h : s.Reordered t) {v : α} :
    v ∈ s.values ↔ v ∈ t.values :=
  (h.map Prod.snd).mem_iff

variable [DecidableEq κ]

theorem get?_eq_some {t : Table κ α} {k : κ} {v : α} : t.get? k = some v ↔ (k, v) ∈ t.entries := by
  unfold get?
  rw [Option.map_eq_some_iff]
  constructor
  · rintro ⟨e, he, rfl⟩
    have hk : e.1 = k := by simpa using List.find?_some he
    rw [← hk]
    exact List.mem_of_find?_eq_some he
  · intro h
    cases hf : t.entries.find? (fun e => e.1 = k) with
    | none =>
      have hne := List.find?_eq_none.1 hf _ h
      exact absurd (decide_eq_true rfl) hne
    | some e =>
      have hk : e.1 = k := by simpa using List.find?_some hf
      have he := List.inj_on_of_nodup_map t.nodup (List.mem_of_find?_eq_some hf) h hk
      exact ⟨e, rfl, by rw [he]⟩

theorem Reordered.get? {s t : Table κ α} (h : s.Reordered t) (k : κ) : s.get? k = t.get? k := by
  refine Option.ext fun v => ?_
  rw [get?_eq_some, get?_eq_some]
  exact h.mem_iff

theorem mem_values {t : Table κ α} {v : α} : v ∈ t.values ↔ ∃ k, t.get? k = some v := by
  simp only [values, get?_eq_some, List.mem_map, Prod.exists, exists_eq_right]

theorem values_insert {t : Table κ α} {k : κ} (h : k ∉ t.keys) (v : α) : (t.insert k v).values = t.values ++ [v] := by
  unfold insert
  rw [dif_neg h]
  exact List.map_append

theorem modify_eq {t : Table κ α} {k : κ} {f : α → α} (h : ∀ v, t.get? k = some v → f v = v) : t.modify k f = t := by
  apply ext
  show (t.entries.map fun e => if e.1 = k then (e.1, f e.2) else e) = t.entries
  conv_rhs => rw [← List.map_id t.entries]
  refine List.map_congr_left fun e he => ?_
  split
  · rename_i hk
    rw [h e.2 (get?_eq_some.2 (hk ▸ he))]
    rfl
  · rfl

theorem entries_modify {t : Table κ α} {k : κ} {v : α} {before after : List (κ × α)}
    (h : t.entries = before ++ (k, v) :: after) (f : α → α) :
    (t.modify k f).entries = before ++ (k, f v) :: after := by
  have hnodup := t.nodup
  rw [h, List.map_append, List.map_cons, List.nodup_append, List.nodup_cons] at hnodup
  obtain ⟨-, ⟨hafter, -⟩, hbefore⟩ := hnodup
  have hother : ∀ es : List (κ × α), (∀ e ∈ es, e.1 ≠ k) → (es.map fun e => if e.1 = k then (e.1, f e.2) else e) = es := by
    intro es hes
    conv_rhs => rw [← List.map_id es]
    exact List.map_congr_left fun e he => if_neg (hes e he)
  show t.entries.map _ = _
  rw [h, List.map_append, List.map_cons, if_pos rfl, hother before, hother after]
  · intro e he hk
    exact hafter (hk ▸ List.mem_map_of_mem he : k ∈ after.map Prod.fst)
  · intro e he
    exact hbefore e.1 (List.mem_map_of_mem he) k List.mem_cons_self

theorem insert_of_get? {t : Table κ α} {k : κ} {v : α} (h : t.get? k = some v) : t.insert k v = t := by
  have hk : k ∈ t.keys := List.mem_map_of_mem (get?_eq_some.1 h)
  unfold insert
  rw [dif_pos hk]
  exact modify_eq fun w hw => Option.some.inj (h.symm.trans hw)

theorem contains_eq_true {t : Table κ α} {k : κ} : t.contains k = true ↔ ∃ v, t.get? k = some v := by
  rw [contains, Option.isSome_iff_exists]

theorem contains_eq_false {t : Table κ α} {k : κ} : t.contains k = false ↔ t.get? k = none := by
  rw [contains, Option.isSome_eq_false_iff, Option.isNone_iff_eq_none]

end Table

/-- The store changes with the answer to a joiner only if that one is let in. -/
theorem Profile.store_answerJoin (me : Profile) (joiner : Peer) (s : Store) :
    (me.answerJoin joiner s).2.1 = if (me.answerJoin joiner s).1.nameUnique then s.letIn joiner else s := by
  unfold answerJoin
  cases me.nameTaken joiner s with
  | true => rfl
  | false => rfl

namespace Store

theorem mem_nodes {s : Store} {n : Node} : n ∈ s.nodes ↔ ∃ id, s.node? id = some n := Table.mem_values

/-! ## Changes of the node table -/

/-- What a record turns into when it is put in: a known id keeps its address. -/
def merged (s : Store) (n : Node) : Node :=
  match s.node? n.id with
  | some old => { old with name := n.name, health := n.health, changedAt := n.changedAt }
  | none => n

@[simp] theorem name_merged (s : Store) (n : Node) : (s.merged n).name = n.name := by
  unfold merged
  cases s.node? n.id with
  | none => rfl
  | some old => rfl

@[simp] theorem health_merged (s : Store) (n : Node) : (s.merged n).health = n.health := by
  unfold merged
  cases s.node? n.id with
  | none => rfl
  | some old => rfl

@[simp] theorem changedAt_merged (s : Store) (n : Node) : (s.merged n).changedAt = n.changedAt := by
  unfold merged
  cases s.node? n.id with
  | none => rfl
  | some old => rfl

theorem target_merged (s : Store) (n : Node) :
    (s.merged n).target = ((s.node? n.id).map Node.target).getD n.target := by
  unfold merged
  cases s.node? n.id with
  | none => rfl
  | some old => rfl

theorem node?_putNode (s : Store) (n : Node) (id : NodeId) :
    (s.putNode n).node? id = if id = n.id then some (s.merged n) else s.node? id := by
  unfold putNode merged node?
  cases hg : s.nodeTable.get? n.id with
  | none => simp only [Table.contains, hg, Option.isSome_none, Bool.false_eq_true, if_false, Table.get?_insert]
  | some old =>
    simp only [Table.contains, hg, Option.isSome_some, if_true, Table.get?_modify]
    split
    · rename_i h
      rw [h, hg, Option.map_some]
    · rfl

theorem node?_addNode (s : Store) (n : Node) (id : NodeId) :
    (s.addNode n).2.node? id = if id = n.id then some ((s.node? n.id).getD n) else s.node? id := by
  unfold addNode node?
  cases hg : s.nodeTable.get? n.id with
  | none =>
    simp only [Table.contains, hg, Option.isSome_none, Bool.false_eq_true, if_false, Table.get?_insert,
      Option.getD_none]
  | some old =>
    simp only [Table.contains, hg, Option.isSome_some, if_true, Option.getD_some]
    split
    · rename_i h
      rw [h, hg]
    · rfl

theorem node?_setHealth (s : Store) (k : NodeId) (health : Health) (now : Int64) (id : NodeId) :
    (s.setHealth k health now).2.node? id =
      if id = k then
        (s.node? id).map fun n => if n.health = health then n else { n with health, changedAt := now }
      else s.node? id :=
  Table.get?_modify _ _ _ _

theorem node?_hear (s : Store) (now : Int64) (sender : Peer) (id : NodeId) :
    (s.hear now sender).node? id =
      if id = sender.id then
        some (match s.node? sender.id with
          | some n => if n.health = .ok then n else { n with health := .ok, changedAt := now }
          | none => .ofPeer sender .ok)
      else s.node? id := by
  unfold hear
  split
  · rename_i t h
    obtain ⟨hc, rfl⟩ : s.nodeTable.contains sender.id = true ∧ (s.setHealth sender.id .ok now).2 = t :=
      ⟨congrArg Prod.fst h, congrArg Prod.snd h⟩
    obtain ⟨n, hn⟩ := Table.contains_eq_true.1 hc
    rw [node?_setHealth]
    split
    · rename_i hid
      rw [hid, node?, hn, Option.map_some]
    · rfl
  · rename_i t h
    obtain ⟨hc, rfl⟩ : s.nodeTable.contains sender.id = false ∧ (s.setHealth sender.id .ok now).2 = t :=
      ⟨congrArg Prod.fst h, congrArg Prod.snd h⟩
    have hn : s.node? sender.id = none := Table.contains_eq_false.1 hc
    have hid : (Node.ofPeer sender .ok).id = sender.id := rfl
    rw [node?_addNode, hid, node?_setHealth, node?_setHealth, if_pos rfl, hn]
    split
    · rfl
    · rfl

/-- Records of peers that are well, put in one after another. -/
def putPeers (s : Store) (peers : List Peer) : Store := peers.foldl (fun s p => s.putNode (.ofPeer p .ok)) s

@[simp] theorem putPeers_nil (s : Store) : s.putPeers [] = s := rfl

theorem putPeers_cons (s : Store) (p : Peer) (peers : List Peer) :
    s.putPeers (p :: peers) = (s.putNode (.ofPeer p .ok)).putPeers peers := rfl

/-! ## Records under their own ids -/

/-- Every record is kept under its own id. -/
def Keyed (s : Store) : Prop := ∀ id n, s.node? id = some n → n.id = id

namespace Keyed

variable {s : Store}

theorem empty : Keyed {} := fun _ _ h => by cases h

theorem merged_id (hs : s.Keyed) (n : Node) : (s.merged n).id = n.id := by
  unfold merged
  split
  · rename_i old h
    have hold : old.id = n.id := hs _ _ h
    exact hold
  · rfl

theorem putNode (hs : s.Keyed) (n : Node) : (s.putNode n).Keyed := by
  intro id m h
  rw [node?_putNode] at h
  split at h
  · rename_i hid
    cases h
    rw [hs.merged_id, hid]
  · exact hs id m h

theorem addNode (hs : s.Keyed) (n : Node) : (s.addNode n).2.Keyed := by
  intro id m h
  rw [node?_addNode] at h
  split at h
  · rename_i hid
    cases hg : s.node? n.id with
    | none =>
      rw [hg] at h
      cases h
      exact hid.symm
    | some old =>
      rw [hg, Option.getD_some] at h
      cases h
      rw [hid, hs _ _ hg]
  · exact hs id m h

theorem hear (hs : s.Keyed) (now : Int64) (sender : Peer) : (s.hear now sender).Keyed := by
  intro id m h
  rw [node?_hear] at h
  split at h
  · rename_i hid
    cases hg : s.node? sender.id with
    | none =>
      rw [hg] at h
      cases h
      exact hid.symm
    | some n =>
      have hn := hs _ _ hg
      simp only [hg, Option.some.injEq] at h
      subst h
      split
      · rw [hid, hn]
      · rw [hid, hn]
  · exact hs id m h

theorem meet (hs : s.Keyed) (me : Profile) (peer : Peer) : (me.meet peer s).Keyed := by
  unfold Profile.meet
  split
  · exact hs
  · exact hs.addNode _

theorem takeOver (hs : s.Keyed) (me : Profile) (readings : List Reading) : (me.takeOver readings s).Keyed := by
  unfold Profile.takeOver
  induction readings.filter (fun r => r.source ≠ me.name) generalizing s with
  | nil => exact hs
  | cons r rs ih => exact ih hs

theorem answer (hs : s.Keyed) (me : Profile) (now : Int64) (request : Request) :
    (me.answer now request s).2.1.Keyed := by
  cases request with
  | joinMesh joiner =>
    show (me.answerJoin joiner s).2.1.Keyed
    rw [Profile.store_answerJoin]
    split
    · exact hs.putNode _
    · exact hs
  | ping sender => exact hs.hear now sender
  | nodeDiscovery word => exact (hs.meet me word.newcomer).meet me word.announcer
  | pushSamples readings => exact hs.takeOver me readings
  | rtt => exact hs

end Keyed

end Store

namespace Profile

/-! ## Peers that an answer tells of -/

def told (me : Profile) (candidate : String) (reply : JoinReply) : List Peer :=
  ⟨reply.responder, candidate⟩ :: reply.nodes.filter fun p => p.id ≠ me.id

theorem mem_told {me : Profile} {candidate : String} {reply : JoinReply} {p : Peer} :
    p ∈ me.told candidate reply ↔ p = ⟨reply.responder, candidate⟩ ∨ p ∈ reply.nodes ∧ p.id ≠ me.id := by
  simp only [told, List.mem_cons, List.mem_filter, decide_eq_true_eq]

theorem adopt_eq (me : Profile) (candidate : String) (reply : JoinReply) (s : Store) :
    me.adopt candidate reply s = s.putPeers (me.told candidate reply) := rfl

end Profile

end PeerMesh
