import PeerMesh.Membership.Joining
import PeerMesh.Proofs.Membership.NameCheck
import PeerMesh.Proofs.Store.Readings

/-!
# Stores that differ in health only

* `Node.face` : the part of a record that a node acts upon when it deals with others;
* `Store.Twins` : stores with the same records, in the same order, but for health and moments of change, and with the
  same samples;
* `Store.Twins.putNode`, `Store.Twins.addNode`, `Store.Twins.setHealth` : single changes of both stores;
* `Store.Twins.reordered` : twins whose tables are walked in one other order;
* `Store.Twins.answer`, `Store.Twins.adopt` : both answer a request alike, and learn the same from a member.
-/

namespace PeerMesh

/-- The values of a table are what is found under its keys. -/
theorem Table.map_some_values {κ α : Type} [DecidableEq κ] (t : Table κ α) : t.values.map some = t.keys.map t.get? := by
  unfold values keys
  rw [List.map_map, List.map_map]
  exact List.map_congr_left fun e he => (get?_eq_some.2 he).symm

theorem rel_of_map_eq {α β : Type} {f : α → β} {x y : Option α} (h : x.map f = y.map f) :
    Option.Rel (fun a b => f a = f b) x y := by
  cases x with
  | none =>
    cases y with
    | none => exact .none
    | some b => cases h
  | some a =>
    cases y with
    | none => cases h
    | some b => exact .some (Option.some.inj h)

theorem Table.eq_of_get? {κ α : Type} [DecidableEq κ] {s t : Table κ α} (hkeys : s.keys = t.keys)
    (hget : ∀ k, s.get? k = t.get? k) : s = t := by
  have hentries : ∀ t : Table κ α, t.entries.map some = t.keys.map fun k => (t.get? k).map (Prod.mk k) := by
    intro t
    unfold keys
    rw [List.map_map]
    refine List.map_congr_left fun e he => ?_
    have hfound : t.get? e.1 = some e.2 := get?_eq_some.2 he
    simp only [Function.comp_apply, hfound, Option.map_some]
  have hsome : s.entries.map some = t.entries.map some := by
    rw [hentries, hentries, hkeys]
    simp only [hget]
  exact Table.ext ((List.map_inj_right fun _ _ => Option.some.inj).1 hsome)

/-- The id of a record, and what other nodes are told of it. -/
def Node.face (n : Node) : NodeId × Peer := (n.id, n.toPeer)

namespace Store

theorem keys_putNode (s : Store) (n : Node) :
    (s.putNode n).nodeTable.keys = if n.id ∈ s.nodeTable.keys then s.nodeTable.keys else s.nodeTable.keys ++ [n.id] := by
  unfold putNode
  by_cases hid : n.id ∈ s.nodeTable.keys
  · have hcontains : s.nodeTable.contains n.id = true := Table.isSome_get?.2 hid
    simp only [hcontains, if_true, Table.keys_modify, if_pos hid]
  · have hcontains : ¬s.nodeTable.contains n.id = true := fun h => hid (Table.isSome_get?.1 h)
    simp only [if_neg hcontains, Table.keys_insert]

theorem keys_addNode (s : Store) (n : Node) :
    (s.addNode n).2.nodeTable.keys =
      if n.id ∈ s.nodeTable.keys then s.nodeTable.keys else s.nodeTable.keys ++ [n.id] := by
  unfold addNode
  by_cases hid : n.id ∈ s.nodeTable.keys
  · have hcontains : s.nodeTable.contains n.id = true := Table.isSome_get?.2 hid
    simp only [hcontains, if_true, if_pos hid]
  · have hcontains : ¬s.nodeTable.contains n.id = true := fun h => hid (Table.isSome_get?.1 h)
    simp only [if_neg hcontains, Table.keys_insert]

theorem sampleTable_addNode (s : Store) (n : Node) : (s.addNode n).2.sampleTable = s.sampleTable := by
  unfold addNode
  split
  · rfl
  · rfl

/-- The same ids in the same order, with the same names and targets, and the same samples. -/
structure Twins (s t : Store) : Prop where
  keys : s.nodeTable.keys = t.nodeTable.keys
  node? : ∀ id, (s.node? id).map Node.face = (t.node? id).map Node.face
  sampleTable : s.sampleTable = t.sampleTable

namespace Twins

variable {s t : Store}

theorem refl (s : Store) : s.Twins s := ⟨rfl, fun _ => rfl, rfl⟩

theorem symm (h : s.Twins t) : t.Twins s := ⟨h.keys.symm, fun id => (h.node? id).symm, h.sampleTable.symm⟩

theorem trans {u : Store} (h : s.Twins t) (h' : t.Twins u) : s.Twins u :=
  ⟨h.keys.trans h'.keys, fun id => (h.node? id).trans (h'.node? id), h.sampleTable.trans h'.sampleTable⟩

theorem reordered (h : s.Twins t) {s' t' : Store} (hs : s.Reordered s') (ht : t.Reordered t')
    (hkeys : s'.nodeTable.keys = t'.nodeTable.keys) (hsamples : s'.sampleTable.keys = t'.sampleTable.keys) :
    s'.Twins t' where
  keys := hkeys
  node? id := by
    have hs' : s'.node? id = s.node? id := (hs.nodeTable.get? id).symm
    have ht' : t'.node? id = t.node? id := (ht.nodeTable.get? id).symm
    rw [hs', ht', h.node?]
  sampleTable := Table.eq_of_get? hsamples fun k => by
    rw [← hs.sampleTable.get?, ← ht.sampleTable.get?, h.sampleTable]

theorem contains (h : s.Twins t) (id : NodeId) : s.nodeTable.contains id = t.nodeTable.contains id := by
  have hsome := congrArg Option.isSome (h.node? id)
  rw [Option.isSome_map, Option.isSome_map] at hsome
  exact hsome

theorem faces (h : s.Twins t) : s.nodes.map Node.face = t.nodes.map Node.face := by
  have hface : ∀ s : Store, (s.nodes.map Node.face).map some = s.nodeTable.keys.map fun id => (s.node? id).map Node.face := by
    intro s
    have hnodes : s.nodes.map some = s.nodeTable.keys.map s.node? := s.nodeTable.map_some_values
    calc (s.nodes.map Node.face).map some = (s.nodes.map some).map (Option.map Node.face) := by
          rw [List.map_map, List.map_map]
          rfl
      _ = _ := by
          rw [hnodes, List.map_map]
          rfl
  have hsome : (s.nodes.map Node.face).map some = (t.nodes.map Node.face).map some := by
    rw [hface, hface, h.keys]
    exact List.map_congr_left fun id _ => h.node? id
  exact (List.map_inj_right fun _ _ => Option.some.inj).1 hsome

/-! ## Changes of both -/

theorem putNode (h : s.Twins t) {n n' : Node} (hn : n.face = n'.face) : (s.putNode n).Twins (t.putNode n') where
  keys := by
    have hid : n.id = n'.id := congrArg Prod.fst hn
    rw [keys_putNode, keys_putNode, h.keys, hid]
  node? id := by
    have hid : n.id = n'.id := congrArg Prod.fst hn
    have hname : n.name = n'.name := congrArg (fun x => x.2.name) hn
    have hmerged : (s.merged n).face = (t.merged n').face := by
      have hold := rel_of_map_eq (h.node? n'.id)
      unfold merged
      rw [hid]
      generalize s.node? n'.id = old, t.node? n'.id = old' at hold ⊢
      cases hold with
      | none => exact hn
      | @some old old' hface =>
        have hid' : old.id = old'.id := congrArg Prod.fst hface
        have htarget : old.target = old'.target := congrArg (fun x => x.2.target) hface
        simp only [Node.face, Node.toPeer, hid', htarget, hname]
    rw [node?_putNode, node?_putNode, hid]
    split
    · exact congrArg some hmerged
    · exact h.node? id
  sampleTable := h.sampleTable

theorem addNode (h : s.Twins t) {n n' : Node} (hn : n.face = n'.face) :
    (s.addNode n).1 = (t.addNode n').1 ∧ (s.addNode n).2.Twins (t.addNode n').2 := by
  have hid : n.id = n'.id := congrArg Prod.fst hn
  refine ⟨?_, ?_, fun id => ?_, ?_⟩
  · unfold Store.addNode
    rw [hid, h.contains]
    split
    · rfl
    · rfl
  · rw [keys_addNode, keys_addNode, h.keys, hid]
  · have hold := rel_of_map_eq (h.node? n'.id)
    rw [node?_addNode, node?_addNode, hid]
    split
    · generalize s.node? n'.id = old, t.node? n'.id = old' at hold ⊢
      cases hold with
      | none => exact congrArg some hn
      | some hface => exact congrArg some hface
    · exact h.node? id
  · rw [sampleTable_addNode, sampleTable_addNode, h.sampleTable]

theorem of_setHealth (s : Store) (id : NodeId) (health : Health) (now : Int64) : (s.setHealth id health now).2.Twins s where
  keys := s.nodeTable.keys_modify id _
  node? k := by
    rw [node?_setHealth]
    split
    · rw [Option.map_map]
      congr 1
      funext n
      show (if n.health = health then n else { n with health, changedAt := now }).face = n.face
      split
      · rfl
      · rfl
    · rfl
  sampleTable := rfl

theorem putSample (h : s.Twins t) (x : Sample) : (s.putSample x).Twins (t.putSample x) :=
  ⟨h.keys, h.node?, congrArg (fun samples => samples.insert x.id x) h.sampleTable⟩

theorem samples (h : s.Twins t) : s.samples = t.samples := congrArg Table.values h.sampleTable

theorem setHealth (h : s.Twins t) (id : NodeId) (health health' : Health) (now now' : Int64) :
    (s.setHealth id health now).1 = (t.setHealth id health' now').1 ∧
      (s.setHealth id health now).2.Twins (t.setHealth id health' now').2 :=
  ⟨h.contains id, (of_setHealth s id health now).trans (h.trans (of_setHealth t id health' now').symm)⟩

/-! ## What a node does with requests and answers -/

theorem hear (h : s.Twins t) (now now' : Int64) (sender : Peer) : (s.hear now sender).Twins (t.hear now' sender) := by
  obtain ⟨hknown, htwins⟩ := h.setHealth sender.id .ok .ok now now'
  unfold Store.hear
  cases hs : s.setHealth sender.id .ok now with
  | mk known s₁ =>
    cases ht : t.setHealth sender.id .ok now' with
    | mk known' t₁ =>
      rw [hs, ht] at hknown htwins
      cases hknown
      cases known with
      | true => exact htwins
      | false => exact (htwins.addNode rfl).2

theorem meet (h : s.Twins t) (me : Profile) (peer : Peer) : (me.meet peer s).Twins (me.meet peer t) := by
  unfold Profile.meet
  split
  · exact h
  · exact (h.addNode rfl).2

theorem takeOver (h : s.Twins t) (me : Profile) (readings : List Reading) :
    (me.takeOver readings s).Twins (me.takeOver readings t) := by
  have hput : ∀ readings (s t : Store), s.Twins t → (s.putReadings readings).Twins (t.putReadings readings) := by
    intro readings
    induction readings with
    | nil => exact fun _ _ h => h
    | cons r readings ih =>
      exact fun s t h => ih _ _ (h.putSample (.ofReading r))
  exact hput _ s t h

theorem nodeNamed? (h : s.Twins t) (name : String) :
    (s.nodeNamed? name).map Node.face = (t.nodeNamed? name).map Node.face := by
  have hfind : ∀ s : Store, (s.nodeNamed? name).map Node.face = (s.nodes.map Node.face).find? fun x => x.2.name = name := by
    intro s
    rw [List.find?_map]
    rfl
  rw [hfind, hfind, h.faces]

theorem nameTaken (h : s.Twins t) (me : Profile) (joiner : Peer) : me.nameTaken joiner s = me.nameTaken joiner t := by
  have hnamed := rel_of_map_eq (h.nodeNamed? joiner.name)
  unfold Profile.nameTaken
  generalize s.nodeNamed? joiner.name = holder, t.nodeNamed? joiner.name = holder' at hnamed ⊢
  cases hnamed with
  | none => rfl
  | @some holder holder' hface =>
    have hid : holder.id = holder'.id := congrArg Prod.fst hface
    simp only [hid]

theorem peers (h : s.Twins t) : s.nodes.map Node.toPeer = t.nodes.map Node.toPeer := by
  have hpeers : ∀ s : Store, s.nodes.map Node.toPeer = (s.nodes.map Node.face).map Prod.snd := by
    intro s
    rw [List.map_map]
    rfl
  rw [hpeers, hpeers, h.faces]

theorem notices (h : s.Twins t) (me : Profile) (joiner : Peer) : me.notices joiner s = me.notices joiner t := by
  have hnotices : ∀ s : Store, me.notices joiner s =
      ((s.nodes.map Node.face).filter fun x => x.1 ≠ joiner.id && x.1 ≠ me.id).map fun x => ⟨x.2, joiner⟩ := by
    intro s
    rw [List.filter_map, List.map_map]
    rfl
  rw [hnotices, hnotices, h.faces]

theorem letIn (h : s.Twins t) (joiner : Peer) : (s.letIn joiner).Twins (t.letIn joiner) := h.putNode rfl

theorem answerJoin (h : s.Twins t) (me : Profile) (joiner : Peer) :
    (me.answerJoin joiner s).1 = (me.answerJoin joiner t).1 ∧
      (me.answerJoin joiner s).2.1.Twins (me.answerJoin joiner t).2.1 ∧
      (me.answerJoin joiner s).2.2 = (me.answerJoin joiner t).2.2 := by
  unfold Profile.answerJoin
  rw [h.nameTaken]
  cases me.nameTaken joiner t with
  | true => exact ⟨rfl, h, rfl⟩
  | false =>
    have hin := h.letIn joiner
    exact ⟨congrArg (JoinReply.mk true me.name) hin.peers, hin, hin.notices me joiner⟩

theorem answer (h : s.Twins t) (me : Profile) (now now' : Int64) (request : Request) :
    (me.answer now request s).1 = (me.answer now' request t).1 ∧
      (me.answer now request s).2.1.Twins (me.answer now' request t).2.1 ∧
      (me.answer now request s).2.2 = (me.answer now' request t).2.2 := by
  cases request with
  | joinMesh joiner =>
    obtain ⟨hreply, hrest⟩ := h.answerJoin me joiner
    exact ⟨congrArg Response.joinMesh hreply, hrest⟩
  | ping sender => exact ⟨rfl, h.hear now now' sender, rfl⟩
  | nodeDiscovery word => exact ⟨rfl, (h.meet me word.newcomer).meet me word.announcer, rfl⟩
  | pushSamples readings => exact ⟨rfl, h.takeOver me readings, rfl⟩
  | rtt => exact ⟨rfl, h, rfl⟩

theorem putPeers (h : s.Twins t) (peers : List Peer) : (s.putPeers peers).Twins (t.putPeers peers) := by
  induction peers generalizing s t with
  | nil => exact h
  | cons p peers ih => exact ih (h.putNode rfl)

theorem adopt (h : s.Twins t) (me : Profile) (candidate : String) (reply : JoinReply) :
    (me.adopt candidate reply s).Twins (me.adopt candidate reply t) :=
  h.putPeers (me.told candidate reply)

end Twins

end Store

end PeerMesh
