import PeerMesh.Proofs.Membership.NameCheck
import PeerMesh.Proofs.Store.Acquaintance

/-!
# Different names

The name check finds one holder of a name. It is enough for as long as no two records carry the same name.

* `Store.nodup_names_iff` : the names of a table differ when no name is found under two ids;
* `Profile.not_hasNamesake_of_free` : then the check finds every namesake there is;
* `Store.hasNamesake_letIn` : who gets a namesake when a joiner is let in;
* `Store.nodup_names_letIn` : the names differ still when a joiner is let in who has no namesake.
-/

namespace PeerMesh

namespace Store

variable {s : Store} {joiner : Peer}

theorem nodup_names_iff : (s.nodes.map Node.name).Nodup ↔
    ∀ id id' n n', s.node? id = some n → s.node? id' = some n' → n.name = n'.name → id = id' := by
  have hentries : s.nodeTable.entries.Nodup := List.Nodup.of_map Prod.fst s.nodeTable.nodup
  have hnames : s.nodes.map Node.name = s.nodeTable.entries.map fun e => e.2.name := List.map_map
  have hget : ∀ id n, s.node? id = some n ↔ (id, n) ∈ s.nodeTable.entries := fun id n => Table.get?_eq_some
  rw [hnames, List.nodup_map_iff_inj_on hentries]
  constructor
  · intro h id id' n n' hn hn' hname
    exact congrArg Prod.fst (h _ ((hget id n).1 hn) _ ((hget id' n').1 hn') hname)
  · intro h x hx y hy hname
    exact List.inj_on_of_nodup_map s.nodeTable.nodup hx hy
      (h x.1 y.1 x.2 y.2 ((hget _ _).2 hx) ((hget _ _).2 hy) hname)

theorem node?_letIn (s : Store) (joiner : Peer) (id : NodeId) :
    (s.letIn joiner).node? id = if id = joiner.id then some (s.merged (.ofPeer joiner .ok)) else s.node? id :=
  s.node?_putNode _ id

theorem Keyed.letIn (hs : s.Keyed) (joiner : Peer) : (s.letIn joiner).Keyed := hs.putNode _

theorem hasNamesake_iff (hs : s.Keyed) :
    s.HasNamesake joiner ↔ ∃ id n, s.node? id = some n ∧ id ≠ joiner.id ∧ n.name = joiner.name := by
  constructor
  · rintro ⟨n, hn, hid, hname⟩
    obtain ⟨id, hn⟩ := mem_nodes.1 hn
    rw [hs id n hn] at hid
    exact ⟨id, n, hn, hid, hname⟩
  · rintro ⟨id, n, hn, hid, hname⟩
    rw [← hs id n hn] at hid
    exact ⟨n, mem_nodes.2 ⟨_, hn⟩, hid, hname⟩

theorem hasNamesake_letIn (hs : s.Keyed) {other : Peer} (h : (s.letIn other).HasNamesake joiner) :
    s.HasNamesake joiner ∨ other.name = joiner.name ∧ other.id ≠ joiner.id := by
  obtain ⟨id, n, hn, hid, hname⟩ := (hasNamesake_iff (hs.letIn other)).1 h
  rw [node?_letIn] at hn
  split at hn
  · rename_i hother
    cases hn
    rw [name_merged] at hname
    rw [hother] at hid
    exact Or.inr ⟨hname, hid⟩
  · exact Or.inl ((hasNamesake_iff hs).2 ⟨id, n, hn, hid, hname⟩)

theorem nodup_names_letIn (hs : s.Keyed) (hnames : (s.nodes.map Node.name).Nodup) (hfree : ¬s.HasNamesake joiner) :
    ((s.letIn joiner).nodes.map Node.name).Nodup := by
  have hother : ∀ id n, s.node? id = some n → id ≠ joiner.id → n.name ≠ joiner.name :=
    fun id n hn hid hname => hfree ((hasNamesake_iff hs).2 ⟨id, n, hn, hid, hname⟩)
  have hself := s.name_merged (.ofPeer joiner .ok)
  rw [nodup_names_iff] at hnames ⊢
  intro id id' n n' hn hn' hname
  rw [node?_letIn] at hn hn'
  split at hn
  · rename_i hid
    split at hn'
    · rename_i hid'
      rw [hid, hid']
    · rename_i hid'
      cases hn
      exact absurd (hname.symm.trans hself) (hother id' n' hn' hid')
  · rename_i hid
    split at hn'
    · cases hn'
      exact absurd (hname.trans hself) (hother id n hn hid)
    · exact hnames id id' n n' hn hn' hname

end Store

/-- Where the names differ, a joiner whose name is free has no namesake. -/
theorem Profile.not_hasNamesake_of_free {me : Profile} {joiner : Peer} {s : Store} (hs : s.Keyed)
    (hnames : (s.nodes.map Node.name).Nodup) (h : me.nameTaken joiner s = false) : ¬s.HasNamesake joiner := by
  intro hnamesake
  have hmasks : s.Masks joiner := by
    by_contra hno
    have htaken := (nameTaken_iff me joiner s).2 (Or.inr ⟨hnamesake, hno⟩)
    rw [h] at htaken
    cases htaken
  obtain ⟨own, hown, hname⟩ := Option.map_eq_some_iff.1 (hmasks.node? hs)
  obtain ⟨id, n, hn, hid, hname'⟩ := (Store.hasNamesake_iff hs).1 hnamesake
  exact hid (Store.nodup_names_iff.1 hnames id joiner.id n own hn hown (hname'.trans hname.symm))

end PeerMesh
