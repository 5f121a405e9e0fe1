import PeerMesh.Proofs.Membership.Names

/-!
# Names taken and given back

A node that only serves attempts to join, one after another. Whoever is in can ask again under another name, so a name can
become free, and be taken by a third.

* `Store.putNode_eq` : a record that is there already changes nothing when it is put in again;
* `Store.NamesKept` : no name is in the table twice, and that of the answering node is there under its own id only. One
  attempt to join keeps it so (`Profile.namesKept_answerJoin`);
* `Profile.nameTaken_eq_false_iff` : then the one holder of a name that the check looks at is enough to decide;
* `Admitting` : the stores that such a node comes to, whatever the order of its tables is in between;
* `Admitting.names_unique` : what holds after any number of attempts, of the table, of the next one and of its repetition.
-/

namespace PeerMesh

namespace Store

variable {s t : Store} {me : Profile} {joiner : Peer}

theorem putNode_eq {n old : Node} (h : s.node? n.id = some old) (hname : old.name = n.name) (hhealth : old.health = n.health)
    (hmoment : old.changedAt = n.changedAt) : s.putNode n = s := by
  have hsame : ∀ v, s.nodeTable.get? n.id = some v →
      { v with name := n.name, health := n.health, changedAt := n.changedAt } = v := by
    intro v hv
    cases h.symm.trans hv
    rw [← hname, ← hhealth, ← hmoment]
  unfold putNode
  rw [if_pos (Table.contains_eq_true.2 ⟨old, h⟩), Table.modify_eq hsame]

/-- Whoever is in already is let in again without any change. -/
theorem letIn_letIn (s : Store) (joiner : Peer) : (s.letIn joiner).letIn joiner = s.letIn joiner := by
  have hrecord : (s.letIn joiner).node? joiner.id = some (s.merged (.ofPeer joiner .ok)) :=
    (s.node?_letIn joiner joiner.id).trans (if_pos rfl)
  exact putNode_eq hrecord (s.name_merged _) (s.health_merged _) (s.changedAt_merged _)

/-- Every record is under its own id, no name is there twice, and that of the answering node belongs to nobody else. -/
structure NamesKept (s : Store) (me : Profile) : Prop where
  keyed : s.Keyed
  nodup : (s.nodes.map Node.name).Nodup
  own : ∀ n ∈ s.nodes, n.name = me.name → n.id = me.id

theorem NamesKept.empty (me : Profile) : NamesKept {} me := ⟨.empty, List.nodup_nil, fun _ hn => by cases hn⟩

theorem NamesKept.reordered (hs : s.NamesKept me) (h : s.Reordered t) : t.NamesKept me where
  keyed := hs.keyed.reordered h
  nodup := (((h.nodeTable.map Prod.snd).map Node.name).nodup_iff).1 hs.nodup
  own n hn := hs.own n (h.nodeTable.mem_values.2 hn)

theorem NamesKept.letIn (hs : s.NamesKept me) (hname : ¬s.HasNamesake joiner) (hme : ¬me.IsNamesake joiner) :
    (s.letIn joiner).NamesKept me where
  keyed := hs.keyed.letIn joiner
  nodup := nodup_names_letIn hs.keyed hs.nodup hname
  own n hn hown := by
    obtain ⟨id, hn⟩ := mem_nodes.1 hn
    have hid := hs.keyed.letIn joiner id n hn
    rw [node?_letIn] at hn
    split at hn
    · rename_i hjoiner
      cases hn
      rw [name_merged] at hown
      rw [hid, hjoiner]
      by_contra hne
      exact hme ⟨hown, hne⟩
    · exact hs.own n (mem_nodes.2 ⟨id, hn⟩) hown

/-- Once a joiner is in under a new name, nobody has its old one. -/
theorem NamesKept.name_ne_letIn (hs : s.NamesKept me) {old n : Node} (hold : s.node? joiner.id = some old)
    (hnew : old.name ≠ joiner.name) (hn : n ∈ (s.letIn joiner).nodes) : n.name ≠ old.name := by
  intro hname
  obtain ⟨id, hn⟩ := mem_nodes.1 hn
  rw [node?_letIn] at hn
  split at hn
  · cases hn
    rw [name_merged] at hname
    exact hnew hname.symm
  · rename_i hid
    exact hid (nodup_names_iff.1 hs.nodup id joiner.id n old hn hold hname)

/-- Whoever has just been let in meets nobody else of its name. -/
theorem not_hasNamesake_letIn (hs : s.Keyed) (hname : ¬s.HasNamesake joiner) : ¬(s.letIn joiner).HasNamesake joiner := by
  intro h
  rcases hasNamesake_letIn hs h with h | ⟨-, hid⟩
  · exact hname h
  · exact hid rfl

end Store

namespace Profile

variable {s : Store} {me : Profile}

theorem answerJoin_eq {joiner : Peer} (h : me.nameTaken joiner s = false) : me.answerJoin joiner s =
    (⟨true, me.name, (s.letIn joiner).nodes.map Node.toPeer⟩, s.letIn joiner, me.notices joiner (s.letIn joiner)) := by
  unfold answerJoin
  rw [if_neg (Bool.eq_false_iff.1 h)]

/-- The one holder of a name that the check looks at decides as all the holders would. -/
theorem nameTaken_eq_false_iff (hs : s.NamesKept me) (joiner : Peer) :
    me.nameTaken joiner s = false ↔ ¬s.HasNamesake joiner ∧ ¬me.IsNamesake joiner := by
  constructor
  · intro h
    refine ⟨not_hasNamesake_of_free hs.keyed hs.nodup h, fun hme => ?_⟩
    rw [(nameTaken_iff me joiner s).2 (Or.inl hme)] at h
    cases h
  · rintro ⟨hname, hme⟩
    refine Bool.eq_false_iff.2 fun h => ?_
    rcases (nameTaken_iff me joiner s).1 h with h | ⟨h, -⟩
    · exact hme h
    · exact hname h

theorem nameUnique_iff (hs : s.NamesKept me) (joiner : Peer) :
    (me.answerJoin joiner s).1.nameUnique = true ↔ ¬s.HasNamesake joiner ∧ ¬me.IsNamesake joiner := by
  rw [nameUnique_answerJoin, Bool.not_eq_true', nameTaken_eq_false_iff hs]

theorem namesKept_answerJoin (hs : s.NamesKept me) (joiner : Peer) : (me.answerJoin joiner s).2.1.NamesKept me := by
  rw [store_answerJoin]
  split
  · rename_i hunique
    obtain ⟨hname, hme⟩ := (nameUnique_iff hs joiner).1 hunique
    exact hs.letIn hname hme
  · exact hs

end Profile

/-- The stores of a node that starts with an empty one and does nothing but serve attempts to join, whatever the order of
its tables is in between. -/
inductive Admitting (me : Profile) : Store → Prop where
  | empty : Admitting me {}
  | answer {s : Store} (hs : Admitting me s) (joiner : Peer) : Admitting me (me.answerJoin joiner s).2.1
  | reorder {s t : Store} (hs : Admitting me s) (ht : s.Reordered t) : Admitting me t

theorem Admitting.namesKept {me : Profile} {s : Store} (hs : Admitting me s) : s.NamesKept me := by
  induction hs with
  | empty => exact .empty me
  | answer _ joiner ih => exact Profile.namesKept_answerJoin ih joiner
  | reorder _ ht ih => exact ih.reordered ht

/-- After any number of attempts to join, no two records carry the same name, and that of the answering node belongs to
nobody else. The next joiner is let in if and only if nobody else has its name. Then it has that name, and its old one is
free if it had another; and the same attempt once more has the same answer and changes nothing. -/
theorem Admitting.names_unique {me : Profile} {s : Store} (hs : Admitting me s) :
    (s.nodes.map Node.name).Nodup ∧ (∀ n ∈ s.nodes, n.name = me.name → n.id = me.id) ∧
    ∀ joiner, ((me.answerJoin joiner s).1.nameUnique = true ↔ ¬s.HasNamesake joiner ∧ ¬me.IsNamesake joiner) ∧
      ((me.answerJoin joiner s).1.nameUnique = true →
        (∃ n, (me.answerJoin joiner s).2.1.node? joiner.id = some n ∧ n.name = joiner.name) ∧
        (∀ old, s.node? joiner.id = some old → old.name ≠ joiner.name →
          ∀ n ∈ (me.answerJoin joiner s).2.1.nodes, n.name ≠ old.name) ∧
        me.answerJoin joiner (me.answerJoin joiner s).2.1 = me.answerJoin joiner s) := by
  have hkept := hs.namesKept
  refine ⟨hkept.nodup, hkept.own, fun joiner => ⟨Profile.nameUnique_iff hkept joiner, fun haccepted => ?_⟩⟩
  obtain ⟨hname, hme⟩ := (Profile.nameUnique_iff hkept joiner).1 haccepted
  have hfirst := Profile.answerJoin_eq ((Profile.nameTaken_eq_false_iff hkept joiner).2 ⟨hname, hme⟩)
  have hagain := (Profile.nameTaken_eq_false_iff (hkept.letIn hname hme) joiner).2
    ⟨Store.not_hasNamesake_letIn hkept.keyed hname, hme⟩
  rw [hfirst]
  have hrecord := (s.node?_letIn joiner joiner.id).trans (if_pos rfl)
  refine ⟨⟨_, hrecord, s.name_merged _⟩, fun old hold hnew n hn => hkept.name_ne_letIn hold hnew hn, ?_⟩
  rw [Profile.answerJoin_eq hagain, Store.letIn_letIn]

/-- A name that is taken, until the one that has it asks again under another. -/
theorem Admitting.freedName_taken :
    ∃ (me : Profile) (s t : Store), Admitting me s ∧ s.nodes.map Node.toPeer = [⟨"n", "a:1"⟩] ∧
      (me.answerJoin ⟨"n", "b:1"⟩ s).1.nameUnique = false ∧ (me.answerJoin ⟨"o", "a:1"⟩ s).2.1 = t ∧
      me.answerJoin ⟨"o", "a:1"⟩ t = me.answerJoin ⟨"o", "a:1"⟩ s ∧ (∀ n ∈ t.nodes, n.name ≠ "n") ∧
      (me.answerJoin ⟨"n", "b:1"⟩ t).1.nameUnique = true := by
  have hs : Admitting { name := "m", target := "m:1" } _ := .answer .empty ⟨"n", "a:1"⟩
  have ht := hs.answer ⟨"o", "a:1"⟩
  obtain ⟨-, -, hnext⟩ := Admitting.names_unique hs
  obtain ⟨-, -, hthird⟩ := Admitting.names_unique ht
  obtain ⟨hin, hafter⟩ := hnext ⟨"o", "a:1"⟩
  obtain ⟨-, hfree, hagain⟩ := hafter (hin.2 (by decide))
  refine ⟨_, _, _, hs, rfl, ?_, rfl, hagain, hfree _ rfl (by decide), (hthird ⟨"n", "b:1"⟩).1.2 (by decide)⟩
  exact Bool.eq_false_iff.2 (mt (hnext ⟨"n", "b:1"⟩).1.1 (by decide))

end PeerMesh
