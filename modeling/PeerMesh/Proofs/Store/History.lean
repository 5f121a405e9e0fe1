import PeerMesh.Proofs.Store.Derived
import Mathlib.Data.List.DropRight

/-!
# The history of a node table

* `NodeChange` : the four changes of a node table. `Store.after` makes them one after another;
* `NodeChange.revise`, `Store.node?_after` : what a change makes of the record of one id, and that no other id matters;
* `NodeChange.since`, `NodeChange.insertion?` : what came after the last removal, and how the id got in then;
* `Node.followed` : what a record turns into while it is kept (`NodeChange.foldl_revise_of_kept`). The address stays, the
  last put gives the name, and the moment is that of the last real turn of the health;
* `Store.node_table_of_history` : the table after any changes, read off from the changes alone.
-/

namespace PeerMesh

inductive NodeChange where
  | put (n : Node)
  | add (n : Node)
  /-- The health of a node is told, at some moment. -/
  | turn (id : NodeId) (health : Health) (now : Int64)
  | remove (id : NodeId)
  deriving DecidableEq, Repr, Inhabited

namespace NodeChange

def apply (s : Store) : NodeChange → Store
  | put n => s.putNode n
  | add n => (s.addNode n).2
  | turn id health now => (s.setHealth id health now).2
  | remove id => (s.removeNode id).2

/-! ## What a change says of one id -/

section

variable (id : NodeId)

/-- The record that gets in unless there is one. -/
def inserted? : NodeChange → Option Node
  | put n | add n => if n.id = id then some n else none
  | turn .. | remove _ => none

def put? : NodeChange → Option Node
  | put n => if n.id = id then some n else none
  | add _ | turn .. | remove _ => none

/-- The health that is told, and when. -/
def turned? : NodeChange → Option (Health × Int64)
  | turn k health now => if k = id then some (health, now) else none
  | put _ | add _ | remove _ => none

def removes : NodeChange → Bool
  | remove k => k = id
  | put _ | add _ | turn .. => false

/-- What came after the last removal. -/
def since (changes : List NodeChange) : List NodeChange := changes.rtakeWhile fun c => !c.removes id

/-- The first record that got in, and what came after that. -/
def insertion? : List NodeChange → Option (Node × List NodeChange)
  | [] => none
  | c :: later =>
    match c.inserted? id with
    | some n => some (n, later)
    | none => insertion? later

def lastPut? (changes : List NodeChange) : Option Node := changes.reverse.findSome? (put? id)

/-- What was told of the health since the last put, if there is one. -/
def toldSincePut (changes : List NodeChange) : List (Health × Int64) :=
  (changes.rtakeWhile fun c => (c.put? id).isNone).filterMap (turned? id)

end

/-- The moments at which another health was told than the one before. -/
def realTurns : Health → List (Health × Int64) → List Int64
  | _, [] => []
  | health, (next, now) :: told =>
    if health = next then realTurns health told else now :: realTurns next told

theorem realTurns_concat (health next : Health) (now : Int64) (told : List (Health × Int64)) :
    realTurns health (told ++ [(next, now)]) =
      realTurns health told ++ if (told.map Prod.fst).getLastD health = next then [] else [now] := by
  induction told generalizing health with
  | nil => rfl
  | cons first told ih =>
    obtain ⟨health', now'⟩ := first
    simp only [List.cons_append, realTurns, List.map_cons, List.getLastD_cons, ih]
    split
    · rename_i h
      rw [h]
    · rfl

end NodeChange

/-- What the record `first` of an id turns into while the changes are made. -/
def Node.followed (first : Node) (id : NodeId) (changes : List NodeChange) : Node :=
  let set := (NodeChange.lastPut? id changes).getD first
  let told := NodeChange.toldSincePut id changes
  { first with
    name := set.name
    health := (told.map Prod.fst).getLastD set.health
    changedAt := (NodeChange.realTurns set.health told).getLastD set.changedAt }

namespace NodeChange

/-! ## One id at a time -/

/-- What a change makes of the record of one id. -/
def revise (id : NodeId) (old : Option Node) : NodeChange → Option Node
  | put n =>
    if id = n.id then
      some ((old.map fun m => { m with name := n.name, health := n.health, changedAt := n.changedAt }).getD n)
    else old
  | add n => if id = n.id then some (old.getD n) else old
  | turn k health now =>
    if id = k then old.map fun n => if n.health = health then n else { n with health, changedAt := now } else old
  | remove k => if id = k then none else old

theorem node?_apply (s : Store) (c : NodeChange) (id : NodeId) : (c.apply s).node? id = c.revise id (s.node? id) := by
  cases c with
  | put n =>
    rw [apply, Store.node?_putNode, revise]
    split
    · rename_i hid
      subst hid
      unfold Store.merged
      cases s.node? n.id with
      | none => rfl
      | some old => rfl
    · rfl
  | add n =>
    rw [apply, Store.node?_addNode, revise]
    split
    · rename_i hid
      rw [hid]
    · rfl
  | turn k health now => exact s.node?_setHealth k health now id
  | remove k => exact s.node?_removeNode k id

variable {id : NodeId}

theorem revise_none {c : NodeChange} (h : c.inserted? id = none) : c.revise id none = none := by
  cases c with
  | put n | add n =>
    simp only [inserted?, ite_eq_right_iff, reduceCtorEq, imp_false] at h
    simp only [revise, if_neg (Ne.symm h)]
  | turn k health now => simp only [revise, Option.map_none, ite_self]
  | remove k => simp only [revise, ite_self]

theorem revise_none_of_inserted {c : NodeChange} {n : Node} (h : c.inserted? id = some n) : c.revise id none = some n := by
  cases c with
  | put m | add m =>
    simp only [inserted?, Option.ite_none_right_eq_some, Option.some.injEq] at h
    obtain ⟨hid, rfl⟩ := h
    exact if_pos hid.symm
  | turn k health now | remove k => cases h

/-! ## A record that is kept -/

theorem lastPut?_concat (id : NodeId) (changes : List NodeChange) (c : NodeChange) :
    lastPut? id (changes ++ [c]) = (c.put? id).or (lastPut? id changes) := by
  unfold lastPut?
  rw [List.reverse_concat, List.findSome?_cons]
  cases c.put? id with
  | none => rfl
  | some n => rfl

theorem toldSincePut_concat (id : NodeId) (changes : List NodeChange) (c : NodeChange) :
    toldSincePut id (changes ++ [c]) =
      if (c.put? id).isSome then [] else toldSincePut id changes ++ (c.turned? id).toList := by
  unfold toldSincePut
  rw [List.rtakeWhile_concat]
  cases hput : c.put? id with
  | none =>
    have hlast : [c].filterMap (turned? id) = (c.turned? id).toList := by
      rw [List.filterMap_cons]
      cases c.turned? id with
      | none => rfl
      | some told => rfl
    simp only [Option.isNone_none, if_true, Option.isSome_none, Bool.false_eq_true, if_false, List.filterMap_append, hlast]
  | some n => rfl

end NodeChange

namespace Node

open NodeChange

variable (first : Node) (id : NodeId) (changes : List NodeChange)

theorem followed_concat_of_other {c : NodeChange} (hput : c.put? id = none) (hturned : c.turned? id = none) :
    first.followed id (changes ++ [c]) = first.followed id changes := by
  unfold followed
  rw [lastPut?_concat, toldSincePut_concat, hput, hturned]
  simp

theorem followed_concat_put {n : Node} (hid : n.id = id) :
    first.followed id (changes ++ [.put n]) =
      { first.followed id changes with name := n.name, health := n.health, changedAt := n.changedAt } := by
  have hput : (NodeChange.put n).put? id = some n := if_pos hid
  unfold followed
  rw [lastPut?_concat, toldSincePut_concat, hput]
  rfl

theorem followed_concat_turn (health : Health) (now : Int64) :
    first.followed id (changes ++ [.turn id health now]) =
      if (first.followed id changes).health = health then first.followed id changes
      else { first.followed id changes with health, changedAt := now } := by
  have hput : (NodeChange.turn id health now).put? id = none := rfl
  have hturned : (NodeChange.turn id health now).turned? id = some (health, now) := if_pos rfl
  unfold followed
  rw [lastPut?_concat, toldSincePut_concat, hput, hturned]
  simp only [Option.none_or, Option.isSome_none, Bool.false_eq_true, if_false, Option.toList_some, List.map_append,
    List.map_singleton, List.getLastD_concat, realTurns_concat]
  split
  · rename_i hsame
    rw [List.append_nil, ← hsame]
  · rw [List.getLastD_concat]

end Node

namespace NodeChange

variable {id : NodeId}

/-- While an id is not removed, what is kept of it is what has been followed. -/
theorem foldl_revise_of_kept (first : Node) {changes : List NodeChange} (h : ∀ c ∈ changes, c.removes id = false) :
    changes.foldl (fun old c => c.revise id old) (some first) = some (first.followed id changes) := by
  induction changes using List.reverseRecOn with
  | nil => rfl
  | append_singleton changes c ih =>
    have hbefore := ih fun b hb => h b (List.mem_append_left _ hb)
    have hkept := h c (List.mem_append_right _ List.mem_cons_self)
    rw [List.foldl_concat, hbefore]
    cases c with
    | put n =>
      by_cases hid : n.id = id
      · rw [Node.followed_concat_put _ _ _ hid]
        exact if_pos hid.symm
      · have hput : (NodeChange.put n).put? id = none := if_neg hid
        rw [Node.followed_concat_of_other _ _ _ hput rfl]
        exact if_neg (Ne.symm hid)
    | add n =>
      rw [Node.followed_concat_of_other _ _ _ rfl rfl]
      exact ite_self _
    | turn k health now =>
      by_cases hid : k = id
      · subst hid
        rw [Node.followed_concat_turn]
        exact if_pos rfl
      · have hturned : (NodeChange.turn k health now).turned? id = none := if_neg hid
        rw [Node.followed_concat_of_other _ _ _ rfl hturned]
        exact if_neg (Ne.symm hid)
    | remove k =>
      have hid : k ≠ id := of_decide_eq_false hkept
      rw [Node.followed_concat_of_other _ _ _ rfl rfl]
      exact if_neg (Ne.symm hid)

theorem foldl_revise_since (changes : List NodeChange) :
    changes.foldl (fun old c => c.revise id old) none = (since id changes).foldl (fun old c => c.revise id old) none := by
  unfold since
  induction changes using List.reverseRecOn with
  | nil => rfl
  | append_singleton changes c ih =>
    rw [List.rtakeWhile_concat]
    cases hc : c.removes id with
    | false =>
      rw [if_pos (by rfl), List.foldl_concat, List.foldl_concat, ih]
    | true =>
      rw [if_neg (by decide), List.foldl_concat, List.foldl_nil]
      cases c with
      | remove k => exact if_pos (of_decide_eq_true hc).symm
      | put n | add n | turn k health now => cases hc

theorem foldl_revise_insertion? {changes : List NodeChange} (h : ∀ c ∈ changes, c.removes id = false) :
    changes.foldl (fun old c => c.revise id old) none =
      (insertion? id changes).map fun (first, later) => first.followed id later := by
  induction changes with
  | nil => rfl
  | cons c later ih =>
    have hlater : ∀ b ∈ later, b.removes id = false := fun b hb => h b (List.mem_cons_of_mem _ hb)
    rw [List.foldl_cons, insertion?]
    cases hc : c.inserted? id with
    | none => rw [revise_none hc, ih hlater]
    | some first =>
      rw [revise_none_of_inserted hc, foldl_revise_of_kept first hlater]
      rfl

theorem insertion?_eq_none {changes : List NodeChange} :
    insertion? id changes = none ↔ ∀ c ∈ changes, c.inserted? id = none := by
  induction changes with
  | nil => simp [insertion?]
  | cons c later ih =>
    rw [insertion?, List.forall_mem_cons]
    cases hc : c.inserted? id with
    | none => simp [ih]
    | some first => simp

end NodeChange

namespace Store

open NodeChange

/-! ## The whole table -/

def after (changes : List NodeChange) : Store := changes.foldl NodeChange.apply {}

theorem node?_after (changes : List NodeChange) (id : NodeId) :
    (after changes).node? id = (insertion? id (since id changes)).map fun (first, later) => first.followed id later := by
  have hfold : (after changes).node? id = changes.foldl (fun old c => c.revise id old) none := by
    unfold after
    induction changes using List.reverseRecOn with
    | nil => rfl
    | append_singleton changes c ih => rw [List.foldl_concat, List.foldl_concat, node?_apply, ih]
  have hkept : ∀ c ∈ since id changes, c.removes id = false := by
    intro c hc
    have hnot := List.mem_rtakeWhile_imp hc
    simpa using hnot
  rw [hfold, foldl_revise_since, foldl_revise_insertion? hkept]

namespace Keyed

variable {s : Store}

theorem apply (hs : s.Keyed) (c : NodeChange) : (c.apply s).Keyed := by
  cases c with
  | put n => exact hs.putNode n
  | add n => exact hs.addNode n
  | turn k health now =>
    intro id n h
    rw [node?_apply, revise] at h
    split at h
    · obtain ⟨old, hold, rfl⟩ := Option.map_eq_some_iff.1 h
      have hid := hs id old hold
      split
      · exact hid
      · exact hid
    · exact hs id n h
  | remove k =>
    intro id n h
    rw [node?_apply, revise] at h
    split at h
    · cases h
    · exact hs id n h

theorem mem_nodes (hs : s.Keyed) {n : Node} : n ∈ s.nodes ↔ s.node? n.id = some n := by
  rw [Store.mem_nodes]
  constructor
  · rintro ⟨id, h⟩
    rw [hs id n h]
    exact h
  · exact fun h => ⟨n.id, h⟩

theorem nodup_nodes (hs : s.Keyed) : s.nodes.Nodup := by
  have hkeys : s.nodes.map Node.id = s.nodeTable.keys := by
    unfold nodes Table.values Table.keys
    rw [List.map_map]
    exact List.map_congr_left fun e he => hs e.1 e.2 (Table.get?_eq_some.2 he)
  apply List.Nodup.of_map Node.id
  rw [hkeys]
  exact s.nodeTable.nodup

end Keyed

theorem keyed_after (changes : List NodeChange) : (after changes).Keyed := by
  unfold after
  induction changes using List.reverseRecOn with
  | nil => exact Keyed.empty
  | append_singleton changes c ih =>
    rw [List.foldl_concat]
    exact ih.apply c

theorem addNode_inserts {s : Store} {n : Node} : (s.addNode n).1 = true ↔ s.node? n.id = none := by
  unfold addNode node?
  rw [← Table.contains_eq_false]
  cases s.nodeTable.contains n.id with
  | false => exact iff_of_true rfl rfl
  | true => exact iff_of_false Bool.false_ne_true (by decide)

theorem nodesIn_perm (s : Store) : (s.nodesIn .ok ++ s.nodesIn .warning ++ s.nodesIn .notOk).Perm s.nodes := by
  rw [List.perm_iff_count]
  intro n
  have hcount : ∀ health, (s.nodesIn health).count n = if n.health = health then s.nodes.count n else 0 := by
    intro health
    unfold nodesIn
    split
    · rename_i h
      exact List.count_filter (decide_eq_true h)
    · rename_i h
      refine List.count_eq_zero.2 fun hn => h ?_
      exact of_decide_eq_true (List.mem_filter.1 hn).2
  rw [List.count_append, List.count_append, hcount, hcount, hcount]
  cases n.health <;> simp

/-- The node table is what its history says. -/
theorem node_table_of_history (changes : List NodeChange) :
    let s := after changes
    (∀ id, s.node? id = none ↔ ∀ c ∈ since id changes, c.inserted? id = none) ∧
    (∀ id, s.node? id = (insertion? id (since id changes)).map fun (first, later) =>
      let set := (lastPut? id later).getD first
      let told := toldSincePut id later
      { first with
        name := set.name
        health := (told.map Prod.fst).getLastD set.health
        changedAt := (realTurns set.health told).getLastD set.changedAt }) ∧
    (∀ n, (s.addNode n).1 = true ↔ s.node? n.id = none) ∧
    (∀ id health now, (s.setHealth id health now).1 = false ↔ s.node? id = none) ∧
    (∀ n, s.nodes.count n = if s.node? n.id = some n then 1 else 0) ∧
    s.nodeTable.size = s.nodes.length ∧
    (s.nodesIn .ok ++ s.nodesIn .warning ++ s.nodesIn .notOk).Perm s.nodes ∧
    ∀ health n, n ∈ s.nodesIn health ↔ n ∈ s.nodes ∧ n.health = health := by
  have hkeyed := keyed_after changes
  refine ⟨fun id => ?_, fun id => ?_, fun n => ?_, fun id health now => ?_, fun n => ?_, ?_, ?_, fun health n => ?_⟩
  · rw [node?_after, Option.map_eq_none_iff, insertion?_eq_none]
  · exact node?_after changes id
  · exact addNode_inserts
  · exact Table.contains_eq_false
  · rw [hkeyed.nodup_nodes.count]
    exact if_congr hkeyed.mem_nodes rfl rfl
  · exact (Table.length_values _).symm
  · exact nodesIn_perm _
  · exact List.mem_filter.trans (and_congr_right fun _ => decide_eq_true_iff)

/-- A put leaves the address as it is, and a turn to a health that the node has already moves no moment. -/
example :
    (after [.add ⟨⟨1⟩, "a", "a:1", .ok, 3⟩, .put ⟨⟨1⟩, "b", "b:2", .warning, 4⟩, .turn ⟨1⟩ .ok 9,
      .turn ⟨1⟩ .ok 10]).node? ⟨1⟩ = some ⟨⟨1⟩, "b", "a:1", .ok, 9⟩ := by
  decide

end Store

end PeerMesh
