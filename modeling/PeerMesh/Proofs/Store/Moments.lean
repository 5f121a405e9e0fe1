import PeerMesh.Membership.Joining
import PeerMesh.Proofs.Store.Readings

/-!
# The moments that records tell

A record has the moment of the last change of health. A ping and an operator who tells of a node's health set it with the
health; a joiner that is let in and the nodes that a joiner is told of are put in anew, and then the moment is gone.

* `Node.Marked` : what may become of a record, if every change of health is marked with its moment;
* `Store.Marks` : a change of a store that marks all records, but for those that it renews;
* `Store.marks_answer`, `Store.marks_adopt` : so does every answer to a request, and what a joiner learns.
-/

namespace PeerMesh

/-- What has become of a record at the moment `now`: it is as it was, it is new, or its health has changed, and it tells
the moment. Without a moment no health has changed. -/
inductive Node.Marked (now : Option Int64) : Option Node → Option Node → Prop where
  | same (x : Option Node) : Marked now x x
  | fresh {n : Node} (h : n.changedAt = 0) : Marked now none (some n)
  | turned {n : Node} {health : Health} {moment : Int64} (hnow : now = some moment) (hne : health ≠ n.health) :
      Marked now (some n) (some { n with health, changedAt := moment })

namespace Node.Marked

variable {now : Option Int64} {x y : Option Node} {n n' : Node}

theorem exists_some (h : Marked now (some n) x) : ∃ n', x = some n' := by
  cases h with
  | same => exact ⟨n, rfl⟩
  | turned => exact ⟨_, rfl⟩

theorem changedAt_of_new (h : Marked now none (some n)) : n.changedAt = 0 := by
  cases h with
  | fresh h => exact h

theorem eq_of_health (h : Marked now (some n) (some n')) (hsame : n'.health = n.health) : n' = n := by
  cases h with
  | same => rfl
  | turned _ hne => exact absurd hsame hne

theorem changedAt_of_health (h : Marked now (some n) (some n')) (hne : n'.health ≠ n.health) : now = some n'.changedAt := by
  cases h with
  | same => exact absurd rfl hne
  | turned hnow _ => exact hnow

theorem mono {now' : Option Int64} (h : Marked now x y) (hnow : ∀ moment, now = some moment → now' = some moment) :
    Marked now' x y := by
  cases h with
  | same => exact .same _
  | fresh h => exact .fresh h
  | turned h hne => exact .turned (hnow _ h) hne

theorem trans {z : Option Node} (h : Marked none x y) (h' : Marked none y z) : Marked none x z := by
  cases h with
  | same => exact h'
  | fresh hn =>
    cases h' with
    | same => exact .fresh hn
    | turned hnow _ => cases hnow
  | turned hnow _ => cases hnow

end Node.Marked

namespace Store

/-- A change at the moment `now` after which the records that it renews tell of no moment, and every other change of health
is marked. -/
structure Marks (s s' : Store) (renews : NodeId → Prop) (now : Option Int64) : Prop where
  renewed : ∀ id, renews id → ∃ n, s'.node? id = some n ∧ n.changedAt = 0
  others : ∀ id, ¬renews id → Node.Marked now (s.node? id) (s'.node? id)

abbrev MarksAll (s s' : Store) (now : Option Int64) : Prop := s.Marks s' (fun _ => False) now

namespace Marks

variable {s t u : Store} {renews renews' : NodeId → Prop} {now : Option Int64}

theorem congr (h : s.Marks t renews now) (hiff : ∀ id, renews id ↔ renews' id) : s.Marks t renews' now where
  renewed id hid := h.renewed id ((hiff id).2 hid)
  others id hid := h.others id fun hr => hid ((hiff id).1 hr)

theorem mono {now' : Option Int64} (h : s.Marks t renews now) (hnow : ∀ moment, now = some moment → now' = some moment) :
    s.Marks t renews now' where
  renewed := h.renewed
  others id hid := (h.others id hid).mono hnow

theorem of_not (h : s.MarksAll t now) (hno : ∀ id, ¬renews id) : s.Marks t renews now :=
  h.congr fun id => iff_of_false not_false (hno id)

theorem of_none (h : s.Marks t renews none) (now : Option Int64) : s.Marks t renews now := h.mono nofun

theorem trans (h : s.Marks t renews none) (h' : t.Marks u renews' none) :
    s.Marks u (fun id => renews id ∨ renews' id) none where
  renewed id hid := by
    by_cases hlater : renews' id
    · exact h'.renewed id hlater
    · obtain ⟨n, hn, hzero⟩ := h.renewed id (hid.resolve_right hlater)
      have hmarked := h'.others id hlater
      rw [hn] at hmarked
      generalize hx : u.node? id = x at hmarked
      cases hmarked with
      | same => exact ⟨n, rfl, hzero⟩
      | turned hnow _ => cases hnow
  others id hid := by
    rw [not_or] at hid
    exact (h.others id hid.1).trans (h'.others id hid.2)

end Marks

/-! ## Changes of the node table -/

theorem marksAll_of_eq {s s' : Store} (h : s'.nodeTable = s.nodeTable) (now : Option Int64) : s.MarksAll s' now where
  renewed _ hid := hid.elim
  others id _ := by
    have hsame : s'.node? id = s.node? id := congrArg (fun t => t.get? id) h
    rw [hsame]
    exact .same _

theorem marks_putNode (s : Store) {n : Node} (h : n.changedAt = 0) : s.Marks (s.putNode n) (fun id => n.id = id) none where
  renewed id hid := by
    rw [node?_putNode, if_pos hid.symm]
    exact ⟨s.merged n, rfl, (s.changedAt_merged n).trans h⟩
  others id hid := by
    rw [node?_putNode, if_neg (Ne.symm hid)]
    exact .same _

theorem marksAll_addNode (s : Store) {n : Node} (h : n.changedAt = 0) : s.MarksAll (s.addNode n).2 none where
  renewed _ hid := hid.elim
  others id _ := by
    rw [node?_addNode]
    split
    · rename_i hid
      subst hid
      cases s.node? n.id with
      | none => exact .fresh h
      | some old => exact .same _
    · exact .same _

theorem marksAll_setHealth (s : Store) (k : NodeId) (health : Health) (now : Int64) :
    s.MarksAll (s.setHealth k health now).2 (some now) where
  renewed _ hid := hid.elim
  others id _ := by
    rw [node?_setHealth]
    split
    · cases s.node? id with
      | none => exact .same _
      | some n =>
        by_cases hsame : n.health = health
        · simp only [Option.map_some, if_pos hsame]
          exact .same _
        · simp only [Option.map_some, if_neg hsame]
          exact .turned rfl (Ne.symm hsame)
    · exact .same _

/-! ## What a node does with requests and answers -/

theorem marksAll_hear (s : Store) (now : Int64) (sender : Peer) : s.MarksAll (s.hear now sender) (some now) where
  renewed _ hid := hid.elim
  others id _ := by
    rw [node?_hear]
    split
    · rename_i hid
      subst hid
      cases s.node? sender.id with
      | none => exact .fresh rfl
      | some n =>
        by_cases hok : n.health = .ok
        · simp only [if_pos hok]
          exact .same _
        · simp only [if_neg hok]
          exact .turned rfl (Ne.symm hok)
    · exact .same _

theorem marks_letIn (s : Store) (joiner : Peer) : s.Marks (s.letIn joiner) (fun id => joiner.id = id) none :=
  s.marks_putNode rfl

theorem marksAll_meet (s : Store) (me : Profile) (peer : Peer) : s.MarksAll (me.meet peer s) none := by
  unfold Profile.meet
  split
  · exact marksAll_of_eq rfl none
  · exact s.marksAll_addNode rfl

theorem marksAll_learn (s : Store) (me : Profile) (word : Announcement) : s.MarksAll (me.learn word s) none :=
  ((s.marksAll_meet me word.newcomer).trans (marksAll_meet _ me word.announcer)).congr fun _ => or_self_iff

theorem marks_putPeers (peers : List Peer) (s : Store) :
    s.Marks (s.putPeers peers) (fun id => ∃ p ∈ peers, p.id = id) none := by
  induction peers generalizing s with
  | nil => exact (marksAll_of_eq rfl none).congr (by simp)
  | cons p peers ih =>
    refine ((s.marks_letIn p).trans (ih _)).congr fun id => ?_
    simp only [List.mem_cons, exists_eq_or_imp]

theorem marks_adopt (s : Store) (me : Profile) (candidate : String) (reply : JoinReply) :
    s.Marks (me.adopt candidate reply s) (fun id => .ofTarget candidate = id ∨ ∃ p ∈ reply.nodes, p.id ≠ me.id ∧ p.id = id)
      none := by
  rw [Profile.adopt_eq]
  refine (s.marks_putPeers _).congr fun id => ?_
  simp only [Profile.mem_told, or_and_right, exists_or, exists_eq_left, and_assoc]
  rfl

end Store

/-- Whoever answers the request with the given store renews a record. -/
inductive Request.Renews (me : Profile) (s : Store) (id : NodeId) : Request → Prop where
  | joinMesh {joiner : Peer} (hid : joiner.id = id) (hfree : me.nameTaken joiner s = false) :
      Renews me s id (.joinMesh joiner)

theorem Store.marks_answerJoin (s : Store) (me : Profile) (joiner : Peer) :
    s.Marks (me.answerJoin joiner s).2.1 (fun id => (Request.joinMesh joiner).Renews me s id) none := by
  unfold Profile.answerJoin
  cases hfree : me.nameTaken joiner s with
  | true =>
    refine (marksAll_of_eq rfl none).of_not ?_
    rintro _ ⟨-, hfree'⟩
    rw [hfree] at hfree'
    cases hfree'
  | false =>
    refine (s.marks_letIn joiner).congr fun id => ⟨fun hid => .joinMesh hid hfree, ?_⟩
    rintro ⟨hid, -⟩
    exact hid

theorem Store.marksAll_answer (s : Store) (me : Profile) (now : Int64) {request : Request}
    (h : ∀ joiner, request ≠ .joinMesh joiner) : s.MarksAll (me.answer now request s).2.1 (some now) := by
  cases request with
  | joinMesh joiner => exact absurd rfl (h joiner)
  | ping sender => exact s.marksAll_hear now sender
  | nodeDiscovery word => exact (s.marksAll_learn me word).of_none _
  | pushSamples readings => exact marksAll_of_eq (me.nodeTable_takeOver readings s) _
  | rtt => exact marksAll_of_eq rfl _

theorem Store.marks_answer (s : Store) (me : Profile) (now : Int64) (request : Request) :
    s.Marks (me.answer now request s).2.1 (fun id => request.Renews me s id) (some now) := by
  cases request with
  | joinMesh joiner => exact (s.marks_answerJoin me joiner).of_none _
  | _ => exact Marks.of_not (s.marksAll_answer me now nofun) nofun

end PeerMesh
