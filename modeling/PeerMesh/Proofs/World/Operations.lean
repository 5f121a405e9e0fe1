import PeerMesh.Proofs.Store.Derived
import PeerMesh.Proofs.World.Changes
import PeerMesh.World.Scripted

/-!
# Records over whole runs

Everything that can be asked of a node, in any order and at the same time, on any network and with any answers.

* `Operation.Change.keeps`, `Operation.only_keeps` : each operation but a removal changes stores only in ways that keep
  targets;
* `World.run_keeps` : so does the whole of it, while nobody else does anything;
* `Crowd.Mindful`, `Crowd.Step.follows` : every move keeps what is known, but for the record that a removal takes out;
* `Crowd.records_derived` : all ids follow from what is recorded, at every moment of every run.
-/

namespace PeerMesh

/-! ## What each operation does -/

/-- An effect that keeps what the store knows, if it changes the store at all. -/
def Effect.Keeps : Effect → Prop
  | store change => ∀ s : Store, s.Keeps (change s)
  | _ => True

/-- What an operation makes of a store keeps what the store knows, unless it is a removal. -/
theorem Operation.Change.keeps {me : Profile} {operation : Operation} {change : Store → Store}
    (h : operation.Change me change) (hremoval : ∀ id, operation ≠ .removeNode id) (s : Store) : s.Keeps (change s) := by
  cases h with
  | nothing => exact .refl s
  | letIn => exact s.keeps_putNode _ _ _
  | answer now => exact s.keeps_answer me now _
  | adopt reply => exact s.keeps_adopt me _ reply
  | measure => exact s.keeps_putSample _
  | setNode => exact s.keeps_putNode _ _ _
  | addNode => exact s.keeps_addNode _ _ _
  | setHealth now => exact s.keeps_setHealth _ _ now
  | removeNode => exact absurd rfl (hremoval _)
  | setSample => exact s.keeps_putSample _

theorem Operation.only_keeps (me : Profile) {operation : Operation} (h : ∀ id, operation ≠ .removeNode id) :
    (operation.activity me).Only Effect.Keeps := by
  refine (operation.only_changes me).mono fun e he => ?_
  cases e with
  | store change => exact fun s => he.keeps h s
  | _ => trivial

/-! ## Whole operations -/

namespace World

variable {σ : Type}

def Keeps (w w' : World σ) : Prop :=
  ∀ i me before, w.node? i = some (me, before) → ∃ after, w'.node? i = some (me, after) ∧ before.Keeps after

theorem Keeps.refl (w : World σ) : w.Keeps w := fun _ _ before h => ⟨before, h, .refl before⟩

theorem Keeps.trans {w₁ w₂ w₃ : World σ} (h : w₁.Keeps w₂) (h' : w₂.Keeps w₃) : w₁.Keeps w₃ := by
  intro i me before hbefore
  obtain ⟨between, hbetween, hkeeps⟩ := h i me before hbefore
  obtain ⟨after, hafter, hkeeps'⟩ := h' i me between hbetween
  exact ⟨after, hafter, hkeeps.trans hkeeps'⟩

variable [Network σ]

theorem keeps_of_alters {w : World σ} {e : Effect} {i j : Nat} {f : Profile → Store → Store} (he : e.Keeps)
    (h : e.Alters w i j f) (me : Profile) (s : Store) : s.Keeps (f me s) := by
  cases h with
  | nothing => exact .refl s
  | own hchange =>
    subst hchange
    exact he s
  | served => exact s.keeps_answer me w.date _

theorem keeps_perform (w : World σ) (i : Nat) (ticket : Ticket) {e : Effect} (he : e.Keeps) :
    w.Keeps (w.perform i ticket e).2 := by
  intro j me before hbefore
  obtain ⟨f, hf, haltered⟩ := w.exists_alters i ticket e j
  unfold Altered at haltered
  rw [hbefore] at haltered
  exact ⟨f me before, haltered, keeps_of_alters he hf me before⟩

theorem keeps_of_only {α : Type} {activity : Activity α} (h : activity.Only Effect.Keeps) (i : Nat) (ticket : Ticket)
    (w : World σ) : w.Keeps (activity.run (answer i ticket) w).2 := by
  induction activity generalizing w with
  | done a => exact .refl w
  | perform e next ih =>
    have hperform := w.keeps_perform i ticket h.1
    unfold Activity.run answer
    rcases he : w.perform i ticket e with ⟨outcome, w'⟩
    rw [he] at hperform
    cases outcome with
    | ready time r => exact hperform.trans (ih r (h.2 r) (w'.waitUntil time))
    | blocked => exact hperform
    | never => exact hperform

theorem run_keeps (w : World σ) (i : Nat) (me : Profile) {operation : Operation}
    (h : ∀ id, operation ≠ .removeNode id) : w.Keeps (w.run i (operation.activity me)).2 :=
  keeps_of_only (operation.only_keeps me h) i _ { w with tickets := w.tickets + 1 }

end World

/-! ## Any number of operations at the same time -/

/-- What a task has yet to do keeps what stores know, or is a removal that has yet to begin. -/
def Activity.Mindful (activity : Activity Unit) : Prop :=
  activity.Only Effect.Keeps ∨ ∃ me id, activity = (Operation.removeNode id).activity me

theorem Operation.mindful_activity (operation : Operation) (me : Profile) : (operation.activity me).Mindful := by
  cases operation with
  | removeNode id => exact Or.inr ⟨me, id, rfl⟩
  | _ => exact Or.inl (Operation.only_keeps me (by nofun))

theorem Activity.Mindful.next {e : Effect} {next : e.Result → Activity Unit} (h : (perform e next).Mindful)
    (r : e.Result) : (next r).Mindful := by
  rcases h with h | ⟨me, id, h⟩
  · exact Or.inl (h.2 r)
  · cases h
    exact Or.inl trivial

namespace Crowd

variable {σ : Type} [Network σ] {s s' : Crowd σ Unit} {m : Move Unit}

def Removes (s : Crowd σ Unit) (m : Move Unit) (i : Nat) (id : NodeId) : Prop :=
  ∃ k t me, m = .go k ∧ s.tasks[k]? = some t ∧ t.member = i ∧ t.rest = (Operation.removeNode id).activity me

theorem Step.follows (h : s.Step m s') (hs : ∀ t ∈ s.tasks, t.rest.Mindful) (j : Nat) :
    s.world.node? j = none ∧ s'.world.node? j = none ∨
      ∃ me before after, s.world.node? j = some (me, before) ∧ s'.world.node? j = some (me, after) ∧
        (before.Keeps after ∨ ∃ id, s.Removes m j id ∧ after = (before.removeNode id).2) := by
  cases hnode : s.world.node? j with
  | none =>
    refine Or.inl ⟨rfl, ?_⟩
    rcases h.exists_alters j with ⟨k, t, e, next, f, -, -, -, -, haltered⟩ | hsame
    · unfold World.Altered at haltered
      rw [haltered, hnode]
      rfl
    · rw [hsame, hnode]
  | some x =>
    obtain ⟨me, before⟩ := x
    refine Or.inr ⟨me, before, ?_⟩
    rcases h.exists_alters j with ⟨k, t, e, next, f, hm, ht, hrest, hf, haltered⟩ | hsame
    · unfold World.Altered at haltered
      rw [hnode] at haltered
      refine ⟨f me before, rfl, haltered, ?_⟩
      have hmindful := hs t (List.mem_of_getElem? ht)
      rw [hrest] at hmindful
      rcases hmindful with honly | ⟨me', id, hremoval⟩
      · exact Or.inl (World.keeps_of_alters honly.1 hf me before)
      · cases hremoval
        cases hf with
        | nothing => exact Or.inl (.refl before)
        | own hchange hj =>
          cases hchange
          exact Or.inr ⟨id, ⟨k, t, me', hm, ht, hj.symm, hrest⟩, rfl⟩
        | served => exact Or.inl (before.keeps_answer me s.world.date _)
    · exact ⟨before, rfl, hsame.trans hnode, Or.inl (.refl before)⟩

/-- A crowd whose stores are derived, and whose tasks keep them so. -/
structure Mindful (s : Crowd σ Unit) : Prop where
  derived : ∀ i me store, s.world.node? i = some (me, store) → store.Derived
  rest : ∀ t ∈ s.tasks, t.rest.Mindful

theorem Mindful.step (hs : s.Mindful) (h : s.Step m s')
    (hm : ∀ i activity, m = .start i activity → ∃ me operation, activity = Operation.activity me operation) :
    s'.Mindful where
  derived j me store hstore := by
    rcases h.follows hs.rest j with ⟨-, hnone⟩ | ⟨me', before, after, hbefore, hafter, hchange⟩
    · rw [hnone] at hstore
      cases hstore
    · cases hafter.symm.trans hstore
      rcases hchange with hkeeps | ⟨id, -, rfl⟩
      · exact hkeeps.derived (hs.derived j me before hbefore)
      · exact (hs.derived j me before hbefore).removeNode id
  rest := by
    refine h.forall_rest (P := fun _ => Activity.Mindful) hs.rest (fun i activity hstart => ?_) fun _ e next hmindful =>
      hmindful.next
    obtain ⟨me, operation, rfl⟩ := hm i activity hstart
    exact operation.mindful_activity me

/-- Operations of nodes at the same time, in every order of their effects and on every network. At every moment each id
follows from what is recorded under it, so that no target and no edge is recorded twice; and every move leaves every
known node at its target, but for one whose record a removal takes out. -/
theorem records_derived {moves : List (Move Unit)}
    (hs : ∀ i me store, s.world.node? i = some (me, store) → store.Derived) (htasks : s.tasks = [])
    (hmoves : ∀ i activity, .start i activity ∈ moves → ∃ me operation, activity = Operation.activity me operation) :
    (∀ r, s.Passes moves r → ∀ i me store, r.world.node? i = some (me, store) →
      store.Derived ∧ (store.nodes.map Node.target).Nodup ∧ (store.samples.map Sample.edge).Nodup) ∧
    ∀ m r r', s.Goes moves m r r' → ∀ i me before, r.world.node? i = some (me, before) →
      ∃ after, r'.world.node? i = some (me, after) ∧ ∀ id n, before.node? id = some n →
        (∃ n', after.node? id = some n' ∧ n'.target = n.target) ∨ r.Removes m i id := by
  have hmindful : ∀ r, s.Passes moves r → r.Mindful := by
    have hfirst : s.Mindful := ⟨hs, by simp [htasks]⟩
    refine fun r hr => hr.induction hfirst fun m r r' hgoes hr => hr.step (step_of_step? hgoes.step?) ?_
    rintro i activity rfl
    exact hmoves i activity hgoes.mem
  refine ⟨fun r hr i me store hstore => ?_, fun m r r' hgoes i me before hbefore => ?_⟩
  · have hderived := (hmindful r hr).derived i me store hstore
    exact ⟨hderived, hderived.nodup_targets, hderived.nodup_edges⟩
  · rcases (step_of_step? hgoes.step?).follows (hmindful r hgoes.passes).rest i with
      ⟨hnone, -⟩ | ⟨me', before', after, hbefore', hafter, hchange⟩
    · rw [hnone] at hbefore
      cases hbefore
    · cases hbefore.symm.trans hbefore'
      refine ⟨after, hafter, fun id n hn => ?_⟩
      rcases hchange with hkeeps | ⟨k, hremoves, rfl⟩
      · exact Or.inl (hkeeps.target id n hn)
      · by_cases hid : id = k
        · subst hid
          exact Or.inr hremoves
        · refine Or.inl ⟨n, ?_, rfl⟩
          rw [Store.node?_removeNode, if_neg hid]
          exact hn

end Crowd

/-- A node on a network with one member, which tells of a node whose target has the digest of its own. -/
def crossed : World ScriptedNetwork where
  members := [{ profile := { name := "a", target := "a:1" } }]
  network := ScriptedNetwork.setRoute {} "hmf:1"
    { calls := ⟨[.now (.respond (.joinMesh ⟨true, "h", [⟨"n", "ntf:1"⟩, ⟨"f", "fnrc:1"⟩]⟩))]⟩ }

/-- A node joins while a peer pings it, is told of other targets with digests that it knows, and then makes room for one
of them. -/
def crossing : List (Crowd.Move Unit) :=
  let operation (o : Operation) : Crowd.Move Unit := .start 0 (o.activity { name := "a", target := "a:1" })
  [operation (.join ["hmf:1"]), operation (.serve (.ping ⟨"j", "ajtr:1"⟩)), .go 0, .go 0, .go 1, .go 0, .go 0, .go 1, .go 0,
    .go 0, .go 1, operation (.setNode "m" "ntf:1" .warning), .go 2, operation (.setSample ⟨"a", "h", .rttTotal, "8", 7⟩),
    .go 3, operation (.removeNode (.ofTarget "hmf:1")), .go 4, operation (.addNode "f" "fnrc:1" .ok), .go 5]

theorem crossing_records :
    NodeId.ofTarget "ntf:1" = .ofTarget "ajtr:1" ∧ NodeId.ofTarget "hmf:1" = .ofTarget "fnrc:1" ∧
      ∃ s' me store, Crowd.run crossing { world := crossed } = some s' ∧ s'.world.node? 0 = some (me, store) ∧
        store.nodes.map Node.toPeer = [⟨"m", "ajtr:1"⟩, ⟨"f", "fnrc:1"⟩] ∧ store.Derived := by
  refine ⟨by decide +kernel, by decide +kernel, ?_⟩
  have hempty : ∀ i me store, crossed.node? i = some (me, store) → store.Derived := by
    intro i me store h
    cases i with
    | zero =>
      cases h
      exact .empty
    | succ i => cases h
  have hmoves : ∀ i activity, .start i activity ∈ crossing →
      ∃ me operation, activity = Operation.activity me operation := by
    intro i activity h
    simp only [crossing, List.mem_cons, Crowd.Move.start.injEq, reduceCtorEq, false_or, or_false, List.not_mem_nil] at h
    rcases h with ⟨-, rfl⟩ | ⟨-, rfl⟩ | ⟨-, rfl⟩ | ⟨-, rfl⟩ | ⟨-, rfl⟩ | ⟨-, rfl⟩ <;> exact ⟨_, _, rfl⟩
  obtain ⟨s', me, store, hrun, hstore, hnodes⟩ : ∃ s' me store, Crowd.run crossing { world := crossed } = some s' ∧
      s'.world.node? 0 = some (me, store) ∧
      store.nodes.map Node.toPeer = [⟨"m", "ajtr:1"⟩, ⟨"f", "fnrc:1"⟩] := ⟨_, _, _, rfl, rfl, by decide +kernel⟩
  refine ⟨s', me, store, hrun, hstore, hnodes, ?_⟩
  exact ((Crowd.records_derived hempty rfl hmoves).1 s' (.mem hrun) 0 me store hstore).1

end PeerMesh
