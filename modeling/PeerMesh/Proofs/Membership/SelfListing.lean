import PeerMesh.Proofs.Store.Acquaintance
import PeerMesh.Proofs.World.Operations

/-!
# Whether a node lists itself

An announcement of a node itself is passed over, and so is its own entry in the answer to its attempt to join. Three
more writers put records into the table, and none of them looks whether the id is that of the node itself.

* `Effect.ListsSelf`, `Request.ListsAnswerer` : what makes a node list itself, done by the node or asked by another;
* `Operation.Change.discreet` : nothing else does, in any operation but those by which an operator writes a record;
* `Crowd.Step.knows_self_iff` : what one move makes of it;
* `Crowd.lists_self_iff` : a node lists itself exactly when it has heard a ping from its own address, has let in a joiner
  at its own address, or was let in by a candidate at its own address.
-/

namespace PeerMesh

/-! ## What makes a node list itself -/

/-- The effect of a node on its store puts a record under the id of the node itself. -/
inductive Effect.ListsSelf (me : Profile) : Effect → Prop where
  | hear (now : Int64) {sender : Peer} (h : sender.id = me.id) : ListsSelf me (.store fun s => s.hear now sender)
  | letIn {joiner : Peer} (h : joiner.id = me.id) : ListsSelf me (.store fun s => s.letIn joiner)
  | adopt {candidate : String} (reply : JoinReply) (h : NodeId.ofTarget candidate = me.id) :
      ListsSelf me (.store fun s => me.adopt candidate reply s)

/-- Whoever answers the request with the given store puts a record under its own id. -/
inductive Request.ListsAnswerer (me : Profile) (s : Store) : Request → Prop where
  | ping {sender : Peer} (h : sender.id = me.id) : ListsAnswerer me s (.ping sender)
  | joinMesh {joiner : Peer} (h : joiner.id = me.id) (hfree : me.nameTaken joiner s = false) :
      ListsAnswerer me s (.joinMesh joiner)

/-- The operator of the node writes a record, or takes one out. -/
def Operation.manual : Operation → Bool
  | setNode .. => true
  | addNode .. => true
  | removeNode _ => true
  | _ => false

theorem Store.knows_hear (s : Store) (now : Int64) (sender : Peer) (id : NodeId) :
    (s.hear now sender).Knows id ↔ id = sender.id ∨ s.Knows id := by
  unfold Knows
  rw [node?_hear]
  by_cases hid : id = sender.id
  · rw [if_pos hid]
    exact ⟨fun _ => Or.inl hid, fun _ => ⟨_, rfl⟩⟩
  · rw [if_neg hid]
    exact (or_iff_right hid).symm

theorem Store.knows_setHealth (s : Store) (k : NodeId) (health : Health) (now : Int64) (id : NodeId) :
    (s.setHealth k health now).2.Knows id ↔ s.Knows id := by
  unfold Knows
  rw [node?_setHealth]
  by_cases hid : id = k
  · rw [if_pos hid]
    cases s.node? id with
    | none => simp
    | some n => simp
  · rw [if_neg hid]

namespace Profile

variable {me : Profile}

theorem knows_self_learn (word : Announcement) (s : Store) : (me.learn word s).Knows me.id ↔ s.Knows me.id := by
  rw [knows_learn]
  constructor
  · rintro (⟨h, hne⟩ | ⟨h, hne⟩ | h)
    · exact absurd h.symm hne
    · exact absurd h.symm hne
    · exact h
  · exact fun h => Or.inr (Or.inr h)

theorem knows_self_answer (now : Int64) (request : Request) (s : Store) :
    (me.answer now request s).2.1.Knows me.id ↔ s.Knows me.id ∨ request.ListsAnswerer me s := by
  cases request with
  | joinMesh joiner =>
    show (me.answerJoin joiner s).2.1.Knows me.id ↔ _
    unfold answerJoin
    cases hfree : me.nameTaken joiner s with
    | true =>
      have hno : ¬(Request.joinMesh joiner).ListsAnswerer me s := by
        rintro ⟨⟩
        rename_i hfree'
        rw [hfree] at hfree'
        cases hfree'
      exact (or_iff_left hno).symm
    | false =>
      refine (s.knows_letIn joiner me.id).trans ⟨?_, ?_⟩
      · rintro (hid | h)
        · exact Or.inr (.joinMesh hid.symm hfree)
        · exact Or.inl h
      · rintro (h | h)
        · exact Or.inr h
        · cases h with
          | joinMesh hid => exact Or.inl hid.symm
  | ping sender =>
    refine (s.knows_hear now sender me.id).trans ⟨?_, ?_⟩
    · rintro (hid | h)
      · exact Or.inr (.ping hid.symm)
      · exact Or.inl h
    · rintro (h | h)
      · exact Or.inr h
      · cases h with
        | ping hid => exact Or.inl hid.symm
  | nodeDiscovery word => exact (knows_self_learn word s).trans (or_iff_left nofun).symm
  | pushSamples readings =>
    have hsame : (me.takeOver readings s).Knows me.id ↔ s.Knows me.id := by
      unfold Store.Knows Store.node?
      rw [me.nodeTable_takeOver]
    exact hsame.trans (or_iff_left nofun).symm
  | rtt => exact (or_iff_left nofun).symm

end Profile

theorem Effect.ListsSelf.knows {me : Profile} {change : Store → Store} (h : (Effect.store change).ListsSelf me) (s : Store) :
    (change s).Knows me.id := by
  cases h with
  | hear now hid => exact (s.knows_hear now _ me.id).2 (Or.inl hid.symm)
  | letIn hid => exact (s.knows_letIn _ me.id).2 (Or.inl hid.symm)
  | adopt reply hid => exact (me.knows_adopt _ reply s me.id).2 (Or.inl hid.symm)

/-- An effect that makes the node list itself, or leaves it to that whether the node does. -/
def Effect.Discreet (me : Profile) : Effect → Prop
  | store change => (store change).ListsSelf me ∨ ∀ s, (change s).Knows me.id ↔ s.Knows me.id
  | _ => True

theorem Operation.Change.discreet {me : Profile} {operation : Operation} {change : Store → Store}
    (h : operation.Change me change) (hmanual : operation.manual = false) : (Effect.store change).Discreet me := by
  cases h with
  | nothing => exact Or.inr fun s => Iff.rfl
  | @letIn joiner =>
    by_cases hid : joiner.id = me.id
    · exact Or.inl (.letIn hid)
    · exact Or.inr fun s => (s.knows_letIn joiner me.id).trans (or_iff_right (Ne.symm hid))
  | @answer request now hjoin =>
    cases request with
    | joinMesh joiner => exact absurd rfl (hjoin joiner)
    | ping sender =>
      by_cases hid : sender.id = me.id
      · exact Or.inl (.hear now hid)
      · exact Or.inr fun s => (s.knows_hear now sender me.id).trans (or_iff_right (Ne.symm hid))
    | _ => exact Or.inr fun s => (Profile.knows_self_answer now _ s).trans (or_iff_left nofun)
  | @adopt candidates candidate reply _ =>
    by_cases hid : NodeId.ofTarget candidate = me.id
    · exact Or.inl (.adopt reply hid)
    · refine Or.inr fun s => (me.knows_adopt candidate reply s me.id).trans ⟨?_, fun h => Or.inr (Or.inr h)⟩
      rintro (h | ⟨p, -, hne, h⟩ | h)
      · exact absurd h.symm hid
      · exact absurd h.symm hne
      · exact h
  | measure => exact Or.inr fun s => Iff.rfl
  | setHealth now => exact Or.inr fun s => s.knows_setHealth _ _ now me.id
  | setSample => exact Or.inr fun s => Iff.rfl
  | setNode => cases hmanual
  | addNode => cases hmanual
  | removeNode => cases hmanual

theorem Operation.only_discreet (me : Profile) {operation : Operation} (h : operation.manual = false) :
    (operation.activity me).Only (Effect.Discreet me) := by
  refine (operation.only_changes me).mono fun e he => ?_
  cases e with
  | store change => exact he.discreet h
  | _ => trivial

/-! ## Whole runs -/

namespace Crowd

variable {σ : Type} [Network σ] {s s' : Crowd σ Unit} {m : Move Unit} {i : Nat} {me : Profile} {before : Store}

/-- The move makes the node list itself: by an effect of its own, or by one that asks for its answer. -/
def ListsSelf (s : Crowd σ Unit) (m : Move Unit) (i : Nat) (me : Profile) : Prop :=
  ∃ k t e next, m = .go k ∧ s.tasks[k]? = some t ∧ t.rest = .perform e next ∧
    (t.member = i ∧ e.ListsSelf me ∨
      ∃ channel request limit store, e = .call channel request limit ∧
        (Network.call s.world.network channel request).1 = .serve i ∧ s.world.node? i = some (me, store) ∧
        request.ListsAnswerer me store)

def Discreet (s : Crowd σ Unit) (i : Nat) (me : Profile) : Prop :=
  ∀ t ∈ s.tasks, t.member = i → t.rest.Only (Effect.Discreet me)

/-- A node lists itself after a move if it did so before, or the move makes it do so. -/
theorem Step.knows_self_iff (h : s.Step m s') (hs : s.Discreet i me) (hi : s.world.node? i = some (me, before)) :
    ∃ after, s'.world.node? i = some (me, after) ∧ (after.Knows me.id ↔ before.Knows me.id ∨ s.ListsSelf m i me) := by
  have hown : ∀ (_ : Unit) (e : Effect), e.ListsSelf me → ∃ change, e = .store change := by
    intro _ e he
    cases he <;> exact ⟨_, rfl⟩
  obtain ⟨after, hafter, hcases⟩ := h.exists_after hi hown fun _ request store => request.ListsAnswerer me store
  refine ⟨after, hafter, ?_⟩
  rcases hcases with ⟨rfl, hno⟩ | ⟨k, t, change, next, -, ht, hrest, hmember, rfl, hcause⟩ |
    ⟨k, t, channel, request, limit, next, -, -, -, rfl, hcause⟩
  · exact (or_iff_left (hno ())).symm
  · refine Iff.trans ?_ (or_congr_right (hcause ()).symm)
    have hdiscreet := hs t (List.mem_of_getElem? ht) hmember
    rw [hrest] at hdiscreet
    rcases hdiscreet.1 with hself | hother
    · exact iff_of_true (hself.knows before) (Or.inr hself)
    · refine (hother before).trans (or_iff_left fun hself => ?_).symm
      -- even an empty store would list the node
      exact Store.not_knows_empty me.id ((hother {}).1 (hself.knows {}))
  · exact (Profile.knows_self_answer s.world.date request before).trans (or_congr_right (hcause ()).symm)

theorem Discreet.step (hs : s.Discreet i me) (h : s.Step m s')
    (hm : ∀ j activity, m = .start j activity →
      ∃ you operation, activity = Operation.activity you operation ∧ (j = i → you = me ∧ operation.manual = false)) :
    s'.Discreet i me := by
  refine h.forall_rest (P := fun j rest => j = i → rest.Only (Effect.Discreet me)) hs (fun j activity hstart hj => ?_)
    fun j e next h r hj => (h hj).2 r
  obtain ⟨you, operation, rfl, hown⟩ := hm j activity hstart
  obtain ⟨rfl, hmanual⟩ := hown hj
  exact Operation.only_discreet you hmanual

/-- Operations of nodes at the same time, in every order of their effects and on every network. A node whose operator
writes no records lists itself in the end if it did so at the beginning, or some move of the run made it do so. -/
theorem lists_self_iff {moves : List (Move Unit)} (hi : s.world.node? i = some (me, before)) (htasks : s.tasks = [])
    (hmoves : ∀ j activity, .start j activity ∈ moves →
      ∃ you operation, activity = Operation.activity you operation ∧ (j = i → you = me ∧ operation.manual = false))
    (hrun : s.run moves = some s') :
    ∃ after, s'.world.node? i = some (me, after) ∧
      (after.Knows me.id ↔ before.Knows me.id ∨ ∃ m r r', s.Goes moves m r r' ∧ r.ListsSelf m i me) := by
  have hdiscreet : s.Discreet i me := by
    unfold Discreet
    rw [htasks]
    exact nofun
  clear htasks
  induction moves generalizing s before with
  | nil =>
    cases hrun
    exact ⟨before, hi, (or_iff_left fun ⟨_, _, _, hgoes, _⟩ => not_goes_nil hgoes).symm⟩
  | cons m moves ih =>
    obtain ⟨s₁, hm, hrun⟩ := Option.bind_eq_some_iff.1 hrun
    have hstep := step_of_step? hm
    have hstart := fun j activity h => hmoves j activity (List.mem_cons.2 (Or.inl h))
    obtain ⟨between, hbetween, hfirst⟩ := hstep.knows_self_iff hdiscreet hi
    obtain ⟨after, hafter, hrest⟩ := ih hbetween (fun j activity h => hmoves j activity (List.mem_cons_of_mem m h)) hrun
      (hdiscreet.step hstep fun j activity h => hstart j activity h.symm)
    refine ⟨after, hafter, ?_⟩
    rw [hrest, hfirst, or_assoc]
    refine or_congr_right ⟨?_, ?_⟩
    · rintro (h | ⟨n, r, r', hgoes, h⟩)
      · exact ⟨m, s, s₁, (goes_cons_iff hm).2 (Or.inl ⟨rfl, rfl, rfl⟩), h⟩
      · exact ⟨n, r, r', (goes_cons_iff hm).2 (Or.inr hgoes), h⟩
    · rintro ⟨n, r, r', hgoes, h⟩
      rcases (goes_cons_iff hm).1 hgoes with ⟨rfl, rfl, rfl⟩ | hgoes
      · exact Or.inl h
      · exact Or.inr ⟨n, r, r', hgoes, h⟩

end Crowd

/-- A node that knows nobody yet. The member `h:1` tells it of itself, and so does whoever answers at its own address. -/
def mirror : World ScriptedNetwork where
  members := [{ profile := { name := "a", target := "a:1" } }]
  network := (ScriptedNetwork.setRoute {} "h:1"
    { calls := ⟨[.now (.respond (.joinMesh ⟨true, "h", [⟨"a", "a:1"⟩, ⟨"b", "b:1"⟩]⟩))]⟩ }).setRoute "a:1"
    { calls := ⟨[.now (.respond (.joinMesh ⟨true, "a", [⟨"a", "a:1"⟩]⟩))]⟩ }

namespace mirror

def begin (operation : Operation) : Crowd.Move Unit := .start 0 (operation.activity { name := "a", target := "a:1" })

/-- The node joins at a candidate, and hears an announcement of itself and a ping meanwhile. -/
def run (candidate : String) (sender : Peer) : List (Crowd.Move Unit) :=
  [begin (.join [candidate]), .go 0, .go 0, begin (.serve (.nodeDiscovery ⟨⟨"a", "a:1"⟩, ⟨"c", "c:1"⟩⟩)), .go 1, .go 0,
    .go 0, .go 1, .go 0, begin (.serve (.ping sender)), .go 2, .go 2, .go 0, .go 1, .go 2]

theorem unlisted :
    ∃ s' after, Crowd.run (run "h:1" ⟨"b", "b:1"⟩) { world := mirror } = some s' ∧
      s'.world.node? 0 = some ({ name := "a", target := "a:1" }, after) ∧
      after.nodes.map Node.toPeer = [⟨"c", "c:1"⟩, ⟨"b", "b:1"⟩, ⟨"h", "h:1"⟩] ∧
      ¬∃ m r r', Crowd.Goes { world := mirror } (run "h:1" ⟨"b", "b:1"⟩) m r r' ∧
        r.ListsSelf m 0 { name := "a", target := "a:1" } := by
  have hmoves : ∀ j activity, .start j activity ∈ run "h:1" ⟨"b", "b:1"⟩ → ∃ you operation,
      activity = Operation.activity you operation ∧
        (j = 0 → you = { name := "a", target := "a:1" } ∧ operation.manual = false) := by
    intro j activity h
    simp only [run, begin, List.mem_cons, Crowd.Move.start.injEq, reduceCtorEq, false_or, or_false, List.not_mem_nil] at h
    rcases h with ⟨-, rfl⟩ | ⟨-, rfl⟩ | ⟨-, rfl⟩ <;> exact ⟨_, _, rfl, fun _ => ⟨rfl, rfl⟩⟩
  obtain ⟨s', after, hrun, hafter, hnodes, hunknown⟩ :
      ∃ s' after, Crowd.run (run "h:1" ⟨"b", "b:1"⟩) { world := mirror } = some s' ∧
        s'.world.node? 0 = some ({ name := "a", target := "a:1" }, after) ∧
        after.nodes.map Node.toPeer = [⟨"c", "c:1"⟩, ⟨"b", "b:1"⟩, ⟨"h", "h:1"⟩] ∧
        ¬after.Knows (Profile.id { name := "a", target := "a:1" }) :=
    ⟨_, _, rfl, rfl, by decide +kernel, by decide +kernel⟩
  have hempty : ({ world := mirror } : Crowd ScriptedNetwork Unit).world.node? 0 =
      some ({ name := "a", target := "a:1" }, {}) := rfl
  obtain ⟨after', hafter', hlists⟩ := Crowd.lists_self_iff hempty rfl hmoves hrun
  cases hafter.symm.trans hafter'
  exact ⟨s', after, hrun, hafter, hnodes, fun h => hunknown (hlists.2 (Or.inr h))⟩

/-- A node that knew nobody lists itself after it was let in at its own address, after a ping from its own address, and
after an attempt to join from there. -/
theorem listed :
    (∃ s' after, Crowd.run (run "a:1" ⟨"b", "b:1"⟩) { world := mirror } = some s' ∧
      s'.world.node? 0 = some ({ name := "a", target := "a:1" }, after) ∧
      after.Knows (Profile.id { name := "a", target := "a:1" })) ∧
    (∃ s' after, Crowd.run (run "h:1" ⟨"a", "a:1"⟩) { world := mirror } = some s' ∧
      s'.world.node? 0 = some ({ name := "a", target := "a:1" }, after) ∧
      after.Knows (Profile.id { name := "a", target := "a:1" })) ∧
    ∃ s' after, Crowd.run [begin (.serve (.joinMesh ⟨"a", "a:1"⟩)), .go 0, .go 0] { world := mirror } = some s' ∧
      s'.world.node? 0 = some ({ name := "a", target := "a:1" }, after) ∧
      after.Knows (Profile.id { name := "a", target := "a:1" }) :=
  ⟨⟨_, _, rfl, rfl, by decide +kernel⟩, ⟨_, _, rfl, rfl, by decide +kernel⟩, _, _, rfl, rfl, by decide +kernel⟩

end mirror

end PeerMesh
