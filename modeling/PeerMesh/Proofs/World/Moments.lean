import PeerMesh.Proofs.Membership.SelfListing
import PeerMesh.Proofs.Store.Moments

/-!
# What the moment of a record tells

The moment of a record is meant to be that of the last change of its health, and zero until there is one. A node that
joins, or that a joiner is told of, is put in anew, and the moment of its last change is lost.

* `Crowd.dateRead`, `Crowd.moment` : the date that a task has read, and the moment of a move;
* `Effect.Renews`, `Crowd.Renews` : what puts a record in anew;
* `Operation.marks_activity`, `Crowd.Step.marks` : every move marks each change of health with its moment, but for the
  records that it renews;
* `Crowd.ChangesHealth`, `Crowd.LastChange` : a move that changes the health of a known node, and the last one of a run;
* `Crowd.moment_told_iff` : the moment of a record is that of its last change of health exactly when the record has not
  been renewed by that change or after it.
-/

namespace PeerMesh

/-! ## Dates that are read -/

/-- The date that an effect has read. -/
def Effect.date? : (e : Effect) → e.Result → Option Int64
  | date, moment => some moment
  | _, _ => none

def Deed.date? (d : Deed) : Option Int64 := d.result.bind d.effect.date?

namespace Crowd

variable {σ α : Type} {s : Crowd σ α}

def dateRead (s : Crowd σ α) (k : Nat) : Option Int64 := (s.deeds.filter fun d => d.task = k).findSome? Deed.date?

/-- The moment of a move. A task that changes the store of its node has read the date for that before, if it has to. -/
def moment (s : Crowd σ α) : Move α → Int64
  | .go k =>
    match s.tasks[k]?.map Task.rest with
    | some (.perform (.store _) _) => (s.dateRead k).getD s.world.date
    | _ => s.world.date
  | _ => s.world.date

theorem moment_of_store {k : Nat} {t : Task α} {change : Store → Store} {next : Store → Activity α}
    (ht : s.tasks[k]? = some t) (hrest : t.rest = .perform (.store change) next) :
    s.moment (.go k) = (s.dateRead k).getD s.world.date := by
  simp only [moment, ht, Option.map_some, hrest]

theorem moment_of_call {k : Nat} {t : Task α} {channel : Channel} {request : Request} {limit : Duration}
    {next : Except CallError Response → Activity α} (ht : s.tasks[k]? = some t)
    (hrest : t.rest = .perform (.call channel request limit) next) : s.moment (.go k) = s.world.date := by
  simp only [moment, ht, Option.map_some, hrest]

theorem dateRead_of_deed {s' : Crowd σ α} {d : Deed} (h : s'.deeds = d :: s.deeds) (k : Nat) :
    s'.dateRead k = if d.task = k then d.date?.or (s.dateRead k) else s.dateRead k := by
  unfold dateRead
  rw [h, List.filter_cons]
  by_cases hk : d.task = k
  · simp only [hk, decide_true, if_true, List.findSome?_cons]
    cases d.date? with
    | none => rfl
    | some date => rfl
  · simp only [hk, decide_false, Bool.false_eq_true, if_false]

end Crowd

namespace World

variable {σ : Type}

theorem date_deliver (w : World σ) (i : Nat) (request : Request) : (w.deliver i request).2.date = w.date := by
  unfold deliver
  cases w.members[i]? with
  | none => rfl
  | some x => rfl

variable [Network σ]

theorem date_perform (w : World σ) (i : Nat) (ticket : Ticket) (e : Effect) : (w.perform i ticket e).2.date = w.date := by
  cases e with
  | claim slot =>
    unfold perform
    dsimp only
    split
    · rfl
    · rfl
  | call channel request limit =>
    unfold perform call
    dsimp only
    split
    · rfl
    · exact date_deliver _ _ request
  | _ => rfl

theorem date_of_perform {w w' : World σ} {i : Nat} {ticket : Ticket} {e : Effect} {time : Nat} {r : e.Result}
    {moment : Int64} (h : w.perform i ticket e = (.ready time r, w')) (hread : e.date? r = some moment) :
    moment = w.date := by
  cases e with
  | date =>
    cases h
    exact (Option.some.inj hread).symm
  | _ => cases hread

end World

/-! ## What operations renew -/

/-- The effect of a node on its store puts the record of an id in anew. -/
inductive Effect.Renews (me : Profile) (id : NodeId) : Effect → Prop where
  | letIn {joiner : Peer} (h : joiner.id = id) : Renews me id (.store fun s => s.letIn joiner)
  | adopt {candidate : String} (reply : JoinReply)
      (h : .ofTarget candidate = id ∨ ∃ p ∈ reply.nodes, p.id ≠ me.id ∧ p.id = id) :
      Renews me id (.store fun s => me.adopt candidate reply s)

theorem Effect.Renews.changedAt {me : Profile} {id : NodeId} {change : Store → Store}
    (h : (Effect.store change).Renews me id) (s : Store) : ∃ n, (change s).node? id = some n ∧ n.changedAt = 0 := by
  cases h with
  | letIn h => exact (s.marks_letIn _).renewed id h
  | adopt reply h => exact (s.marks_adopt me _ reply).renewed id h

theorem Effect.Renews.exists_change {me : Profile} {id : NodeId} {e : Effect} (h : e.Renews me id) :
    ∃ change, e = .store change := by
  cases h with
  | letIn => exact ⟨_, rfl⟩
  | adopt => exact ⟨_, rfl⟩

/-- An effect that marks every change of health with the date that was read last, but for the records that it renews. -/
def Effect.Marks (me : Profile) (read : Option Int64) : Effect → Prop
  | store change => ∀ s : Store, s.Marks (change s) (fun id => (store change).Renews me id) read
  | _ => True

theorem Effect.marks_of {me : Profile} {read : Option Int64} {change : Store → Store} {renews : NodeId → Prop}
    (h : ∀ s : Store, s.Marks (change s) renews read) (hrenews : ∀ id, renews id → (Effect.store change).Renews me id) :
    (Effect.store change).Marks me read := fun s =>
  { renewed := fun _ hid => hid.changedAt s
    others := fun id hid => (h s).others id fun h => hid (hrenews id h) }

theorem Effect.Marks.of_none {me : Profile} {e : Effect} (h : e.Marks me none) (read : Option Int64) : e.Marks me read := by
  cases e with
  | store change => exact fun s => (h s).of_none read
  | _ => trivial

namespace Activity

variable {α β : Type} {me : Profile}

/-- Every change of health that the activity may make is marked with the date that it has read last before. -/
def Marks (me : Profile) : Option Int64 → Activity α → Prop
  | _, done _ => True
  | read, perform e next => e.Marks me read ∧ ∀ r, (next r).Marks me ((e.date? r).or read)

theorem Only.marks {x : Activity α} (h : x.Only (Effect.Marks me none)) (read : Option Int64) : x.Marks me read := by
  induction x generalizing read with
  | done a => trivial
  | perform e next ih => exact ⟨h.1.of_none read, fun r => ih r (h.2 r) _⟩

theorem Marks.bind {x : Activity α} {read : Option Int64} (hx : x.Marks me read) {f : α → Activity β}
    (hf : ∀ a read, (f a).Marks me read) : (x >>= f).Marks me read := by
  induction x generalizing read with
  | done a => exact hf a read
  | perform e next ih => exact ⟨hx.1, fun r => ih r (hx.2 r)⟩

theorem marks_date_bind {f : Int64 → Activity β} (h : ∀ now, (f now).Marks me (some now)) (read : Option Int64) :
    (date >>= f).Marks me read :=
  ⟨trivial, h⟩

theorem marks_onStore_bind {f : Store → α × Store} {g : α → Activity β} {read : Option Int64}
    (h : (Effect.store fun s => (f s).2).Marks me read) (hg : ∀ a, (g a).Marks me read) :
    (onStore f >>= g).Marks me read :=
  ⟨h, fun _ => hg _⟩

end Activity

namespace Operation

variable {me : Profile} {operation : Operation} {change : Store → Store}

/-- The operation reads the date for what it makes of the health of a node. -/
def dated : Operation → Bool
  | serve (.joinMesh _) => false
  | serve _ => true
  | setHealth .. => true
  | _ => false

theorem Change.marks (h : operation.Change me change) (hmanual : operation.manual = false)
    (hdated : operation.dated = false) : (Effect.store change).Marks me none := by
  have hnothing : (∀ s : Store, (change s).nodeTable = s.nodeTable) → (Effect.store change).Marks me none := fun h =>
    Effect.marks_of (fun s => Store.marksAll_of_eq (h s) none) fun _ => False.elim
  cases h with
  | nothing => exact hnothing fun _ => rfl
  | letIn => exact Effect.marks_of (fun s => s.marks_letIn _) fun _ => .letIn
  | @answer request _ hjoin =>
    cases request with
    | joinMesh joiner => exact absurd rfl (hjoin joiner)
    | _ => cases hdated
  | adopt reply => exact Effect.marks_of (fun s => s.marks_adopt me _ reply) fun _ => .adopt reply
  | measure => exact hnothing fun _ => rfl
  | setSample => exact hnothing fun _ => rfl
  | setHealth => cases hdated
  | setNode => cases hmanual
  | addNode => cases hmanual
  | removeNode => cases hmanual

theorem marks_serveAtOnce {request : Request} (h : ∀ joiner, request ≠ .joinMesh joiner) (read : Option Int64) :
    (me.serveAtOnce request).Marks me read := by
  refine Activity.marks_date_bind (fun now => ?_) read
  refine Activity.marks_onStore_bind ?_ fun _ => ⟨trivial, fun _ => trivial⟩
  exact Effect.marks_of (fun s => s.marksAll_answer me now h) fun _ => False.elim

/-- Whatever is asked of a node, but for what an operator writes by hand. -/
theorem marks_activity (me : Profile) (h : operation.manual = false) (read : Option Int64) :
    (operation.activity me).Marks me read := by
  by_cases hdated : operation.dated = true
  · cases operation with
    | serve request =>
      have hjoin : ∀ joiner, request ≠ .joinMesh joiner := by
        rintro joiner rfl
        cases hdated
      have hserve : (me.serve request).Marks me read := by
        cases request with
        | joinMesh joiner => exact absurd rfl (hjoin joiner)
        | _ => exact marks_serveAtOnce hjoin read
      exact hserve.bind fun _ _ => trivial
    | setHealth id health =>
      refine Activity.marks_date_bind (fun now => ?_) read
      exact Activity.marks_onStore_bind (Effect.marks_of (fun s => s.marksAll_setHealth id health now) fun _ => False.elim)
        fun _ => trivial
    | _ => cases hdated
  · refine Activity.Only.marks ?_ read
    refine (operation.only_changes me).mono fun e he => ?_
    cases e with
    | store change => exact Change.marks he h (eq_false_of_ne_true hdated)
    | _ => trivial

end Operation

/-! ## Moves -/

namespace Crowd

section

variable {σ : Type} {s : Crowd σ Unit} {i : Nat} {me : Profile}

/-- A node whose tasks mark every change of health with the date that they have read, and no date is zero. -/
structure Timely (s : Crowd σ Unit) (i : Nat) (me : Profile) : Prop where
  node : ∃ store, s.world.node? i = some (me, store)
  rest : ∀ (k : Nat) (t : Task Unit), s.tasks[k]? = some t → t.member = i → t.rest.Marks me (s.dateRead k)
  date : 0 < s.world.date
  read : ∀ k date, s.dateRead k = some date → 0 < date

theorem Timely.moment_pos (hs : s.Timely i me) (m : Move Unit) : 0 < s.moment m := by
  cases m with
  | go k =>
    unfold moment
    dsimp only
    split
    · cases hread : s.dateRead k with
      | none => exact hs.date
      | some date => exact hs.read k date hread
    · exact hs.date
  | _ => exact hs.date

def record? (s : Crowd σ Unit) (i : Nat) (id : NodeId) : Option Node := (s.world.node? i).bind fun x => x.2.node? id

theorem record?_eq {store : Store} (h : s.world.node? i = some (me, store)) (id : NodeId) :
    s.record? i id = store.node? id := by
  unfold record?
  rw [h, Option.bind_some]

/-- The record that a node has of an id tells of no moment. -/
def Momentless (s : Crowd σ Unit) (i : Nat) (id : NodeId) : Prop := ∀ n, s.record? i id = some n → n.changedAt = 0

def ChangesHealth (s s' : Crowd σ Unit) (i : Nat) (id : NodeId) : Prop :=
  ∃ n n', s.record? i id = some n ∧ s'.record? i id = some n' ∧ n'.health ≠ n.health

instance (s s' : Crowd σ Unit) (i : Nat) (id : NodeId) : Decidable (s.ChangesHealth s' i id) :=
  decidable_of_iff (((s.record? i id).any fun n => (s'.record? i id).any fun n' => n'.health ≠ n.health) = true) (by
    simp [ChangesHealth, Option.any_eq_true])

end

variable {σ : Type} [Network σ] {s s' r r' : Crowd σ Unit} {m : Move Unit} {moves later : List (Move Unit)} {i : Nat}
  {me : Profile} {before : Store} {id : NodeId}

/-- The move puts the record of an id in anew, by an effect of node `i` or by a request to it. -/
def Renews (s : Crowd σ Unit) (m : Move Unit) (i : Nat) (me : Profile) (id : NodeId) : Prop :=
  s.Causes m i me (Effect.Renews me id) fun request store => request.Renews me store id

/-- Every move marks each change of health with its moment, but for the records that it renews. -/
theorem Step.marks (h : s.Step m s') (hs : s.Timely i me) (hi : s.world.node? i = some (me, before)) :
    ∃ after, s'.world.node? i = some (me, after) ∧
      before.Marks after (fun id => s.Renews m i me id) (some (s.moment m)) := by
  have hown : ∀ (id : NodeId) (e : Effect), e.Renews me id → ∃ change, e = .store change := fun _ _ he => he.exists_change
  obtain ⟨after, hafter, hcases⟩ := h.exists_after hi hown fun id request store => request.Renews me store id
  refine ⟨after, hafter, ?_⟩
  rcases hcases with ⟨rfl, hno⟩ | ⟨k, t, change, next, rfl, ht, hrest, hmember, rfl, hcause⟩ |
    ⟨k, t, channel, request, limit, next, rfl, ht, hrest, rfl, hcause⟩
  · exact (Store.marksAll_of_eq rfl _).of_not hno
  · have hmarks := hs.rest k t ht hmember
    rw [hrest] at hmarks
    rw [moment_of_store ht hrest]
    refine ((hmarks.1 before).congr fun id => (hcause id).symm).mono ?_
    intro moment hread
    rw [hread, Option.getD_some]
  · rw [moment_of_call ht hrest]
    exact (before.marks_answer me s.world.date request).congr fun id => (hcause id).symm

namespace Timely

theorem step (hs : s.Timely i me) (h : s.Step m s')
    (hstart : ∀ j activity, m = .start j activity →
      ∃ you operation, activity = Operation.activity you operation ∧ (j = i → you = me ∧ operation.manual = false))
    (hwait : ∀ time date, m = .wait time date → 0 < date) : s'.Timely i me := by
  obtain ⟨before, hi⟩ := hs.node
  obtain ⟨after, hafter, -⟩ := h.marks hs hi
  cases h with
  | start j activity =>
    refine ⟨⟨after, hafter⟩, fun k t ht hmember => ?_, hs.date, hs.read⟩
    rcases getElem?_concat_cases ht with ht | ⟨-, rfl⟩
    · exact hs.rest k t ht hmember
    · obtain ⟨you, operation, rfl, hown⟩ := hstart j activity rfl
      obtain ⟨rfl, hmanual⟩ := hown hmember
      exact Operation.marks_activity you hmanual _
  | wait time date => exact ⟨⟨after, hafter⟩, hs.rest, hwait time date rfl, hs.read⟩
  | @go k t e next ht hrest _ =>
    have hdate := s.world.date_perform t.member t.ticket e
    match hperform : s.world.perform t.member t.ticket e with
    | (.ready time r, w) =>
      rw [hperform] at hdate hafter
      have hread : ∀ j, (s.after k t next (.ready time r, w)).dateRead j =
          if k = j then (e.date? r).or (s.dateRead j) else s.dateRead j := dateRead_of_deed (d := ⟨k, e, some r⟩) rfl
      refine ⟨⟨after, hafter⟩, fun j t' ht' hmember => ?_, hdate ▸ hs.date, fun j date hj => ?_⟩
      · rw [hread]
        rcases getElem?_set_cases ht ht' with ⟨rfl, rfl⟩ | ⟨hne, ht'⟩
        · have hmarks := hs.rest j t ht hmember
          rw [hrest] at hmarks
          rw [if_pos rfl]
          exact hmarks.2 r
        · rw [if_neg hne]
          exact hs.rest j t' ht' hmember
      · rw [hread] at hj
        split at hj
        · rcases Option.or_eq_some_iff.1 hj with hj | ⟨-, hj⟩
          · rw [World.date_of_perform hperform hj]
            exact hs.date
          · exact hs.read j date hj
        · exact hs.read j date hj
    | (.blocked, w) =>
      rw [hperform] at hdate hafter
      exact ⟨⟨after, hafter⟩, hs.rest, hdate ▸ hs.date, hs.read⟩
    | (.never, w) =>
      rw [hperform] at hdate hafter
      have hsame : ∀ j, (s.after k t next (.never, w)).dateRead j = s.dateRead j := fun j =>
        (dateRead_of_deed (d := ⟨k, e, none⟩) rfl j).trans (ite_self _)
      refine ⟨⟨after, hafter⟩, fun j t' ht' hmember => ?_, hdate ▸ hs.date, fun j date hj => ?_⟩
      · rw [hsame]
        rcases getElem?_set_cases ht ht' with ⟨rfl, rfl⟩ | ⟨-, ht'⟩
        · exact hs.rest j t ht hmember
        · exact hs.rest j t' ht' hmember
      · exact hs.read j date ((hsame j).symm.trans hj)

/-! ## What a move makes of one record -/

theorem marked (hs : s.Timely i me) (h : s.Step m s') (id : NodeId) (hrenews : ¬s.Renews m i me id) :
    Node.Marked (some (s.moment m)) (s.record? i id) (s'.record? i id) := by
  obtain ⟨before, hi⟩ := hs.node
  obtain ⟨after, hafter, hmarks⟩ := h.marks hs hi
  rw [record?_eq hi, record?_eq hafter]
  exact hmarks.others id hrenews

theorem momentless_of_renews (hs : s.Timely i me) (h : s.Step m s') (hrenews : s.Renews m i me id) :
    s'.Momentless i id := by
  obtain ⟨before, hi⟩ := hs.node
  obtain ⟨after, hafter, hmarks⟩ := h.marks hs hi
  obtain ⟨n, hn, hzero⟩ := hmarks.renewed id hrenews
  intro n' hn'
  rw [record?_eq hafter, hn] at hn'
  cases hn'
  exact hzero

theorem momentless_of_same_health (hs : s.Timely i me) (h : s.Step m s') (hquiet : ¬s.ChangesHealth s' i id)
    (hzero : s.Momentless i id) : s'.Momentless i id := by
  by_cases hrenews : s.Renews m i me id
  · exact hs.momentless_of_renews h hrenews
  intro n' hn'
  have hmarked := hs.marked h id hrenews
  rw [hn'] at hmarked
  cases hn : s.record? i id with
  | none =>
    rw [hn] at hmarked
    exact hmarked.changedAt_of_new
  | some n =>
    rw [hn] at hmarked
    by_cases hsame : n'.health = n.health
    · rw [hmarked.eq_of_health hsame]
      exact hzero n hn
    · exact absurd ⟨n, n', hn, hn', hsame⟩ hquiet

theorem record?_of_same_health (hs : s.Timely i me) (h : s.Step m s') (hrenews : ¬s.Renews m i me id)
    (hquiet : ¬s.ChangesHealth s' i id) {n : Node} (hn : s.record? i id = some n) : s'.record? i id = some n := by
  have hmarked := hs.marked h id hrenews
  rw [hn] at hmarked
  obtain ⟨n', hn'⟩ := hmarked.exists_some
  rw [hn'] at hmarked
  by_cases hsame : n'.health = n.health
  · rw [hn', hmarked.eq_of_health hsame]
  · exact absurd ⟨n, n', hn, hn', hsame⟩ hquiet

theorem changedAt_of_changesHealth (hs : s.Timely i me) (h : s.Step m s') (hrenews : ¬s.Renews m i me id)
    (hchanges : s.ChangesHealth s' i id) : ∃ n, s'.record? i id = some n ∧ n.changedAt = s.moment m := by
  obtain ⟨n, n', hn, hn', hne⟩ := hchanges
  have hmarked := hs.marked h id hrenews
  rw [hn, hn'] at hmarked
  exact ⟨n', hn', (Option.some.inj (hmarked.changedAt_of_health hne)).symm⟩

end Timely

/-! ## Runs -/

def Quiet (s : Crowd σ Unit) (moves : List (Move Unit)) (i : Nat) (id : NodeId) : Prop :=
  ∀ m r r', s.Goes moves m r r' → ¬r.ChangesHealth r' i id

/-- Some move of the run puts the record of an id in anew. -/
def Renewed (s : Crowd σ Unit) (moves : List (Move Unit)) (i : Nat) (me : Profile) (id : NodeId) : Prop :=
  ∃ m r r', s.Goes moves m r r' ∧ r.Renews m i me id

/-- The move `m`, made from `r`, is the last one of the run that changes the health of a known node. Others come later. -/
def LastChange (s : Crowd σ Unit) (moves : List (Move Unit)) (i : Nat) (id : NodeId) (m : Move Unit) (r : Crowd σ Unit)
    (later : List (Move Unit)) : Prop :=
  ∃ before r', moves = before ++ m :: later ∧ s.run before = some r ∧ r.step? m = some r' ∧ r.ChangesHealth r' i id ∧
    r'.Quiet later i id

theorem Quiet.momentless (hquiet : s.Quiet moves i id) (hall : ∀ r, s.Passes moves r → r.Timely i me)
    (hzero : s.Momentless i id) (hrun : s.run moves = some s') : s'.Momentless i id :=
  (Passes.mem hrun).induction hzero fun m r r' hgoes hr =>
    (hall r hgoes.passes).momentless_of_same_health (step_of_step? hgoes.step?) (hquiet m r r' hgoes) hr

theorem Quiet.record? (hquiet : s.Quiet moves i id) (hall : ∀ r, s.Passes moves r → r.Timely i me)
    (hrenewed : ¬s.Renewed moves i me id) {n : Node} (hn : s.record? i id = some n) (hrun : s.run moves = some s') :
    s'.record? i id = some n :=
  (Passes.mem hrun).induction (P := fun r => r.record? i id = some n) hn fun m r r' hgoes hr =>
    (hall r hgoes.passes).record?_of_same_health (step_of_step? hgoes.step?) (fun h => hrenewed ⟨m, r, r', hgoes, h⟩)
      (hquiet m r r' hgoes) hr

/-- A record that is put in anew tells of no moment for as long as its health does not change. -/
theorem Renewed.momentless (hrenewed : s.Renewed moves i me id) (hquiet : s.Quiet moves i id)
    (hall : ∀ r, s.Passes moves r → r.Timely i me) (hrun : s.run moves = some s') : s'.Momentless i id := by
  obtain ⟨m, r, r', hgoes, hrenews⟩ := hrenewed
  have hzero := (hall r hgoes.passes).momentless_of_renews (step_of_step? hgoes.step?) hrenews
  obtain ⟨first, rest, rfl, hr, hstep⟩ := hgoes
  have hr' := run_concat hr hstep
  rw [List.append_cons] at hquiet hall hrun
  rw [run_append, hr', Option.bind_some] at hrun
  have hrest : r'.Quiet rest i id := fun n q q' hgoes => hquiet n q q' (hgoes.after hr')
  exact hrest.momentless (fun q hq => hall q (hq.after hr')) hzero hrun

/-- Operations of nodes at the same time, in every order of their effects and on every network, from an empty store. The
moment of a record is zero if the health of the node has never changed. If it has, the moment is that of the last move
that changed it, unless the record was put in anew by that move or later: then it is zero. -/
theorem moment_told_iff {w : World σ} (hi : w.node? i = some (me, {})) (hdate : 0 < w.date)
    (hstart : ∀ j activity, .start j activity ∈ moves →
      ∃ you operation, activity = Operation.activity you operation ∧ (j = i → you = me ∧ operation.manual = false))
    (hwait : ∀ time date, .wait time date ∈ moves → 0 < date) (hrun : Crowd.run moves { world := w } = some s') :
    ∃ after, s'.world.node? i = some (me, after) ∧ ∀ id n, after.node? id = some n →
      (Quiet { world := w } moves i id → n.changedAt = 0) ∧
        ∀ m r later, LastChange { world := w } moves i id m r later →
          (n.changedAt = r.moment m ↔ ¬r.Renewed (m :: later) i me id) ∧
            (r.Renewed (m :: later) i me id → n.changedAt = 0) := by
  have hfirst : Crowd.Timely { world := w } i me := ⟨⟨{}, hi⟩, nofun, hdate, nofun⟩
  have hall : ∀ r, Passes { world := w } moves r → r.Timely i me := by
    refine fun r hr => hr.induction (P := fun r => r.Timely i me) hfirst fun m r r' hgoes hr => ?_
    exact hr.step (step_of_step? hgoes.step?) (fun j activity hm => hstart j activity (hm ▸ hgoes.mem))
      fun time date hm => hwait time date (hm ▸ hgoes.mem)
  obtain ⟨after, hafter⟩ := (hall s' (.mem hrun)).node
  refine ⟨after, hafter, fun id n hn => ?_⟩
  rw [← record?_eq hafter id] at hn
  refine ⟨fun hquiet => ?_, fun m r later hlast => ?_⟩
  · have hempty : Momentless { world := w } i id := by
      intro n hn
      rw [record?_eq hi] at hn
      cases hn
    exact hquiet.momentless hall hempty hrun n hn
  obtain ⟨first, r', rfl, hr, hstep, hchanges, hquiet⟩ := hlast
  have hr' := run_concat hr hstep
  have hlater : ∀ q, r'.Passes later q → q.Timely i me := fun q hq => hall q (by
    rw [List.append_cons]
    exact hq.after hr')
  have hrunlater : r'.run later = some s' := by
    rw [List.append_cons, run_append, hr', Option.bind_some] at hrun
    exact hrun
  have htimely : r.Timely i me := hall r ⟨first, m :: later, rfl, hr⟩
  have hzero : r.Renewed (m :: later) i me id → n.changedAt = 0 := by
    rintro ⟨k, q, q', hgoes, hrenews⟩
    rcases (goes_cons_iff hstep).1 hgoes with ⟨rfl, rfl, rfl⟩ | hgoes
    · exact hquiet.momentless hlater (htimely.momentless_of_renews (step_of_step? hstep) hrenews) hrunlater n hn
    · exact Renewed.momentless ⟨k, q, q', hgoes, hrenews⟩ hquiet hlater hrunlater n hn
  refine ⟨⟨fun htold hrenewed => ?_, fun hnot => ?_⟩, hzero⟩
  · have hpos := htimely.moment_pos m
    rw [← htold, hzero hrenewed] at hpos
    exact absurd hpos (by decide)
  · have hrenews : ¬r.Renews m i me id := fun h => hnot ⟨m, r, r', (goes_cons_iff hstep).2 (Or.inl ⟨rfl, rfl, rfl⟩), h⟩
    have hrest : ¬r'.Renewed later i me id := fun ⟨k, q, q', hgoes, h⟩ =>
      hnot ⟨k, q, q', (goes_cons_iff hstep).2 (Or.inr hgoes), h⟩
    obtain ⟨n', hn', htold⟩ := htimely.changedAt_of_changesHealth (step_of_step? hstep) hrenews hchanges
    have hkept := hquiet.record? hlater hrest hn' hrunlater
    cases hn.symm.trans hkept
    exact htold

end Crowd

/-- A node that knows nobody yet, at the date 10. The member `h:1` lets it in, and tells it of `b`. -/
def watcher : World ScriptedNetwork where
  members := [{ profile := { name := "a", target := "a:1" } }]
  network := ScriptedNetwork.setRoute {} "h:1" { calls := ⟨[.now (.respond (.joinMesh ⟨true, "h", [⟨"b", "b:1"⟩]⟩))]⟩ }
  date := 10

namespace watcher

def begin (operation : Operation) : Crowd.Move Unit := .start 0 (operation.activity { name := "a", target := "a:1" })

def b : Peer := ⟨"b", "b:1"⟩

/-- The node hears of `b`, and its operator finds at 20 that `b` is not well. -/
def course : List (Crowd.Move Unit) :=
  [begin (.serve (.ping b)), .go 0, .go 0, .go 0, .wait 5 20, begin (.setHealth b.id .warning), .go 1, .go 1, .wait 9 30]

/-- After another ping `b` is well, and its record has been put in once. -/
theorem moment_told :
    ∃ (s' r : Crowd ScriptedNetwork Unit) (after : Store) (n : Node),
      Crowd.run (course ++ [begin (.serve (.ping b)), .go 2, .go 2, .go 2]) { world := watcher } = some s' ∧
      s'.world.node? 0 = some ({ name := "a", target := "a:1" }, after) ∧ after.node? b.id = some n ∧ n.health = .ok ∧
      n.changedAt = 30 ∧ r.moment (.go 2) = 30 ∧ ¬r.Renewed [.go 2, .go 2] 0 { name := "a", target := "a:1" } b.id := by
  have hempty : watcher.node? 0 = some ({ name := "a", target := "a:1" }, {}) := rfl
  have hstart : ∀ j activity, .start j activity ∈ course ++ [begin (.serve (.ping b)), .go 2, .go 2, .go 2] →
      ∃ you operation, activity = Operation.activity you operation ∧
        (j = 0 → you = { name := "a", target := "a:1" } ∧ operation.manual = false) := by
    intro j activity h
    simp only [course, begin, List.cons_append, List.nil_append, List.mem_cons, Crowd.Move.start.injEq, reduceCtorEq,
      false_or, or_false, List.not_mem_nil] at h
    rcases h with ⟨-, rfl⟩ | ⟨-, rfl⟩ | ⟨-, rfl⟩ <;> exact ⟨_, _, rfl, fun _ => ⟨rfl, rfl⟩⟩
  have hwait : ∀ time date, .wait time date ∈ course ++ [begin (.serve (.ping b)), .go 2, .go 2, .go 2] → 0 < date := by
    intro time date h
    simp only [course, begin, List.cons_append, List.nil_append, List.mem_cons, Crowd.Move.wait.injEq, reduceCtorEq,
      false_or, or_false, List.not_mem_nil] at h
    rcases h with ⟨-, rfl⟩ | ⟨-, rfl⟩ <;> decide
  obtain ⟨r, r', s', after, hr, hr', hs', hafter, hchanges, hsame, hmoment, hn⟩ :
      ∃ (r r' s' : Crowd ScriptedNetwork Unit) (after : Store),
        Crowd.run (course ++ [begin (.serve (.ping b)), .go 2]) { world := watcher } = some r ∧
        r.step? (.go 2) = some r' ∧ r'.step? (.go 2) = some s' ∧
        s'.world.node? 0 = some ({ name := "a", target := "a:1" }, after) ∧ r.ChangesHealth r' 0 b.id ∧
        ¬r'.ChangesHealth s' 0 b.id ∧ r.moment (.go 2) = 30 ∧
        after.node? b.id = some { id := b.id, name := "b", target := "b:1", health := .ok, changedAt := 30 } :=
    ⟨_, _, _, _, rfl, rfl, rfl, rfl, by decide +kernel, by decide +kernel, by decide +kernel, by decide +kernel⟩
  have hrun : Crowd.run (course ++ [begin (.serve (.ping b)), .go 2, .go 2, .go 2]) { world := watcher } = some s' :=
    (Crowd.run_append (course ++ [begin (.serve (.ping b)), .go 2]) [.go 2, .go 2] { world := watcher }).trans (by
      simp only [hr, Option.bind_some, Crowd.run, hr', hs'])
  have hlast : Crowd.LastChange { world := watcher } (course ++ [begin (.serve (.ping b)), .go 2, .go 2, .go 2]) 0 b.id
      (.go 2) r [.go 2] := by
    refine ⟨course ++ [begin (.serve (.ping b)), .go 2], r', rfl, hr, hr', hchanges, ?_⟩
    exact Crowd.forall_goes_cons hs' hsame fun _ _ _ h => absurd h Crowd.not_goes_nil
  obtain ⟨after', hafter', htold⟩ := Crowd.moment_told_iff hempty (by decide) hstart hwait hrun
  cases hafter.symm.trans hafter'
  have hiff := ((htold b.id _ hn).2 _ _ _ hlast).1
  exact ⟨s', r, after, _, hrun, hafter, hn, rfl, rfl, hmoment, hiff.1 hmoment.symm⟩

/-- `b` joins again, or the node is let in by a member that tells it of `b`. Both times `b` is well from then on, at 30, and
the record tells of no change. -/
theorem moment_lost :
    (∃ (s' r : Crowd ScriptedNetwork Unit) (after : Store) (n : Node),
      Crowd.run (course ++ [begin (.serve (.joinMesh b)), .go 2, .go 2]) { world := watcher } = some s' ∧
      s'.world.node? 0 = some ({ name := "a", target := "a:1" }, after) ∧ after.node? b.id = some n ∧ n.changedAt = 0 ∧
      Crowd.LastChange { world := watcher } (course ++ [begin (.serve (.joinMesh b)), .go 2, .go 2]) 0 b.id (.go 2) r [] ∧
      r.moment (.go 2) = 30) ∧
    ∃ (s' r : Crowd ScriptedNetwork Unit) (after : Store) (n : Node),
      Crowd.run (course ++ [begin (.join ["h:1"]), .go 2, .go 2, .go 2, .go 2, .go 2, .go 2]) { world := watcher } =
        some s' ∧
      s'.world.node? 0 = some ({ name := "a", target := "a:1" }, after) ∧ after.node? b.id = some n ∧ n.changedAt = 0 ∧
      Crowd.LastChange { world := watcher } (course ++ [begin (.join ["h:1"]), .go 2, .go 2, .go 2, .go 2, .go 2, .go 2]) 0
        b.id (.go 2) r [] ∧ r.moment (.go 2) = 30 := by
  have hnone : ∀ s : Crowd ScriptedNetwork Unit, s.Quiet [] 0 b.id := fun _ _ _ _ h => absurd h Crowd.not_goes_nil
  constructor
  · refine ⟨_, _, _, { id := b.id, name := "b", target := "b:1", health := .ok, changedAt := 0 }, rfl, rfl, ?_, rfl,
      ⟨course ++ [begin (.serve (.joinMesh b)), .go 2], _, rfl, rfl, rfl, ?_, hnone _⟩, ?_⟩
    · decide +kernel
    · decide +kernel
    · decide +kernel
  · refine ⟨_, _, _, { id := b.id, name := "b", target := "b:1", health := .ok, changedAt := 0 }, rfl, rfl, ?_, rfl,
      ⟨course ++ [begin (.join ["h:1"]), .go 2, .go 2, .go 2, .go 2, .go 2], _, rfl, rfl, rfl, ?_, hnone _⟩, ?_⟩
    · decide +kernel
    · decide +kernel
    · decide +kernel

end watcher

end PeerMesh
