import PeerMesh.Proofs.Store.Twins
import PeerMesh.Proofs.World.Stores

/-!
# Worlds that differ in health only

* `Activity.Twins` : activities that do the same on stores that are twins, whatever the dates are;
* `World.Twins` : the same world, but for the date and for stores that are twins;
* `World.Twins.perform` : an effect that has to do with neither gives the same in both;
* `Crowd.Twins`, `Crowd.Twins.step?` : what tasks that are twins can do in worlds that are twins, and that they stay so;
* `Crowd.Twins.reordered` : tables may be walked in another order, if it is the same for both.
-/

namespace PeerMesh

/-! ## Activities -/

/-- An effect that has to do neither with the store nor with the calendar. -/
def Effect.Steady : Effect → Prop
  | store _ => False
  | date => False
  | _ => True

theorem Effect.Outward.steady {e : Effect} (h : e.Outward) : e.Steady := by
  cases e with
  | store change => exact h
  | date => exact h
  | _ => trivial

namespace Activity

variable {α β : Type}

/-- Two activities with the same effects, but that they see stores which are twins and make them twins again, and that
they see different dates. -/
inductive Twins : Activity α → Activity α → Prop where
  | done (a : α) : Twins (done a) (done a)
  | store {change change' : Store → Store} {next next' : Store → Activity α}
      (hchange : ∀ s t : Store, s.Twins t → (change s).Twins (change' t))
      (hnext : ∀ s t : Store, s.Twins t → Twins (next s) (next' t)) :
      Twins (perform (.store change) next) (perform (.store change') next')
  | date {next next' : Int64 → Activity α} (hnext : ∀ now now', Twins (next now) (next' now')) :
      Twins (perform .date next) (perform .date next')
  | steady {e : Effect} (he : e.Steady) {next next' : e.Result → Activity α} (hnext : ∀ r, Twins (next r) (next' r)) :
      Twins (perform e next) (perform e next')

theorem Only.twins {x : Activity α} (h : x.Only Effect.Steady) : x.Twins x := by
  induction x with
  | done a => exact .done a
  | perform e next ih => exact .steady h.1 fun r => ih r (h.2 r)

theorem twins_of_outward {x : Activity α} (h : x.Only Effect.Outward) : x.Twins x :=
  (h.mono fun _ he => he.steady).twins

theorem Twins.bind {x x' : Activity α} (h : x.Twins x') {f f' : α → Activity β} (hf : ∀ a, (f a).Twins (f' a)) :
    (x >>= f).Twins (x' >>= f') := by
  induction h with
  | done a => exact hf a
  | store hchange _ ih => exact .store hchange ih
  | date _ ih => exact .date ih
  | steady he _ ih => exact .steady he ih

theorem Twins.map {x x' : Activity α} (h : x.Twins x') (f : α → β) : (f <$> x).Twins (f <$> x') :=
  h.bind fun a => .done (f a)

theorem twins_onStore {f g : Store → α × Store}
    (h : ∀ s t : Store, s.Twins t → (f s).1 = (g t).1 ∧ (f s).2.Twins (g t).2) : (onStore f).Twins (onStore g) := by
  refine .store (fun s t hst => (h s t hst).2) fun s t hst => ?_
  have hvalue : done (f s).1 = done (g t).1 := congrArg done (h s t hst).1
  show (done (f s).1).Twins (done (g t).1)
  rw [hvalue]
  exact .done _

theorem twins_change {f g : Store → Store} (h : ∀ s t : Store, s.Twins t → (f s).Twins (g t)) (a : α) :
    (onStore fun s => (a, f s)).Twins (onStore fun s => (a, g s)) :=
  twins_onStore fun s t hst => ⟨rfl, h s t hst⟩

theorem twins_readStore {f : Store → α} (h : ∀ s t : Store, s.Twins t → f s = f t) :
    (readStore f).Twins (readStore f) :=
  twins_onStore fun s t hst => ⟨h s t hst, hst⟩

theorem twins_date_bind {f f' : Int64 → Activity α} (h : ∀ now now', (f now).Twins (f' now')) :
    (Activity.date >>= f).Twins (Activity.date >>= f') :=
  .date h

end Activity

/-! ## Worlds -/

inductive Member.Twins (m : Member) : Member → Prop where
  | mk {store : Store} (h : m.store.Twins store) : Twins m { m with store }

namespace World

variable {σ : Type}

/-- The members have stores that are twins, and nothing else differs but the date. -/
inductive Twins (w : World σ) : World σ → Prop where
  | mk {members : List Member} {date : Int64} (h : List.Forall₂ Member.Twins w.members members) :
      Twins w { w with members, date }

namespace Twins

variable {w w' : World σ}

theorem members (h : w.Twins w') : List.Forall₂ Member.Twins w.members w'.members := by
  cases h with
  | mk hmembers => exact hmembers

theorem elapsed (h : w.Twins w') : w.elapsed = w'.elapsed := by
  cases h with
  | mk _ => rfl

theorem trace (h : w.Twins w') : w.trace = w'.trace := by
  cases h with
  | mk _ => rfl

theorem onMember (h : w.Twins w') (i : Nat) {f g : Member → Member} (hfg : ∀ m m', m.Twins m' → (f m).Twins (g m')) :
    (w.onMember i f).Twins (w'.onMember i g) := by
  cases h with
  | mk hmembers => exact .mk (forall₂_modify hmembers i hfg)

theorem onPool (h : w.Twins w') (i : Nat) (f : Pool → Pool) :
    (w.onMember i fun m => { m with pool := f m.pool }).Twins (w'.onMember i fun m => { m with pool := f m.pool }) := by
  refine h.onMember i fun m m' hm => ?_
  cases hm with
  | mk hstore => exact .mk hstore

theorem onStore (h : w.Twins w') (i : Nat) {f g : Store → Store} (hfg : ∀ s t : Store, s.Twins t → (f s).Twins (g t)) :
    (w.onMember i fun m => { m with store := f m.store }).Twins
      (w'.onMember i fun m => { m with store := g m.store }) := by
  refine h.onMember i fun m m' hm => ?_
  cases hm with
  | mk hstore => exact .mk (hfg _ _ hstore)

theorem pool? (h : w.Twins w') (i : Nat) : w.members[i]?.map Member.pool = w'.members[i]?.map Member.pool := by
  have hi := forall₂_getElem? h.members i
  generalize w.members[i]? = m, w'.members[i]? = m' at hi ⊢
  cases hi with
  | none => rfl
  | some hm =>
    cases hm with
    | mk _ => rfl

theorem store (h : w.Twins w') (i : Nat) :
    ((w.members[i]?.map Member.store).getD {}).Twins ((w'.members[i]?.map Member.store).getD {}) := by
  have hi := forall₂_getElem? h.members i
  generalize w.members[i]? = m, w'.members[i]? = m' at hi ⊢
  cases hi with
  | none => exact .refl {}
  | some hm =>
    cases hm with
    | mk hstore => exact hstore

theorem note (h : w.Twins w') (i : Nat) (event : Event) : (w.note i event).Twins (w'.note i event) := by
  cases h with
  | mk hmembers => exact .mk hmembers

theorem postpone (h : w.Twins w') (i : Nat) (notices : List Notice) :
    (w.postpone i notices).Twins (w'.postpone i notices) := by
  cases h with
  | mk hmembers => exact .mk hmembers

theorem deliver (h : w.Twins w') (i : Nat) (request : Request) :
    (w.deliver i request).1 = (w'.deliver i request).1 ∧ (w.deliver i request).2.Twins (w'.deliver i request).2 := by
  have hi := forall₂_getElem? h.members i
  unfold World.deliver
  generalize w.members[i]? = m, w'.members[i]? = m' at hi ⊢
  cases hi with
  | none => exact ⟨rfl, h⟩
  | @some m _ hm =>
    cases hm with
    | @mk store hstore =>
      obtain ⟨hresponse, hafter, hnotices⟩ := hstore.answer m.profile w.date w'.date request
      refine ⟨congrArg some hresponse, ?_⟩
      simp only [hnotices]
      exact (h.onStore i fun _ _ _ => hafter).postpone i _

variable [Network σ]

theorem dial (h : w.Twins w') (target : String) (security : Security) (mode : DialMode) (limit : Option Duration) :
    (w.dial target security mode limit).1 = (w'.dial target security mode limit).1 ∧
      (w.dial target security mode limit).2.Twins (w'.dial target security mode limit).2 := by
  cases h with
  | mk hmembers => exact ⟨rfl, .mk hmembers⟩

theorem call (h : w.Twins w') (channel : Channel) (request : Request) (limit : Duration) :
    (w.call channel request limit).1 = (w'.call channel request limit).1 ∧
      (w.call channel request limit).2.Twins (w'.call channel request limit).2 := by
  cases h with
  | @mk members date hmembers =>
    unfold World.call
    rcases Network.call w.network channel request with ⟨reaction, n⟩
    have hnetwork : World.Twins { w with network := n } { w with members, date, network := n } := .mk hmembers
    cases reaction with
    | reply answer => exact ⟨rfl, hnetwork⟩
    | serve j =>
      obtain ⟨hresponse, hafter⟩ := hnetwork.deliver j request
      refine ⟨?_, hafter⟩
      -- the clock is that of the world in which the member has answered
      show Outcome.ready _ (heard request.method _) = Outcome.ready _ (heard request.method _)
      rw [hresponse, hafter.elapsed]

theorem perform (h : w.Twins w') (i : Nat) (ticket : Ticket) {e : Effect} (he : e.Steady) :
    (w.perform i ticket e).1 = (w'.perform i ticket e).1 ∧
      (w.perform i ticket e).2.Twins (w'.perform i ticket e).2 := by
  cases e with
  | store change => exact he.elim
  | date => exact he.elim
  | pool change =>
    refine ⟨?_, h.onPool i change⟩
    show Outcome.ready w.elapsed _ = Outcome.ready w'.elapsed _
    rw [h.pool?, h.elapsed]
  | claim slot =>
    have hclaim := h.onPool i fun p => p.claim slot ticket
    have hverdict := congrArg (Option.bind · fun p : Pool => p.verdict slot ticket) (hclaim.pool? i)
    simp only [Option.bind_map, Function.comp_def] at hverdict
    simp only [World.perform, hverdict]
    split
    · exact ⟨congrArg (Outcome.ready · _) hclaim.elapsed, hclaim⟩
    · exact ⟨rfl, hclaim⟩
  | dial target security mode limit => exact (h.note i _).dial target security mode limit
  | call channel request limit => exact (h.note i _).call channel request limit
  | close channel =>
    cases h with
    | mk hmembers => exact ⟨rfl, .mk hmembers⟩
  | elapsed => exact ⟨congrArg (fun t => Outcome.ready t t) h.elapsed, h⟩
  | draw =>
    cases h with
    | mk hmembers => exact ⟨rfl, .mk hmembers⟩
  | observe observation => exact ⟨congrArg (Outcome.ready · ()) h.elapsed, h.note i _⟩
  | announce notices => exact ⟨congrArg (Outcome.ready · ()) h.elapsed, h.postpone i notices⟩

end Twins

end World

/-! ## Tasks -/

variable {σ α : Type}

inductive Task.Twins (t : Task α) : Task α → Prop where
  | mk {rest : Activity α} (h : t.rest.Twins rest) : Twins t { t with rest }

theorem Task.Twins.value? {t t' : Task α} (h : t.Twins t') : t.value? = t'.value? := by
  cases h with
  | @mk rest hrest =>
    unfold Task.value?
    generalize t.rest = x at hrest ⊢
    cases hrest with
    | done a => rfl
    | store _ _ => rfl
    | date _ => rfl
    | steady _ _ => rfl

/-- The same deed with the same result, unless it met stores that are twins, or the calendar. -/
inductive Deed.Twins : Deed → Deed → Prop where
  | store (k : Nat) (change change' : Store → Store) {s t : Store} (h : s.Twins t) :
      Twins ⟨k, .store change, some s⟩ ⟨k, .store change', some t⟩
  | date (k : Nat) (now now' : Int64) : Twins ⟨k, .date, some now⟩ ⟨k, .date, some now'⟩
  | steady {d : Deed} (h : d.effect.Steady) : Twins d d

namespace Crowd

/-- The same tasks with the same deeds in the same world, but for stores that are twins and for the date. -/
structure Twins (s s' : Crowd σ α) : Prop where
  world : s.world.Twins s'.world
  tasks : List.Forall₂ Task.Twins s.tasks s'.tasks
  deeds : List.Forall₂ Deed.Twins s.deeds s'.deeds

/-- The same move, but for what the activities that begin make of health, and for the date. -/
inductive Move.Twins : Move α → Move α → Prop where
  | start (i : Nat) {x x' : Activity α} (h : x.Twins x') : Twins (.start i x) (.start i x')
  | go (k : Nat) : Twins (.go k) (.go k)
  | wait (time : Nat) (date date' : Int64) : Twins (.wait time date) (.wait time date')

namespace Twins

variable {s s' : Crowd σ α}

theorem values (h : s.Twins s') : s.tasks.map Task.value? = s'.tasks.map Task.value? := by
  have hvalues : List.Forall₂ (fun t t' : Task α => t.value? = t'.value?) s.tasks s'.tasks :=
    h.tasks.imp fun _ _ ht => ht.value?
  generalize s.tasks = ts, s'.tasks = ts' at hvalues
  induction hvalues with
  | nil => rfl
  | cons ht _ ih => simp only [List.map_cons, ht, ih]

theorem after_ready (h : s.Twins s') (k : Nat) {t t' : Task α} (ht : t.Twins t') {w w' : World σ} (hw : w.Twins w')
    {e e' : Effect} {next : e.Result → Activity α} {next' : e'.Result → Activity α} {r : e.Result} {r' : e'.Result}
    (hdeed : Deed.Twins ⟨k, e, some r⟩ ⟨k, e', some r'⟩) (hnext : (next r).Twins (next' r')) {time time' : Nat}
    (htime : time = time') :
    (s.after k t next (.ready time r, w)).Twins (s'.after k t' next' (.ready time' r', w')) := by
  subst htime
  cases ht with
  | mk _ => exact ⟨hw, forall₂_set h.tasks k (.mk hnext), .cons hdeed h.deeds⟩

theorem after_steady (h : s.Twins s') (k : Nat) {t t' : Task α} (ht : t.Twins t') {w w' : World σ} (hw : w.Twins w')
    {e : Effect} (he : e.Steady) {next next' : e.Result → Activity α} (hnext : ∀ r, (next r).Twins (next' r))
    (outcome : Outcome e.Result) : (s.after k t next (outcome, w)).Twins (s'.after k t' next' (outcome, w')) := by
  cases outcome with
  | ready time r => exact h.after_ready k ht hw (.steady he) (hnext r) rfl
  | blocked => exact ⟨hw, h.tasks, h.deeds⟩
  | never =>
    cases ht with
    | mk hrest => exact ⟨hw, forall₂_set h.tasks k (.mk hrest), .cons (.steady he) h.deeds⟩

variable [Network σ]

theorem go (h : s.Twins s') (k : Nat) : Option.Rel Twins (s.go k) (s'.go k) := by
  have hk := forall₂_getElem? h.tasks k
  unfold Crowd.go
  generalize s.tasks[k]? = t, s'.tasks[k]? = t' at hk ⊢
  cases hk with
  | none => exact .none
  | @some t _ ht =>
    cases ht with
    | @mk rest hrest =>
      have htask : t.Twins { t with rest } := .mk hrest
      simp only [Option.bind_eq_bind, Option.bind_some, h.world.elapsed]
      split
      · exact .none
      · generalize t.rest = x at hrest ⊢
        cases hrest with
        | done a => exact .none
        | store hchange hnext =>
          have hworld := h.world.onStore t.member hchange
          have hstore := h.world.store t.member
          exact .some (h.after_ready k htask hworld (.store k _ _ hstore) (hnext _ _ hstore) h.world.elapsed)
        | date hnext => exact .some (h.after_ready k htask h.world (.date ..) (hnext _ _) h.world.elapsed)
        | @steady e he _ _ hnext =>
          refine .some ?_
          obtain ⟨houtcome, hworld⟩ := h.world.perform t.member t.ticket he
          generalize s.world.perform t.member t.ticket e = x, s'.world.perform t.member t.ticket e = x' at houtcome hworld ⊢
          obtain ⟨outcome, w⟩ := x
          obtain ⟨outcome', w'⟩ := x'
          obtain rfl : outcome = outcome' := houtcome
          exact h.after_steady k htask hworld he hnext outcome

theorem step? (h : s.Twins s') {m m' : Move α} (hm : m.Twins m') : Option.Rel Twins (s.step? m) (s'.step? m') := by
  cases hm with
  | start i hx =>
    obtain ⟨hworld, htasks, hdeeds⟩ := h
    obtain ⟨w, tasks, deeds⟩ := s
    obtain ⟨w', tasks', deeds'⟩ := s'
    cases hworld with
    | mk hmembers => exact .some ⟨.mk hmembers, List.rel_append htasks (.cons (.mk hx) .nil), hdeeds⟩
  | go k => exact h.go k
  | wait time date date' =>
    obtain ⟨hworld, htasks, hdeeds⟩ := h
    obtain ⟨w, tasks, deeds⟩ := s
    obtain ⟨w', tasks', deeds'⟩ := s'
    cases hworld with
    | mk hmembers => exact .some ⟨.mk hmembers, htasks, hdeeds⟩

end Twins

end Crowd

/-! ## Other orders -/

inductive Member.Reordered (m : Member) : Member → Prop where
  | mk {store : Store} (h : m.store.Reordered store) : Reordered m { m with store }

/-- The same keys in the same order in both tables of both members. -/
structure Member.SameOrder (m m' : Member) : Prop where
  nodes : m.store.nodeTable.keys = m'.store.nodeTable.keys
  samples : m.store.sampleTable.keys = m'.store.sampleTable.keys

namespace Member

theorem Twins.reordered {m m' n n' : Member} (h : m.Twins m') (hn : m.Reordered n) (hn' : m'.Reordered n')
    (horder : n.SameOrder n') : n.Twins n' := by
  cases h with
  | mk hstore =>
    cases hn with
    | mk hstoreN =>
      cases hn' with
      | mk hstoreN' => exact .mk (hstore.reordered hstoreN hstoreN' horder.nodes horder.samples)

theorem forall₂_twins_reordered {ms ms' ns ns' : List Member} (h : List.Forall₂ Twins ms ms')
    (hn : List.Forall₂ Reordered ms ns) (hn' : List.Forall₂ Reordered ms' ns') (horder : List.Forall₂ SameOrder ns ns') :
    List.Forall₂ Twins ns ns' := by
  induction h generalizing ns ns' with
  | nil =>
    cases hn
    cases hn'
    exact .nil
  | cons htwins _ ih =>
    cases hn with
    | cons hn hrest =>
      cases hn' with
      | cons hn' hrest' =>
        cases horder with
        | cons hfirst horder => exact .cons (htwins.reordered hn hn' hfirst) (ih hrest hrest' horder)

end Member

namespace Crowd

/-- The tables of members are walked in another order from now on. -/
inductive Reordered (s : Crowd σ α) : Crowd σ α → Prop where
  | mk {members : List Member} (h : List.Forall₂ Member.Reordered s.world.members members) :
      Reordered s { s with world := { s.world with members } }

theorem Twins.reordered {s s' r r' : Crowd σ α} (h : s.Twins s') (hr : s.Reordered r) (hr' : s'.Reordered r')
    (horder : List.Forall₂ Member.SameOrder r.world.members r'.world.members) : r.Twins r' := by
  obtain ⟨hworld, htasks, hdeeds⟩ := h
  obtain ⟨w, tasks, deeds⟩ := s
  obtain ⟨w', tasks', deeds'⟩ := s'
  cases hr with
  | mk hms =>
    cases hr' with
    | mk hms' =>
      cases hworld with
      | mk htwins =>
        exact ⟨.mk (Member.forall₂_twins_reordered htwins hms hms' horder), htasks, hdeeds⟩

end Crowd

end PeerMesh
