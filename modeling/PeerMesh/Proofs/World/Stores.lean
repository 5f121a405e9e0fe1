import PeerMesh.Proofs.World.Interleaving
import PeerMesh.Proofs.World.Running

/-!
# What becomes of stores

* `Activity.Only` : an activity whose effects are all of one kind, whatever their results are;
* `Effect.Linking`, `Effect.Outward` : effects that have to do with connections only. A client is obtained by such effects
  (`Profile.only_obtain`);
* `Effect.Alters`, `World.exists_alters` : all that an effect can do to the store of a node;
* `World.node?_run_of_only` : an activity that neither works on its store nor calls leaves all stores alone;
* `Crowd.Step.exists_alters`, `Crowd.Step.exists_after` : all that a move can do to it;
* `Crowd.Step.forall_rest` : a requirement on what tasks have yet to do, kept from the start of each to its end.
-/

namespace PeerMesh

namespace Activity

variable {α β : Type} {P : Effect → Prop}

/-- Every effect that the activity may come to is of the given kind. -/
def Only (P : Effect → Prop) : Activity α → Prop
  | done _ => True
  | perform e next => P e ∧ ∀ r, (next r).Only P

theorem Only.mono {Q : Effect → Prop} {x : Activity α} (h : x.Only P) (hPQ : ∀ e, P e → Q e) : x.Only Q := by
  induction x with
  | done a => trivial
  | perform e next ih => exact ⟨hPQ e h.1, fun r => ih r (h.2 r)⟩

theorem only_ask {e : Effect} (h : P e) : (ask e).Only P := ⟨h, fun _ => trivial⟩

theorem Only.bind {x : Activity α} (hx : x.Only P) {f : α → Activity β} (hf : ∀ a, (f a).Only P) : (x >>= f).Only P := by
  induction x with
  | done a => exact hf a
  | perform e next ih => exact ⟨hx.1, fun r => ih r (hx.2 r)⟩

theorem only_onStore {f : Store → α × Store} (h : P (.store fun s => (f s).2)) : (onStore f).Only P :=
  (only_ask h).bind fun _ => trivial

theorem only_onPool {f : Pool → α × Pool} (h : P (.pool fun p => (f p).2)) : (onPool f).Only P :=
  (only_ask h).bind fun _ => trivial

theorem only_callEmpty {client : Client} {request : Request} (h : P (.call client.channel request client.limit)) :
    (callEmpty client request).Only P :=
  (only_ask h).bind fun _ => trivial

end Activity

/-- What an effect of a node does to the store of a node: nothing, or what the effect is, or what it takes to serve a
request that the network gives to that node. -/
inductive Effect.Alters {σ : Type} [Network σ] (w : World σ) (e : Effect) (i j : Nat) : (Profile → Store → Store) → Prop where
  | nothing (hown : ∀ change, e = .store change → j ≠ i)
      (hserve : ∀ channel request limit, e = .call channel request limit →
        (Network.call w.network channel request).1 ≠ .serve j) : Alters w e i j fun _ s => s
  | own {change : Store → Store} (he : e = .store change) (hj : j = i) : Alters w e i j fun _ => change
  | served {channel : Channel} {request : Request} {limit : Duration} (he : e = .call channel request limit)
      (hserve : (Network.call w.network channel request).1 = .serve j) :
      Alters w e i j fun me s => (me.answer w.date request s).2.1

/-- An effect that neither works on the store of its node nor calls another. -/
def Effect.Storeless : Effect → Prop
  | store _ => False
  | call .. => False
  | _ => True

def Effect.Linking : Effect → Prop
  | pool _ => True
  | claim _ => True
  | dial .. => True
  | _ => False

def Effect.Outward : Effect → Prop
  | call .. => True
  | close _ => True
  | e => e.Linking

theorem Effect.Linking.storeless {e : Effect} (h : e.Linking) : e.Storeless := by
  cases e with
  | store change => exact h
  | call channel request limit => exact h
  | _ => trivial

theorem Effect.Linking.outward {e : Effect} (h : e.Linking) : e.Outward := by
  cases e with
  | call channel request limit => trivial
  | close channel => trivial
  | _ => exact h

theorem Profile.only_obtain (me : Profile) (peer : Peer) : (me.obtain peer).Only Effect.Linking := by
  refine (Activity.only_onPool trivial).bind fun slot => (Activity.only_ask trivial).bind fun client => ?_
  cases client with
  | some client => trivial
  | none =>
    refine (Activity.only_ask trivial).bind fun result => ?_
    cases result with
    | ok channel => exact (Activity.only_onPool trivial).bind fun _ => trivial
    | error e => exact (Activity.only_onPool trivial).bind fun _ => trivial

theorem Effect.Storeless.alters {σ : Type} [Network σ] {w : World σ} {e : Effect} (he : e.Storeless) (i j : Nat) :
    e.Alters w i j fun _ s => s := by
  refine .nothing ?_ ?_
  · intro change hstore
    subst hstore
    exact absurd he id
  · intro channel request limit hcall
    subst hcall
    exact absurd he id

namespace World

variable {σ : Type}

def Altered (w w' : World σ) (j : Nat) (f : Profile → Store → Store) : Prop :=
  w'.node? j = (w.node? j).map fun x => (x.1, f x.1 x.2)

variable {w w' : World σ} {i j : Nat}

theorem altered_of_eq (h : w'.node? j = w.node? j) : w.Altered w' j fun _ s => s := by
  unfold Altered
  rw [h]
  cases w.node? j with
  | none => rfl
  | some x => rfl

theorem altered_onStore (w : World σ) (i : Nat) (f : Store → Store) :
    w.Altered (w.onMember i fun x => { x with store := f x.store }) i fun _ => f := by
  unfold Altered node?
  rw [getElem?_onMember]
  cases w.members[i]? with
  | none => rfl
  | some x => exact congrArg (Option.map _) (congrArg some (if_pos rfl))

theorem node?_onMember_of_ne (w : World σ) (h : j ≠ i) (f : Member → Member) : (w.onMember i f).node? j = w.node? j := by
  have hno : ¬i = j := Ne.symm h
  unfold node?
  rw [getElem?_onMember]
  cases w.members[j]? with
  | none => rfl
  | some x => exact congrArg (Option.map _) (congrArg some (if_neg hno))

theorem altered_deliver (w : World σ) (i : Nat) (request : Request) :
    w.Altered (w.deliver i request).2 i fun me s => (me.answer w.date request s).2.1 := by
  unfold deliver
  cases hi : w.members[i]? with
  | none =>
    have hnone : w.node? i = none := by
      unfold node?
      rw [hi]
      rfl
    show w.node? i = _
    rw [hnone]
    rfl
  | some x =>
    have hnode : w.node? i = some (x.profile, x.store) := by
      unfold node?
      rw [hi]
      rfl
    have hafter := altered_onStore w i fun _ => (x.profile.answer w.date request x.store).2.1
    unfold Altered at hafter ⊢
    rw [hnode] at hafter ⊢
    exact hafter

theorem node?_deliver_of_ne (w : World σ) (h : j ≠ i) (request : Request) :
    (w.deliver i request).2.node? j = w.node? j := by
  unfold deliver
  cases w.members[i]? with
  | none => rfl
  | some x => exact node?_onMember_of_ne w h _

variable [Network σ]

theorem exists_alters (w : World σ) (i : Nat) (ticket : Ticket) (e : Effect) (j : Nat) :
    ∃ f, e.Alters w i j f ∧ w.Altered (w.perform i ticket e).2 j f := by
  cases e with
  | store change =>
    by_cases hj : j = i
    · subst hj
      exact ⟨_, .own rfl rfl, altered_onStore w j change⟩
    · exact ⟨_, .nothing (fun _ _ => hj) nofun, altered_of_eq (node?_onMember_of_ne w hj _)⟩
  | pool change => exact ⟨_, Effect.Storeless.alters (by trivial) i j, altered_of_eq ((alike_onPool w i change).node? j)⟩
  | claim slot =>
    refine ⟨_, Effect.Storeless.alters (by trivial) i j, altered_of_eq ?_⟩
    have hpool := (alike_onPool w i fun p => p.claim slot ticket).node? j
    unfold perform
    simp only
    split
    · exact hpool
    · exact hpool
  | call channel request limit =>
    match hcall : Network.call w.network channel request with
    | (.reply answer, n) =>
      have hserve : ∀ channel' request' limit', Effect.call channel request limit = .call channel' request' limit' →
          (Network.call w.network channel' request').1 ≠ .serve j := by
        rintro _ _ _ ⟨⟩
        rw [hcall]
        nofun
      refine ⟨_, .nothing nofun hserve, altered_of_eq ?_⟩
      simp only [perform, call, note, hcall]
      rfl
    | (.serve k, n) =>
      have hworld : (w.perform i ticket (.call channel request limit)).2 =
          (World.deliver { w.note i (.call channel.target request) with network := n } k request).2 := by
        simp only [perform, call, note, hcall]
      rw [hworld]
      by_cases hk : j = k
      · subst hk
        have hserve : (Network.call w.network channel request).1 = .serve j := by rw [hcall]
        exact ⟨_, .served rfl hserve, altered_deliver _ j request⟩
      · have hserve : ∀ channel' request' limit', Effect.call channel request limit = .call channel' request' limit' →
            (Network.call w.network channel' request').1 ≠ .serve j := by
          rintro _ _ _ ⟨⟩ hsame
          rw [hcall] at hsame
          exact hk (Reaction.serve.inj hsame).symm
        exact ⟨_, .nothing nofun hserve, altered_of_eq (node?_deliver_of_ne _ hk request)⟩
  | _ => exact ⟨_, Effect.Storeless.alters (by trivial) i j, altered_of_eq rfl⟩

theorem perform_store {me : Profile} {s : Store} (hi : w.node? i = some (me, s)) (ticket : Ticket)
    (change : Store → Store) :
    ∃ w', w.perform i ticket (.store change) = (.ready w.elapsed s, w') ∧ w'.node? i = some (me, change s) := by
  obtain ⟨x, hx, hxs⟩ := Option.map_eq_some_iff.1 hi
  cases hxs
  refine ⟨w.onMember i fun x => { x with store := change x.store }, ?_, ?_⟩
  · simp only [perform, hx, Option.map_some, Option.getD_some]
  · exact (altered_onStore w i change).trans (congrArg _ hi)

theorem node?_perform (w : World σ) (i : Nat) (ticket : Ticket) {e : Effect} (he : e.Storeless) (j : Nat) :
    (w.perform i ticket e).2.node? j = w.node? j := by
  obtain ⟨f, hf, haltered⟩ := w.exists_alters i ticket e j
  cases hf with
  | nothing => exact haltered.trans Option.map_id'
  | own hchange =>
    subst hchange
    exact absurd he id
  | served hcall =>
    subst hcall
    exact absurd he id

theorem node?_run_of_perform {α : Type} {P : Effect → Prop} {ticket : Ticket}
    (hP : ∀ (w : World σ) (e : Effect), P e → (w.perform i ticket e).2.node? j = w.node? j) {activity : Activity α}
    (h : activity.Only P) (w : World σ) : (activity.run (answer i ticket) w).2.node? j = w.node? j := by
  induction activity generalizing w with
  | done a => rfl
  | perform e next ih =>
    have hperform := hP w e h.1
    unfold Activity.run answer
    rcases he : w.perform i ticket e with ⟨outcome, w'⟩
    rw [he] at hperform
    cases outcome with
    | ready time r => exact (ih r (h.2 r) (w'.waitUntil time)).trans hperform
    | blocked => exact hperform
    | never => exact hperform

theorem node?_run_of_only {α : Type} {activity : Activity α} (h : activity.Only Effect.Storeless) (w : World σ) (i : Nat)
    (ticket : Ticket) (j : Nat) : (activity.run (answer i ticket) w).2.node? j = w.node? j :=
  node?_run_of_perform (fun w _ he => w.node?_perform i ticket he j) h w

end World

namespace Crowd

variable {σ α : Type}

theorem world_after (s : Crowd σ α) (k : Nat) (t : Task α) {e : Effect} (next : e.Result → Activity α)
    (outcome : Outcome e.Result × World σ) : (s.after k t next outcome).world = outcome.2 := by
  match outcome with
  | (.ready time r, w) => rfl
  | (.blocked, w) => rfl
  | (.never, w) => rfl

variable [Network σ] {s s' : Crowd σ α} {m : Move α}

/-- All that a move can do to the store of a node: nothing, or what the next effect of a task does. -/
theorem Step.exists_alters (h : s.Step m s') (j : Nat) :
    (∃ k t e next f, m = .go k ∧ s.tasks[k]? = some t ∧ t.rest = .perform e next ∧ e.Alters s.world t.member j f ∧
      s.world.Altered s'.world j f) ∨ s'.world.node? j = s.world.node? j := by
  cases h with
  | start member activity => exact Or.inr rfl
  | wait time date => exact Or.inr rfl
  | @go k t e next ht hrest _ =>
    obtain ⟨f, hf, haltered⟩ := s.world.exists_alters t.member t.ticket e j
    refine Or.inl ⟨k, t, e, next, f, rfl, ht, hrest, hf, ?_⟩
    rw [world_after]
    exact haltered

/-- The move is an effect of node `i` of one kind, or asks the node something of another. -/
def Causes (s : Crowd σ α) (m : Move α) (i : Nat) (me : Profile) (own : Effect → Prop)
    (asked : Request → Store → Prop) : Prop :=
  ∃ k t e next, m = .go k ∧ s.tasks[k]? = some t ∧ t.rest = .perform e next ∧
    (t.member = i ∧ own e ∨
      ∃ channel request limit store, e = .call channel request limit ∧
        (Network.call s.world.network channel request).1 = .serve i ∧ s.world.node? i = some (me, store) ∧
        asked request store)

section

variable {i : Nat} {me : Profile} {before : Store}

theorem causes_go_iff {own : Effect → Prop} {asked : Request → Store → Prop} {k : Nat} {t : Task α} {e : Effect}
    {next : e.Result → Activity α} (ht : s.tasks[k]? = some t) (hrest : t.rest = .perform e next)
    (hi : s.world.node? i = some (me, before)) :
    s.Causes (.go k) i me own asked ↔ t.member = i ∧ own e ∨
      ∃ channel request limit, e = .call channel request limit ∧
        (Network.call s.world.network channel request).1 = .serve i ∧ asked request before := by
  constructor
  · rintro ⟨_, t', e', next', ⟨⟩, ht', hrest', h⟩
    cases ht.symm.trans ht'
    cases hrest.symm.trans hrest'
    rcases h with h | ⟨channel, request, limit, store, he, hserve, hi', h⟩
    · exact Or.inl h
    · cases hi.symm.trans hi'
      exact Or.inr ⟨channel, request, limit, he, hserve, h⟩
  · rintro (h | ⟨channel, request, limit, he, hserve, h⟩)
    · exact ⟨k, t, e, next, rfl, ht, hrest, Or.inl h⟩
    · exact ⟨k, t, e, next, rfl, ht, hrest, Or.inr ⟨channel, request, limit, before, he, hserve, hi, h⟩⟩

/-- What a move makes of the store of node `i`: nothing, what an effect of the node makes of it, or what it takes to answer
a request. Which of several things it causes depends on that effect or that request alone. -/
theorem Step.exists_after {ι : Type} (h : s.Step m s') (hi : s.world.node? i = some (me, before))
    {own : ι → Effect → Prop} (hown : ∀ x e, own x e → ∃ change, e = .store change) (asked : ι → Request → Store → Prop) :
    ∃ after, s'.world.node? i = some (me, after) ∧
      ((after = before ∧ ∀ x, ¬s.Causes m i me (own x) (asked x)) ∨
        (∃ k t change next, m = .go k ∧ s.tasks[k]? = some t ∧ t.rest = .perform (.store change) next ∧ t.member = i ∧
          after = change before ∧ ∀ x, s.Causes m i me (own x) (asked x) ↔ own x (.store change)) ∨
        ∃ k t channel request limit next, m = .go k ∧ s.tasks[k]? = some t ∧
          t.rest = .perform (.call channel request limit) next ∧ after = (me.answer s.world.date request before).2.1 ∧
          ∀ x, s.Causes m i me (own x) (asked x) ↔ asked x request before) := by
  cases h with
  | start j activity => exact ⟨before, hi, Or.inl ⟨rfl, fun _ ⟨_, _, _, _, hm, _⟩ => nomatch hm⟩⟩
  | wait time date => exact ⟨before, hi, Or.inl ⟨rfl, fun _ ⟨_, _, _, _, hm, _⟩ => nomatch hm⟩⟩
  | @go k t e next ht hrest _ =>
    obtain ⟨f, hf, haltered⟩ := s.world.exists_alters t.member t.ticket e i
    unfold World.Altered at haltered
    rw [hi] at haltered
    refine ⟨f me before, ?_, ?_⟩
    · rw [world_after]
      exact haltered
    simp only [causes_go_iff ht hrest hi]
    cases hf with
    | nothing hchange hserve =>
      refine Or.inl ⟨rfl, fun x => ?_⟩
      rintro (⟨hmember, h⟩ | ⟨channel, request, limit, he, hcall, -⟩)
      · obtain ⟨change, he⟩ := hown x e h
        exact hchange change he hmember.symm
      · exact hserve _ _ _ he hcall
    | @own change he hmember =>
      subst he
      refine Or.inr (Or.inl ⟨k, t, change, next, rfl, ht, hrest, hmember.symm, rfl, fun x => ?_⟩)
      refine ⟨?_, fun h => Or.inl ⟨hmember.symm, h⟩⟩
      rintro (⟨-, h⟩ | ⟨_, _, _, ⟨⟩, -⟩)
      exact h
    | @served channel request limit he hserve =>
      subst he
      refine Or.inr (Or.inr ⟨k, t, channel, request, limit, next, rfl, ht, hrest, rfl, fun x => ?_⟩)
      refine ⟨?_, fun h => Or.inr ⟨channel, request, limit, rfl, hserve, h⟩⟩
      rintro (⟨-, h⟩ | ⟨_, _, _, ⟨⟩, -, h⟩)
      · obtain ⟨_, ⟨⟩⟩ := hown x _ h
      · exact h

end

/-- What is required of all that tasks have yet to do is kept, if it is required of new tasks and goes on to what is
left of a task after its next effect. -/
theorem Step.forall_rest {P : Nat → Activity α → Prop} (h : s.Step m s') (hs : ∀ t ∈ s.tasks, P t.member t.rest)
    (hstart : ∀ i activity, m = .start i activity → P i activity)
    (hnext : ∀ i e next, P i (.perform e next) → ∀ r, P i (next r)) : ∀ t ∈ s'.tasks, P t.member t.rest := by
  cases h with
  | start i activity =>
    intro t ht
    rcases List.mem_append.1 ht with ht | ht
    · exact hs t ht
    · cases List.mem_singleton.1 ht
      exact hstart i activity rfl
  | wait time date => exact hs
  | @go k t e next ht hrest _ =>
    have hP : P t.member (.perform e next) := by
      rw [← hrest]
      exact hs t (List.mem_of_getElem? ht)
    have hset : ∀ t' : Task α, P t'.member t'.rest → ∀ u ∈ s.tasks.set k t', P u.member u.rest := by
      intro t' ht' u hu
      rcases List.mem_or_eq_of_mem_set hu with hu | rfl
      · exact hs u hu
      · exact ht'
    match s.world.perform t.member t.ticket e with
    | (.ready time r, w) => exact hset _ (hnext t.member e next hP r)
    | (.blocked, w) => exact hs
    | (.never, w) =>
      apply hset
      rw [hrest]
      exact hP

end Crowd

end PeerMesh
