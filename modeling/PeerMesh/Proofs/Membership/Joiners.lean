import PeerMesh.Membership.Serving
import PeerMesh.Proofs.Membership.Names
import PeerMesh.Proofs.World.Stores
import PeerMesh.World.Shared

/-!
# Attempts to join at the same time

An attempt to join looks the name up, lets the joiner in and reads the table. Each access is atomic, and other attempts
may have their turn in between.

* `Attempt`, `Attempt.rest` : how far an attempt has come, and what is left of it;
* `Advance`, `Crowd.Hosts.step` : all that one move can do, to the store and to the attempts;
* `Crowd.Overtaken` : a joiner is let in after the name was looked up for another one that claims it too, and goes on;
* `Crowd.names_differ` : unless that happens, no two records ever carry one name, and whoever is let in under the name of
  a joiner that is in comes when that one has been given another name;
* `Crowd.not_overtaken`, `Crowd.not_overtaken_of_sorted` : it does not happen among joiners of different names, nor among
  attempts that are made one after another.
-/

namespace PeerMesh

/-! ## One attempt -/

/-- How far an attempt to join has come. -/
inductive Attempt where
  /-- The name has yet to be looked up. -/
  | asking
  /-- The name was taken. -/
  | refused
  /-- The name was free, and the joiner has yet to be let in. -/
  | cleared
  /-- The joiner is in the table. -/
  | entered
  /-- The table was read for the answer. -/
  | listed (nodes : List Peer) (notices : List Notice)
  | accepted (nodes : List Peer)

namespace Attempt

/-- What is left to do for a joiner, and at last the joiner with the answer. -/
def rest (me : Profile) (joiner : Peer) : Attempt → Activity (Peer × Response)
  | asking => Prod.mk joiner <$> me.serve (.joinMesh joiner)
  | refused => pure (joiner, .joinMesh { nameUnique := false, responder := me.name, nodes := [] })
  | cleared => (fun reply => (joiner, .joinMesh reply)) <$> me.enroll joiner
  | entered => (fun reply => (joiner, .joinMesh reply)) <$> me.welcome joiner
  | listed nodes notices => do
    Activity.announce notices
    pure (joiner, .joinMesh { nameUnique := true, responder := me.name, nodes })
  | accepted nodes => pure (joiner, .joinMesh { nameUnique := true, responder := me.name, nodes })

theorem rest_asking (me : Profile) (joiner : Peer) :
    asking.rest me joiner =
      .perform (.store fun s => s) fun old => (if me.nameTaken joiner old then refused else cleared).rest me joiner := by
  refine congrArg (Activity.perform _) (funext fun old => ?_)
  show Prod.mk joiner <$> Response.joinMesh <$> (if me.nameTaken joiner old then
    (pure { nameUnique := false, responder := me.name, nodes := [] } : Activity JoinReply) else me.enroll joiner) = _
  cases me.nameTaken joiner old with
  | true => rfl
  | false => rfl

/-- Surroundings in which every store is empty. -/
def bare : (e : Effect) → Unit → Option e.Result × Unit
  | .store _, _ => (some ({} : Store), ())
  | .announce _, _ => (some (), ())
  | _, _ => (none, ())

theorem joiner_inj {me : Profile} {p q : Peer} {a b : Attempt} (h : a.rest me p = b.rest me q) : p = q := by
  have hvalue : ∀ (p : Peer) (a : Attempt), ((a.rest me p).run bare ()).1.map Prod.fst = some p := by
    intro p a
    cases a with
    | asking =>
      rw [rest_asking]
      show ((Attempt.rest me p (if me.nameTaken p {} then refused else cleared)).run bare ()).1.map Prod.fst = some p
      cases me.nameTaken p {} with
      | true => rfl
      | false => rfl
    | _ => rfl
  have hsame := hvalue p a
  rw [h, hvalue q b] at hsame
  exact (Option.some.inj hsame).symm

/-- Whoever has yet to look the name up leaves the store as it is, and whoever is to be let in does not. -/
theorem asking_ne_cleared {me : Profile} {p q : Peer} : asking.rest me p ≠ cleared.rest me q := by
  intro h
  rw [rest_asking] at h
  have hchange : (fun s : Store => s) = fun s => s.letIn q := Effect.store.inj (Activity.perform.inj h).1
  have hnodes := congrArg (fun f => (f ({} : Store)).nodes.length) hchange
  cases hnodes

/-- Whether the joiner was let in. -/
def inside : Attempt → Bool
  | entered => true
  | listed .. => true
  | accepted _ => true
  | _ => false

/-- All that one effect of an attempt can do, to the store and to the attempt. -/
inductive Turn (me : Profile) (joiner : Peer) (s : Store) : Attempt → Store → Attempt → Prop where
  | refuse (h : me.nameTaken joiner s = true) : Turn me joiner s .asking s .refused
  | clear (h : me.nameTaken joiner s = false) : Turn me joiner s .asking s .cleared
  | enter : Turn me joiner s .cleared (s.letIn joiner) .entered
  | list : Turn me joiner s .entered s (.listed (s.nodes.map Node.toPeer) (me.notices joiner s))
  | tell {nodes : List Peer} {notices : List Notice} : Turn me joiner s (.listed nodes notices) s (.accepted nodes)

def LetIn (xs : List (Peer × Attempt)) (joiner : Peer) : Prop := ∃ a : Attempt, a.inside = true ∧ (joiner, a) ∈ xs

theorem letIn_set {xs : List (Peer × Attempt)} {k : Nat} {p joiner : Peer} {a : Attempt}
    (h : LetIn (xs.set k (joiner, a)) p) :
    LetIn xs p ∨ p = joiner ∧ a.inside = true := by
  obtain ⟨b, hb, hmem⟩ := h
  rcases List.mem_or_eq_of_mem_set hmem with hmem | heq
  · exact Or.inl ⟨b, hb, hmem⟩
  · cases heq
    exact Or.inr ⟨rfl, hb⟩

end Attempt

/-! ## Many attempts -/

/-- All that a move can do to a store and to the attempts to join that change it. -/
inductive Advance (me : Profile) (i : Nat) (s : Store) (xs : List (Peer × Attempt)) :
    Crowd.Move (Peer × Response) → Store → List (Peer × Attempt) → Prop where
  | start (joiner : Peer) : Advance me i s xs (.start i (Attempt.asking.rest me joiner)) s (xs ++ [(joiner, .asking)])
  | wait (time : Nat) (date : Int64) : Advance me i s xs (.wait time date) s xs
  | turn {k : Nat} {joiner : Peer} {a a' : Attempt} {s' : Store} (hk : xs[k]? = some (joiner, a))
      (h : a.Turn me joiner s s' a') : Advance me i s xs (.go k) s' (xs.set k (joiner, a'))

namespace Crowd

variable {σ : Type} {s s' : Crowd σ (Peer × Response)} {m : Move (Peer × Response)} {me : Profile} {i : Nat}
  {store : Store} {xs : List (Peer × Attempt)}

/-- The crowd is made of attempts to join at one member, which has the given store. -/
structure Hosts (s : Crowd σ (Peer × Response)) (i : Nat) (me : Profile) (store : Store) (xs : List (Peer × Attempt)) :
    Prop where
  node : s.world.node? i = some (me, store)
  tasks : s.tasks.map (fun t => (t.member, t.rest)) = xs.map fun x => (i, x.2.rest me x.1)

theorem Hosts.task (hs : s.Hosts i me store xs) {k : Nat} {t : Task (Peer × Response)} (ht : s.tasks[k]? = some t) :
    ∃ joiner a, xs[k]? = some (joiner, a) ∧ t.member = i ∧ t.rest = a.rest me joiner := by
  have hk := congrArg (fun ys => ys[k]?) hs.tasks
  simp only [List.getElem?_map, ht, Option.map_some] at hk
  obtain ⟨⟨joiner, a⟩, hx, heq⟩ := Option.map_eq_some_iff.1 hk.symm
  obtain ⟨hmember, hrest⟩ := Prod.mk.inj heq
  exact ⟨joiner, a, hx, hmember.symm, hrest.symm⟩

theorem Hosts.attempt (hs : s.Hosts i me store xs) {k : Nat} {joiner : Peer} {a : Attempt}
    (hk : xs[k]? = some (joiner, a)) : ∃ t, s.tasks[k]? = some t ∧ t.rest = a.rest me joiner := by
  have ht := congrArg (fun ys => ys[k]?) hs.tasks
  simp only [List.getElem?_map, hk, Option.map_some] at ht
  obtain ⟨t, ht, heq⟩ := Option.map_eq_some_iff.1 ht
  exact ⟨t, ht, congrArg Prod.snd heq⟩

theorem Hosts.mem (hs : s.Hosts i me store xs) {joiner : Peer} {a : Attempt} (h : (joiner, a) ∈ xs) :
    ∃ t ∈ s.tasks, t.rest = a.rest me joiner := by
  obtain ⟨k, hk⟩ := List.mem_iff_getElem?.1 h
  obtain ⟨t, ht, hrest⟩ := hs.attempt hk
  exact ⟨t, List.mem_of_getElem? ht, hrest⟩

theorem Hosts.letIn_of_value (hs : s.Hosts i me store xs) {t : Task (Peer × Response)} (ht : t ∈ s.tasks) {p : Peer}
    {reply : JoinReply} (hvalue : t.value? = some (p, .joinMesh reply)) (hunique : reply.nameUnique = true) :
    Attempt.LetIn xs p := by
  obtain ⟨k, hk⟩ := List.mem_iff_getElem?.1 ht
  obtain ⟨joiner, a, hx, -, hrest⟩ := hs.task hk
  unfold Task.value? at hvalue
  rw [hrest] at hvalue
  cases a with
  | accepted nodes =>
    cases hvalue
    exact ⟨.accepted nodes, rfl, List.mem_of_getElem? hx⟩
  | refused =>
    cases hvalue
    cases hunique
  | _ => cases hvalue

variable [Network σ]

theorem Hosts.turn (hs : s.Hosts i me store xs) {k : Nat} {t : Task (Peer × Response)} {joiner : Peer} {a' : Attempt}
    {e : Effect} {next : e.Result → Activity (Peer × Response)} {time : Nat} {r : e.Result} {w : World σ} {store' : Store}
    (ht : s.tasks[k]? = some t) (hperform : s.world.perform t.member t.ticket e = (.ready time r, w))
    (hw : w.node? i = some (me, store')) (hnext : next r = a'.rest me joiner) :
    (s.after k t next (s.world.perform t.member t.ticket e)).Hosts i me store' (xs.set k (joiner, a')) := by
  obtain ⟨-, -, -, hmember, -⟩ := hs.task ht
  rw [hperform]
  refine ⟨hw, ?_⟩
  show (s.tasks.set k _).map _ = _
  rw [List.map_set, List.map_set, hs.tasks, hmember, hnext]

theorem Hosts.step (hs : s.Hosts i me store xs) (h : s.Step m s')
    (hm : ∀ j activity, m = .start j activity → j = i ∧ ∃ joiner, activity = Prod.mk joiner <$> me.serve (.joinMesh joiner)) :
    ∃ store' xs', s'.Hosts i me store' xs' ∧ Advance me i store xs m store' xs' := by
  cases h with
  | start j activity =>
    obtain ⟨rfl, joiner, rfl⟩ := hm j activity rfl
    refine ⟨store, _, ⟨hs.node, ?_⟩, .start joiner⟩
    show (s.tasks ++ [_]).map _ = _
    rw [List.map_append, List.map_append, hs.tasks]
    rfl
  | wait time date => exact ⟨store, xs, ⟨hs.node, hs.tasks⟩, .wait time date⟩
  | @go k t e next ht hrest _ =>
    obtain ⟨joiner, a, hk, hmember, hrest'⟩ := hs.task ht
    have hnode := hs.node
    rw [← hmember] at hnode
    rw [hrest, eq_comm] at hrest'
    cases a with
    | asking =>
      rw [Attempt.rest_asking] at hrest'
      cases hrest'
      obtain ⟨w, hperform, hw⟩ := World.perform_store hnode t.ticket fun s => s
      rw [hmember] at hw
      cases htaken : me.nameTaken joiner store with
      | true =>
        refine ⟨store, _, hs.turn ht hperform hw ?_, .turn hk (.refuse htaken)⟩
        rw [htaken]
        rfl
      | false =>
        refine ⟨store, _, hs.turn ht hperform hw ?_, .turn hk (.clear htaken)⟩
        rw [htaken]
        rfl
    | cleared =>
      cases hrest'
      obtain ⟨w, hperform, hw⟩ := World.perform_store hnode t.ticket fun s => s.letIn joiner
      rw [hmember] at hw
      exact ⟨_, _, hs.turn ht hperform hw rfl, .turn hk .enter⟩
    | entered =>
      cases hrest'
      obtain ⟨w, hperform, hw⟩ := World.perform_store hnode t.ticket fun s => s
      rw [hmember] at hw
      exact ⟨store, _, hs.turn ht hperform hw rfl, .turn hk .list⟩
    | listed nodes notices =>
      cases hrest'
      exact ⟨store, _, hs.turn ht rfl hs.node rfl, .turn hk .tell⟩
    | refused => cases hrest'
    | accepted nodes => cases hrest'

/-! ## Joiners of one name -/

/-- Between the look-up of an attempt and its change of the table another joiner of that name is let in. -/
def Overtaken (s : Crowd σ (Peer × Response)) (me : Profile) (moves : List (Move (Peer × Response))) : Prop :=
  ∃ before after r k l t u p q, moves = before ++ .go l :: after ∧ s.run before = some r ∧ .go k ∈ after ∧
    r.tasks[k]? = some t ∧ t.rest = Attempt.cleared.rest me p ∧
    r.tasks[l]? = some u ∧ u.rest = Attempt.cleared.rest me q ∧ q.name = p.name ∧ q.id ≠ p.id

/-- The record of a joiner that is in carries another name, when another joiner is about to be let in. -/
def Vacated (s : Crowd σ (Peer × Response)) (i : Nat) (me : Profile) (p q : Peer) : Prop :=
  (∃ t ∈ s.tasks, ∃ a : Attempt, a.inside = true ∧ t.rest = a.rest me p) ∧
  (∃ t ∈ s.tasks, t.rest = Attempt.cleared.rest me q) ∧
  ∃ store n, s.world.node? i = some (me, store) ∧ store.node? p.id = some n ∧ n.name ≠ p.name

/-- What holds along a run of attempts none of which is overtaken, with the moves that are yet to come. -/
structure Orderly (s : Crowd σ (Peer × Response)) (moves : List (Move (Peer × Response))) (i : Nat) (me : Profile)
    (after : List (Move (Peer × Response))) (r : Crowd σ (Peer × Response)) (store : Store) (xs : List (Peer × Attempt)) :
    Prop where
  hosts : r.Hosts i me store xs
  keyed : store.Keyed
  names : (store.nodes.map Node.name).Nodup
  /-- Whoever is yet to be let in has no namesake. -/
  free : ∀ (k : Nat) p, xs[k]? = some (p, Attempt.cleared) → .go k ∈ after → ¬store.HasNamesake p
  known : ∀ p, Attempt.LetIn xs p → store.Knows p.id
  vacated : ∀ p q, Attempt.LetIn xs p → Attempt.LetIn xs q → p.name = q.name → p.id ≠ q.id →
    ∃ r, s.Passes moves r ∧ (r.Vacated i me p q ∨ r.Vacated i me q p)

namespace Orderly

variable {moves before after : List (Move (Peer × Response))} {r r' : Crowd σ (Peer × Response)}

theorem same {xs' : List (Peer × Attempt)} (h : s.Orderly moves i me (m :: after) r store xs)
    (hosts : r'.Hosts i me store xs') (hin : ∀ p, Attempt.LetIn xs' p → Attempt.LetIn xs p)
    (hfree : ∀ (k : Nat) p, xs'[k]? = some (p, Attempt.cleared) → xs[k]? = some (p, Attempt.cleared) ∨ ¬store.HasNamesake p) :
    s.Orderly moves i me after r' store xs' where
  hosts := hosts
  keyed := h.keyed
  names := h.names
  free k p hk hgo := (hfree k p hk).elim (fun hk => h.free k p hk (List.mem_cons_of_mem m hgo)) id
  known p hp := h.known p (hin p hp)
  vacated p q hp hq := h.vacated p q (hin p hp) (hin q hq)

theorem enter {k : Nat} {joiner : Peer} (h : s.Orderly moves i me (.go k :: after) r store xs)
    (hsplit : moves = before ++ .go k :: after) (hrun : s.run before = some r) (hno : ¬s.Overtaken me moves)
    (hk : xs[k]? = some (joiner, .cleared)) (hosts : r'.Hosts i me (store.letIn joiner) (xs.set k (joiner, .entered))) :
    s.Orderly moves i me after r' (store.letIn joiner) (xs.set k (joiner, .entered)) := by
  have hjoiner : ¬store.HasNamesake joiner := h.free k joiner hk List.mem_cons_self
  have hknown : ∀ p, Attempt.LetIn xs p → (store.letIn joiner).Knows p.id :=
    fun p hp => (store.knows_letIn joiner p.id).2 (Or.inr (h.known p hp))
  -- whoever was in before under the same name has another one by now
  have hvacated : ∀ p, Attempt.LetIn xs p → p.name = joiner.name → p.id ≠ joiner.id → r.Vacated i me p joiner := by
    intro p hp hname hid
    obtain ⟨n, hn⟩ := h.known p hp
    obtain ⟨a, ha, hmem⟩ := hp
    obtain ⟨t, ht, hrest⟩ := h.hosts.mem hmem
    obtain ⟨u, hu, hrest'⟩ := h.hosts.mem (List.mem_of_getElem? hk)
    refine ⟨⟨t, ht, a, ha, hrest⟩, ⟨u, hu, hrest'⟩, store, n, h.hosts.node, hn, fun hsame => ?_⟩
    exact hjoiner ((Store.hasNamesake_iff h.keyed).2 ⟨p.id, n, hn, hid, hsame.trans hname⟩)
  have hpasses : s.Passes moves r := ⟨before, _, hsplit, hrun⟩
  refine ⟨hosts, h.keyed.letIn joiner, Store.nodup_names_letIn h.keyed h.names hjoiner, ?_, ?_, ?_⟩
  · intro j p hj hgo hnamesake
    rcases getElem?_set_cases hk hj with ⟨-, heq⟩ | ⟨-, hj⟩
    · cases heq
    · rcases Store.hasNamesake_letIn h.keyed hnamesake with hold | ⟨hname, hid⟩
      · exact h.free j p hj (List.mem_cons_of_mem _ hgo) hold
      · obtain ⟨t, ht, hrest⟩ := h.hosts.attempt hj
        obtain ⟨u, hu, hrest'⟩ := h.hosts.attempt hk
        exact hno ⟨before, after, r, j, k, t, u, p, joiner, hsplit, hrun, hgo, ht, hrest, hu, hrest', hname, hid⟩
  · intro p hp
    rcases Attempt.letIn_set hp with hp | ⟨rfl, -⟩
    · exact hknown p hp
    · exact (store.knows_letIn p p.id).2 (Or.inl rfl)
  · intro p q hp hq hname hid
    rcases Attempt.letIn_set hp with hp | ⟨rfl, -⟩
    · rcases Attempt.letIn_set hq with hq | ⟨hjoiner, -⟩
      · exact h.vacated p q hp hq hname hid
      · rw [hjoiner] at hname hid ⊢
        exact ⟨r, hpasses, Or.inl (hvacated p hp hname hid)⟩
    · rcases Attempt.letIn_set hq with hq | ⟨hjoiner, -⟩
      · exact ⟨r, hpasses, Or.inr (hvacated q hq hname.symm hid.symm)⟩
      · rw [hjoiner] at hid
        exact absurd rfl hid

theorem step (h : s.Orderly moves i me (m :: after) r store xs) (hsplit : moves = before ++ m :: after)
    (hrun : s.run before = some r) (hno : ¬s.Overtaken me moves) (hstep : r.Step m r')
    (hm : ∀ j activity, m = .start j activity → j = i ∧ ∃ joiner, activity = Prod.mk joiner <$> me.serve (.joinMesh joiner)) :
    ∃ store' xs', s.Orderly moves i me after r' store' xs' := by
  obtain ⟨store', xs', hosts, hadvance⟩ := h.hosts.step hstep hm
  refine ⟨store', xs', ?_⟩
  cases hadvance with
  | start joiner =>
    refine h.same hosts ?_ fun k p hk => ?_
    · rintro p ⟨a, ha, hmem⟩
      rcases List.mem_append.1 hmem with hmem | hmem
      · exact ⟨a, ha, hmem⟩
      · cases List.mem_singleton.1 hmem
        cases ha
    · rcases getElem?_concat_cases hk with hk | ⟨-, heq⟩
      · exact Or.inl hk
      · cases heq
  | wait time date => exact h.same hosts (fun p => id) fun k p => Or.inl
  | @turn k joiner a a' _ hk hturn =>
    have hsame : store' = store → (a'.inside = true → a.inside = true) → (a' = .cleared → ¬store.HasNamesake joiner) →
        s.Orderly moves i me after r' store' (xs.set k (joiner, a')) := by
      rintro rfl hinside hfree
      refine h.same hosts (fun p hp => ?_) fun j p hj => ?_
      · rcases Attempt.letIn_set hp with hp | ⟨rfl, ha'⟩
        · exact hp
        · exact ⟨a, hinside ha', List.mem_of_getElem? hk⟩
      · rcases getElem?_set_cases hk hj with ⟨-, heq⟩ | ⟨-, hj⟩
        · cases heq
          exact Or.inr (hfree rfl)
        · exact Or.inl hj
    cases hturn with
    | refuse => exact hsame rfl nofun nofun
    | clear hfree => exact hsame rfl nofun fun _ => Profile.not_hasNamesake_of_free h.keyed h.names hfree
    | enter => exact h.enter hsplit hrun hno hk hosts
    | list => exact hsame rfl (fun _ => rfl) nofun
    | tell => exact hsame rfl (fun _ => rfl) nofun

end Orderly

/-- Attempts to join at one member at the same time, in every order of their effects, none of which is overtaken. If no
two records carry one name at the beginning, none do at any moment; and if two joiners of one name at different addresses
are both let in, the record of one of them had got another name when the other was let in. -/
theorem names_differ {moves : List (Move (Peer × Response))} (hi : s.world.node? i = some (me, store))
    (hkeyed : store.Keyed) (hnames : (store.nodes.map Node.name).Nodup) (htasks : s.tasks = [])
    (hmoves : ∀ j activity, .start j activity ∈ moves →
      j = i ∧ ∃ joiner, activity = Prod.mk joiner <$> me.serve (.joinMesh joiner))
    (hno : ¬s.Overtaken me moves) :
    ∀ r, s.Passes moves r →
      (∃ after, r.world.node? i = some (me, after) ∧ (after.nodes.map Node.name).Nodup) ∧
      ∀ t ∈ r.tasks, ∀ u ∈ r.tasks, ∀ p q reply reply', t.value? = some (p, .joinMesh reply) →
        u.value? = some (q, .joinMesh reply') → reply.nameUnique = true → reply'.nameUnique = true →
        p.name = q.name → p.id ≠ q.id → ∃ r₀, s.Passes moves r₀ ∧ (r₀.Vacated i me p q ∨ r₀.Vacated i me q p) := by
  have hnobody : ∀ p, ¬Attempt.LetIn [] p := fun p ⟨a, _, hmem⟩ => absurd hmem List.not_mem_nil
  have hfirst : ∃ store xs, s.Orderly moves i me moves s store xs :=
    ⟨store, [], ⟨hi, by rw [htasks]; rfl⟩, hkeyed, hnames, nofun, fun p hp => absurd hp (hnobody p),
      fun p q hp => absurd hp (hnobody p)⟩
  rintro r ⟨before, after, hsplit, hrun⟩
  obtain ⟨store', xs, h⟩ : ∃ store xs, s.Orderly moves i me after r store xs := by
    refine split_induction (P := fun after r => ∃ store xs, s.Orderly moves i me after r store xs) hfirst ?_ hsplit hrun
    rintro before m after r r' hsplit hrun hstep ⟨store, xs, h⟩
    refine h.step hsplit hrun hno (step_of_step? hstep) ?_
    rintro j activity rfl
    exact hmoves j activity (by rw [hsplit]; simp)
  refine ⟨⟨store', h.hosts.node, h.names⟩, ?_⟩
  intro t ht u hu p q reply reply' hp hq hunique hunique'
  exact h.vacated p q (h.hosts.letIn_of_value ht hp hunique) (h.hosts.letIn_of_value hu hq hunique')

/-- A run of attempts to join goes through attempts only. Each was started by a move, and whoever has looked its name up
has made one. -/
theorem exists_hosts {moves : List (Move (Peer × Response))} (hi : s.world.node? i = some (me, store))
    (htasks : s.tasks = [])
    (hmoves : ∀ j activity, .start j activity ∈ moves →
      j = i ∧ ∃ joiner, activity = Prod.mk joiner <$> me.serve (.joinMesh joiner))
    {r : Crowd σ (Peer × Response)} (hr : s.Passes moves r) :
    ∃ store xs, r.Hosts i me store xs ∧
      (∀ x ∈ xs, .start i (Prod.mk x.1 <$> me.serve (.joinMesh x.1)) ∈ moves) ∧
      ∀ (k : Nat) p a, xs[k]? = some (p, a) → a ≠ .asking → .go k ∈ moves := by
  refine hr.induction (P := fun r => ∃ store xs, r.Hosts i me store xs ∧
    (∀ x ∈ xs, .start i (Prod.mk x.1 <$> me.serve (.joinMesh x.1)) ∈ moves) ∧
      ∀ (k : Nat) p a, xs[k]? = some (p, a) → a ≠ .asking → .go k ∈ moves) ?_ ?_
  · exact ⟨store, [], ⟨hi, by rw [htasks]; rfl⟩, nofun, nofun⟩
  · rintro m r r' hgoes ⟨store, xs, hosts, hstarted, hmoved⟩
    obtain ⟨store', xs', hosts', hadvance⟩ := hosts.step (step_of_step? hgoes.step?) fun j activity hm =>
      hmoves j activity (hm ▸ hgoes.mem)
    refine ⟨store', xs', hosts', ?_⟩
    cases hadvance with
    | start joiner =>
      refine ⟨fun x hx => ?_, fun k p a hk ha => ?_⟩
      · rcases List.mem_append.1 hx with hx | hx
        · exact hstarted x hx
        · cases List.mem_singleton.1 hx
          exact hgoes.mem
      · rcases getElem?_concat_cases hk with hk | ⟨-, heq⟩
        · exact hmoved k p a hk ha
        · cases heq
          exact absurd rfl ha
    | wait time date => exact ⟨hstarted, hmoved⟩
    | @turn k joiner a a' _ hk hturn =>
      refine ⟨fun x hx => ?_, fun j p b hj hb => ?_⟩
      · rcases List.mem_or_eq_of_mem_set hx with hx | rfl
        · exact hstarted x hx
        · exact hstarted (joiner, a) (List.mem_of_getElem? hk)
      · rcases getElem?_set_cases hk hj with ⟨rfl, -⟩ | ⟨-, hj⟩
        · exact hgoes.mem
        · exact hmoved j p b hj hb

/-- Joiners at different addresses overtake each other only if they claim one name. -/
theorem not_overtaken {moves : List (Move (Peer × Response))} (hi : s.world.node? i = some (me, store))
    (htasks : s.tasks = [])
    (hmoves : ∀ j activity, .start j activity ∈ moves →
      j = i ∧ ∃ joiner, activity = Prod.mk joiner <$> me.serve (.joinMesh joiner))
    (hnames : ∀ p q, .start i (Prod.mk p <$> me.serve (.joinMesh p)) ∈ moves →
      .start i (Prod.mk q <$> me.serve (.joinMesh q)) ∈ moves → p.name = q.name → p.id = q.id) :
    ¬s.Overtaken me moves := by
  rintro ⟨before, after, r, k, l, t, u, p, q, hsplit, hrun, -, ht, hp, hu, hq, hname, hid⟩
  obtain ⟨store', xs, hosts, hstarted, -⟩ := exists_hosts hi htasks hmoves ⟨before, _, hsplit, hrun⟩
  have hjoiner : ∀ {k : Nat} {t : Task (Peer × Response)} {p : Peer}, r.tasks[k]? = some t →
      t.rest = Attempt.cleared.rest me p → .start i (Prod.mk p <$> me.serve (.joinMesh p)) ∈ moves := by
    intro k t p ht hrest
    obtain ⟨joiner, a, hx, -, hrest'⟩ := hosts.task ht
    have hsame : joiner = p := Attempt.joiner_inj (hrest'.symm.trans hrest)
    rw [← hsame]
    exact hstarted (joiner, a) (List.mem_of_getElem? hx)
  exact hid (hnames q p (hjoiner hu hq) (hjoiner ht hp) hname)

/-- The tasks that make the effects of a run, in their order. -/
def turns {α : Type} (moves : List (Move α)) : List Nat :=
  moves.filterMap fun m =>
    match m with
    | .go k => some k
    | _ => none

theorem mem_turns {α : Type} {moves : List (Move α)} {k : Nat} (h : .go k ∈ moves) : k ∈ turns moves :=
  List.mem_filterMap.2 ⟨_, h, rfl⟩

/-- Attempts that are made one after another do not overtake each other, whatever names they claim. -/
theorem not_overtaken_of_sorted {moves : List (Move (Peer × Response))} (hi : s.world.node? i = some (me, store))
    (htasks : s.tasks = [])
    (hmoves : ∀ j activity, .start j activity ∈ moves →
      j = i ∧ ∃ joiner, activity = Prod.mk joiner <$> me.serve (.joinMesh joiner))
    (hsorted : (turns moves).Pairwise (· ≤ ·)) : ¬s.Overtaken me moves := by
  rintro ⟨before, after, r, k, l, t, u, p, q, hsplit, hrun, hgo, ht, hp, hu, hq, hname, hid⟩
  -- the name for the task that has yet to go on was looked up before
  have hlooked : .go k ∈ before := by
    obtain ⟨store', xs, hosts, -, hmoved⟩ := exists_hosts hi htasks
      (fun j activity h => hmoves j activity (by rw [hsplit]; exact List.mem_append_left _ h)) (.mem hrun)
    obtain ⟨joiner, a, hx, -, hrest⟩ := hosts.task ht
    refine hmoved k joiner a hx ?_
    rintro rfl
    exact Attempt.asking_ne_cleared (hrest.symm.trans hp)
  have hturns : turns moves = turns before ++ l :: turns after := by
    rw [hsplit]
    unfold turns
    rw [List.filterMap_append, List.filterMap_cons]
  rw [hturns, List.pairwise_append, List.pairwise_cons] at hsorted
  obtain ⟨-, ⟨hafter, -⟩, hbefore⟩ := hsorted
  have hle : k ≤ l := hbefore k (mem_turns hlooked) l List.mem_cons_self
  have hge : l ≤ k := hafter k (mem_turns hgo)
  obtain rfl : k = l := Nat.le_antisymm hle hge
  cases ht.symm.trans hu
  rw [Attempt.joiner_inj (hq.symm.trans hp)] at hid
  exact hid rfl

end Crowd

def doorway : World SharedNetwork where
  members := [{ profile := { name := "m", target := "m:8081" } }]
  network := { targets := ["m:8081"] }

namespace doorway

def ask (joiner : Peer) : Crowd.Move (Peer × Response) :=
  .start 0 (Prod.mk joiner <$> Profile.serve { name := "m", target := "m:8081" } (.joinMesh joiner))

def byTurns (p q : Peer) : List (Crowd.Move (Peer × Response)) :=
  [ask p, ask q, .go 0, .go 1, .go 0, .go 1, .go 0, .go 1, .go 0, .go 1]

def inTurn (p q r : Peer) : List (Crowd.Move (Peer × Response)) :=
  [ask p, .go 0, .go 0, .go 0, .go 0, ask q, .go 1, .go 1, .go 1, .go 1, ask r, .go 2, .go 2, .go 2, .go 2]

theorem mem_inTurn {p q r : Peer} {j : Nat} {activity : Activity (Peer × Response)} :
    .start j activity ∈ inTurn p q r ↔ .start j activity = ask p ∨ .start j activity = ask q ∨ .start j activity = ask r := by
  simp only [inTurn, List.mem_cons, reduceCtorEq, List.not_mem_nil, or_false, false_or]

/-- The last joiner claims the name that the first has had, and is let in as that one has got another name by then. -/
theorem names_differ_inTurn :
    ∃ s' after, Crowd.run (inTurn ⟨"n", "a:1"⟩ ⟨"o", "a:1"⟩ ⟨"n", "b:1"⟩) { world := doorway } = some s' ∧
      s'.world.node? 0 = some ({ name := "m", target := "m:8081" }, after) ∧
      after.nodes.map Node.toPeer = [⟨"o", "a:1"⟩, ⟨"n", "b:1"⟩] ∧ (after.nodes.map Node.name).Nodup ∧
      ∃ r, Crowd.Passes { world := doorway } (inTurn ⟨"n", "a:1"⟩ ⟨"o", "a:1"⟩ ⟨"n", "b:1"⟩) r ∧
        (r.Vacated 0 { name := "m", target := "m:8081" } ⟨"n", "a:1"⟩ ⟨"n", "b:1"⟩ ∨
          r.Vacated 0 { name := "m", target := "m:8081" } ⟨"n", "b:1"⟩ ⟨"n", "a:1"⟩) := by
  obtain ⟨s', after, t, u, nodes, nodes', hrun, hafter, hnodes, ht, hu, hvalue, hvalue'⟩ :
      ∃ s' after t u nodes nodes',
        Crowd.run (inTurn ⟨"n", "a:1"⟩ ⟨"o", "a:1"⟩ ⟨"n", "b:1"⟩) { world := doorway } = some s' ∧
        s'.world.node? 0 = some ({ name := "m", target := "m:8081" }, after) ∧
        after.nodes.map Node.toPeer = [⟨"o", "a:1"⟩, ⟨"n", "b:1"⟩] ∧ s'.tasks[0]? = some t ∧ s'.tasks[2]? = some u ∧
        t.value? = some (⟨"n", "a:1"⟩, Response.joinMesh ⟨true, "m", nodes⟩) ∧
        u.value? = some (⟨"n", "b:1"⟩, Response.joinMesh ⟨true, "m", nodes'⟩) :=
    ⟨_, _, _, _, _, _, rfl, rfl, rfl, rfl, rfl, rfl, rfl⟩
  have hi : ({ world := doorway } : Crowd SharedNetwork (Peer × Response)).world.node? 0 =
    some ({ name := "m", target := "m:8081" }, {}) := rfl
  have hmoves : ∀ j activity, .start j activity ∈ inTurn ⟨"n", "a:1"⟩ ⟨"o", "a:1"⟩ ⟨"n", "b:1"⟩ → j = 0 ∧ ∃ joiner,
      activity = Prod.mk joiner <$> Profile.serve { name := "m", target := "m:8081" } (.joinMesh joiner) := by
    intro j activity h
    rcases mem_inTurn.1 h with h | h | h
    all_goals
      cases h
      exact ⟨rfl, _, rfl⟩
  have hno := Crowd.not_overtaken_of_sorted hi rfl hmoves (by decide)
  obtain ⟨⟨after', hafter', hnames⟩, hvacated⟩ := Crowd.names_differ hi .empty (by decide) rfl hmoves hno s' (.mem hrun)
  cases hafter.symm.trans hafter'
  refine ⟨s', after, hrun, hafter, hnodes, hnames, ?_⟩
  exact hvacated t (List.mem_of_getElem? ht) u (List.mem_of_getElem? hu) _ _ _ _ hvalue hvalue' rfl rfl rfl (by decide)

/-- A joiner is let in under the former name of one that is in; and two of one name are, by turns. -/
theorem name_given_twice :
    (∃ s' nodes nodes', Crowd.run (inTurn ⟨"n", "a:1"⟩ ⟨"o", "a:1"⟩ ⟨"n", "b:1"⟩) { world := doorway } = some s' ∧
      s'.tasks[0]?.bind Task.value? = some (⟨"n", "a:1"⟩, Response.joinMesh ⟨true, "m", nodes⟩) ∧
      s'.tasks[2]?.bind Task.value? = some (⟨"n", "b:1"⟩, Response.joinMesh ⟨true, "m", nodes'⟩)) ∧
    ∃ s' after, Crowd.run (byTurns ⟨"n", "a:1"⟩ ⟨"n", "b:1"⟩) { world := doorway } = some s' ∧
      s'.world.node? 0 = some ({ name := "m", target := "m:8081" }, after) ∧
      after.nodes.map Node.toPeer = [⟨"n", "a:1"⟩, ⟨"n", "b:1"⟩] :=
  ⟨⟨_, _, _, rfl, rfl, rfl⟩, _, _, rfl, rfl, rfl⟩

end doorway

end PeerMesh
