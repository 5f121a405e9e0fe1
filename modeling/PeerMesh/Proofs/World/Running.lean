import PeerMesh.Membership.Joining
import PeerMesh.Membership.Serving
import PeerMesh.World.Shared

/-!
# Running activities in a world

What an activity of a member gives while nobody else does anything, and what it leaves behind.

* `Activity.run_bind` : one activity after another;
* `World.node?`, `World.Alike` : a node without its connections, and worlds that differ in nothing else;
* `World.run_onStore`, `World.run_onPool`, `World.run_claim` : single effects;
* `World.run_serve` : a request that is served while nobody else does anything, and `Profile.answer`;
* `Pool.Open`, `World.exists_run_obtain`, `World.exists_run_call` : clients and calls on a shared network;
* `World.exists_run_join`, `World.exists_run_announce` : an attempt to join, and an announcement.
-/

namespace PeerMesh

namespace Activity

variable {α β σ : Type}

theorem run_bind {answer : (e : Effect) → σ → Option e.Result × σ} {x : Activity α} {s s' : σ} {a : α}
    (h : x.run answer s = (some a, s')) (f : α → Activity β) : (x >>= f).run answer s = (f a).run answer s' := by
  induction x generalizing s with
  | done b =>
    cases h
    rfl
  | perform e next ih =>
    simp only [perform_bind, run] at h ⊢
    cases he : answer e s with
    | mk result s₁ =>
      rw [he] at h
      cases result with
      | none => cases h
      | some r => exact ih r h

theorem run_bind_never {answer : (e : Effect) → σ → Option e.Result × σ} {x : Activity α} {s s' : σ}
    (h : x.run answer s = (none, s')) (f : α → Activity β) : (x >>= f).run answer s = (none, s') := by
  induction x generalizing s with
  | done b => cases h
  | perform e next ih =>
    simp only [perform_bind, run] at h ⊢
    cases he : answer e s with
    | mk result s₁ =>
      rw [he] at h
      cases result with
      | none =>
        cases h
        rfl
      | some r => exact ih r h

theorem run_map {answer : (e : Effect) → σ → Option e.Result × σ} {x : Activity α} {s s' : σ} {r : Option α}
    (h : x.run answer s = (r, s')) (f : α → β) : (do pure (f (← x)) : Activity β).run answer s = (r.map f, s') := by
  cases r with
  | none => exact run_bind_never h _
  | some a => exact run_bind h _

theorem run_ask (answer : (e : Effect) → σ → Option e.Result × σ) (e : Effect) (s : σ) :
    (ask e).run answer s = answer e s := by
  simp only [ask, run]
  cases answer e s with
  | mk result s =>
    cases result with
    | none => rfl
    | some r => rfl

end Activity

theorem Duration.zero_le (d : Duration) : Duration.zero ≤ d := Nat.zero_le d.nanos

theorem Timed.within_now {α : Type} (value : α) (limit : Duration) (late : α) :
    (Timed.now value).within limit late = .now value := by
  unfold within now
  simp only [Duration.zero_le, if_true]

namespace SharedNetwork

theorem reach_target {n : SharedNetwork} {target : String} {i : Nat} (h : n.reach target = some i) :
    n.targets[i]? = some target := by
  unfold reach at h
  split at h
  · cases h
  · have hi := List.mem_of_getLast? h
    simp only [List.mem_map, List.mem_filter, decide_eq_true_eq] at hi
    obtain ⟨⟨t, k⟩, ⟨hmem, rfl⟩, rfl⟩ := hi
    exact List.mem_zipIdx_iff_getElem?.1 hmem

end SharedNetwork

namespace Pool

/-- A caller gets a client of the peer without delay, or finds no slot for it and dials. -/
def Open (p : Pool) (peer : Peer) : Prop :=
  p.table.get? peer.id = none ∨ ∃ client, p.client? peer.id = some client ∧ client.target = peer.target

theorem verdict_claim (p : Pool) (n : Nat) (ticket : Ticket) :
    (p.claim n ticket).verdict n ticket = p.slots[n]?.bind fun slot => (slot.claim ticket).verdict ticket := by
  unfold claim verdict onSlot
  simp only [List.getElem?_modify, if_true]
  cases p.slots[n]? with
  | none => rfl
  | some slot => rfl

theorem Open.exists_verdict {p : Pool} {peer : Peer} (h : p.Open peer) (ticket : Ticket) :
    ∃ v, ((p.enter peer.id).2.claim (p.enter peer.id).1 ticket).verdict (p.enter peer.id).1 ticket = some v ∧
      ∀ client, v = some client → client.target = peer.target := by
  rw [verdict_claim]
  rcases h with h | ⟨client, h, htarget⟩
  · refine ⟨none, ?_, fun client hc => by cases hc⟩
    simp [enter, h, Slot.claim, Slot.verdict]
  · obtain ⟨n, hn, h⟩ := Option.bind_eq_some_iff.1 h
    obtain ⟨slot, hslot, h⟩ := Option.bind_eq_some_iff.1 h
    refine ⟨some client, ?_, fun c hc => by cases hc; exact htarget⟩
    simp [enter, hn, hslot, h, Slot.claim, Slot.verdict]

end Pool

namespace World

variable {σ : Type}

/-- What a member is and knows, without its connections. -/
def node? (w : World σ) (i : Nat) : Option (Profile × Store) := w.members[i]?.map fun x => (x.profile, x.store)

/-- The same nodes with the same stores on the same network, and the same announcements that wait. -/
structure Alike (w w' : World σ) : Prop where
  network : w'.network = w.network
  outbox : w'.outbox = w.outbox
  node? : ∀ i, w'.node? i = w.node? i

theorem Alike.trans {w₁ w₂ w₃ : World σ} (h : w₁.Alike w₂) (h' : w₂.Alike w₃) : w₁.Alike w₃ where
  network := h'.network.trans h.network
  outbox := h'.outbox.trans h.outbox
  node? i := (h'.node? i).trans (h.node? i)

theorem getElem?_onMember (w : World σ) (i k : Nat) (f : Member → Member) :
    (w.onMember i f).members[k]? = (fun x => if i = k then f x else x) <$> w.members[k]? :=
  List.getElem?_modify _ _ _ _

theorem getElem?_onMember_self {w : World σ} {i : Nat} {x : Member} (hi : w.members[i]? = some x) (f : Member → Member) :
    (w.onMember i f).members[i]? = some (f x) := by
  rw [getElem?_onMember, hi]
  exact congrArg some (if_pos rfl)

theorem onMember_congr {w : World σ} {i : Nat} {x : Member} (hi : w.members[i]? = some x) {f g : Member → Member}
    (h : f x = g x) : w.onMember i f = w.onMember i g := by
  have hmembers : (w.onMember i f).members = (w.onMember i g).members := by
    refine List.ext_getElem? fun j => ?_
    rw [getElem?_onMember, getElem?_onMember]
    by_cases hij : i = j
    · subst hij
      rw [hi]
      exact congrArg some (by simp only [if_true, h])
    · simp only [if_neg hij]
  exact congrArg (fun members => { w with members }) hmembers

theorem onMember_self {w : World σ} {i : Nat} {x : Member} (hi : w.members[i]? = some x) {f : Member → Member}
    (h : f x = x) : w.onMember i f = w :=
  (onMember_congr hi h).trans (congrArg (fun members => { w with members }) (List.modify_id i w.members))

theorem postpone_nil (w : World σ) (i : Nat) : w.postpone i [] = w := by
  unfold postpone
  rw [List.map_nil, List.append_nil]

theorem alike_onPool (w : World σ) (i : Nat) (f : Pool → Pool) :
    w.Alike (w.onMember i fun x => { x with pool := f x.pool }) where
  network := rfl
  outbox := rfl
  node? k := by
    unfold node?
    rw [getElem?_onMember]
    cases w.members[k]? with
    | none => rfl
    | some x =>
      show some _ = some _
      split
      · rfl
      · rfl

theorem node?_onStore (w : World σ) {i : Nat} {x : Member} (hi : w.members[i]? = some x) (f : Store → Store)
    (k : Nat) :
    (w.onMember i fun x => { x with store := f x.store }).node? k =
      if k = i then some (x.profile, f x.store) else w.node? k := by
  unfold node?
  rw [getElem?_onMember]
  by_cases hk : k = i
  · rw [if_pos hk, hk, hi]
    simp
  · rw [if_neg hk]
    simp [Ne.symm hk]

theorem alike_waitUntil (w : World σ) (time : Nat) : w.Alike (w.waitUntil time) := ⟨rfl, rfl, fun _ => rfl⟩

variable [Network σ]

theorem run_ready {e : Effect} {w w' : World σ} {i : Nat} {ticket : Ticket} {time : Nat} {r : e.Result}
    (h : w.perform i ticket e = (.ready time r, w')) :
    (Activity.ask e).run (answer i ticket) w = (some r, w'.waitUntil time) := by
  rw [Activity.run_ask, answer, h]

theorem run_now {e : Effect} {w w' : World σ} {i : Nat} {ticket : Ticket} {time : Nat} {r : e.Result}
    (h : w.perform i ticket e = (.ready time r, w')) (htime : time = w'.elapsed) :
    (Activity.ask e).run (answer i ticket) w = (some r, w') := by
  have hw : w'.waitUntil time = w' := by
    unfold waitUntil
    rw [htime, Nat.max_self]
  rw [run_ready h, hw]

theorem run_onPool {α : Type} {w : World σ} {i : Nat} {x : Member} (hi : w.members[i]? = some x) (ticket : Ticket)
    (f : Pool → α × Pool) :
    (Activity.onPool f).run (answer i ticket) w =
      (some (f x.pool).1, w.onMember i fun x => { x with pool := (f x.pool).2 }) := by
  have h : w.perform i ticket (.pool fun p => (f p).2) =
      (.ready w.elapsed x.pool, w.onMember i fun x => { x with pool := (f x.pool).2 }) := by
    simp only [perform, hi, Option.map_some, Option.getD_some]
  unfold Activity.onPool
  exact Activity.run_bind (run_now h rfl) _

theorem run_onStore {α : Type} {w : World σ} {i : Nat} {x : Member} (hi : w.members[i]? = some x) (ticket : Ticket)
    (f : Store → α × Store) :
    (Activity.onStore f).run (answer i ticket) w =
      (some (f x.store).1, w.onMember i fun x => { x with store := (f x.store).2 }) := by
  have h : w.perform i ticket (.store fun s => (f s).2) =
      (.ready w.elapsed x.store, w.onMember i fun x => { x with store := (f x.store).2 }) := by
    simp only [perform, hi, Option.map_some, Option.getD_some]
  unfold Activity.onStore
  exact Activity.run_bind (run_now h rfl) _

theorem run_readStore {α : Type} {w : World σ} {i : Nat} {x : Member} (hi : w.members[i]? = some x) (ticket : Ticket)
    (f : Store → α) : (Activity.readStore f).run (answer i ticket) w = (some (f x.store), w) := by
  exact (run_onStore hi ticket _).trans (congrArg (Prod.mk _) (onMember_self hi rfl))

theorem run_claim {w : World σ} {i : Nat} {x : Member} (hi : w.members[i]? = some x) {slot : Nat} {ticket : Ticket}
    {v : Option Client} (h : (x.pool.claim slot ticket).verdict slot ticket = some v) :
    (Activity.claim slot).run (answer i ticket) w =
      (some v, w.onMember i fun x => { x with pool := x.pool.claim slot ticket }) := by
  have hclaim : w.perform i ticket (.claim slot) =
      (.ready w.elapsed v, w.onMember i fun x => { x with pool := x.pool.claim slot ticket }) := by
    unfold perform
    simp only [getElem?_onMember_self hi, Option.bind_some, h]
    rfl
  exact run_now hclaim rfl

/-- Whoever answers a request while nobody else does anything gives the answer at once. -/
theorem run_serve {w : World σ} {i : Nat} {x : Member} (hi : w.members[i]? = some x) (request : Request)
    (ticket : Ticket) : (x.profile.serve request).run (answer i ticket) w = w.deliver i request := by
  have hannounce : ∀ (w : World σ) (notices : List Notice),
      (Activity.announce notices).run (answer i ticket) w = (some (), w.postpone i notices) :=
    fun w notices => run_now rfl rfl
  have hother : (x.profile.serveAtOnce request).run (answer i ticket) w = w.deliver i request := by
    have hdate : Activity.date.run (answer i ticket) w = (some w.date, w) := run_now rfl rfl
    unfold Profile.serveAtOnce deliver
    rw [hi, Activity.run_bind hdate, Activity.run_bind (run_onStore hi ticket _)]
    exact (Activity.run_bind (hannounce _ _) _).trans (congrArg (fun w => (_, World.postpone w i _)) (onMember_congr hi rfl))
  cases request with
  | joinMesh joiner =>
    have hreply : (x.profile.serveJoin joiner).run (answer i ticket) w =
        (some (x.profile.answerJoin joiner x.store).1,
          (w.onMember i fun y => { y with store := (x.profile.answerJoin joiner x.store).2.1 }).postpone i
            (x.profile.answerJoin joiner x.store).2.2) := by
      unfold Profile.serveJoin Profile.answerJoin
      rw [Activity.run_bind (run_readStore hi ticket _)]
      cases x.profile.nameTaken joiner x.store with
      | true =>
        have hsame : (w.onMember i fun y => { y with store := x.store }).postpone i [] = w :=
          (postpone_nil _ i).trans (onMember_self hi rfl)
        exact congrArg (Prod.mk _) hsame.symm
      | false =>
        have hi' := getElem?_onMember_self hi fun y => { y with store := y.store.letIn joiner }
        refine (Activity.run_bind (run_onStore hi ticket _) _).trans ((Activity.run_bind (run_readStore hi' ticket _) _).trans
          ((Activity.run_bind (hannounce _ _) _).trans ?_))
        exact congrArg (fun w => (_, World.postpone w i _)) (onMember_congr hi rfl)
    unfold deliver
    rw [hi]
    exact Activity.run_map hreply _
  | _ => exact hother

/-! ## On a shared network -/

theorem exists_run_dial (w : World SharedNetwork) (i : Nat) (ticket : Ticket) (target : String) (security : Security) :
    ∃ channel w', (Activity.dial target security .lazy).run (answer i ticket) w = (some (.ok channel), w') ∧
      channel.target = target ∧ w'.members = w.members ∧ w.Alike w' :=
  ⟨⟨w.dialed, target⟩, { w.note i (.dial target security.isSecure .lazy) with dialed := w.dialed + 1 }, run_now rfl rfl,
    rfl, rfl, rfl, rfl, fun _ => rfl⟩

theorem exists_run_fill {w : World SharedNetwork} {i : Nat} {x : Member} (hi : w.members[i]? = some x) (me : Profile)
    (slot : Nat) (target : String) (ticket : Ticket) :
    ∃ client w', (me.fill slot target).run (answer i ticket) w = (some (.ok client), w') ∧ client.target = target ∧
      w.Alike w' := by
  obtain ⟨channel, w₁, hrun, htarget, hmembers, hw₁⟩ := exists_run_dial w i ticket target me.security
  rw [← hmembers] at hi
  unfold Profile.fill
  rw [Activity.run_bind hrun]
  refine ⟨⟨channel, me.limit⟩, _, Activity.run_bind (run_onPool hi ticket _) _, htarget, hw₁.trans ?_⟩
  exact alike_onPool w₁ i fun p => p.settle slot (some ⟨channel, me.limit⟩)

/-- A caller whose pool is open to a peer gets a client that calls it. -/
theorem exists_run_obtain {w : World SharedNetwork} {i : Nat} {x : Member} (hi : w.members[i]? = some x) (me : Profile)
    {peer : Peer} (hpool : x.pool.Open peer) (ticket : Ticket) :
    ∃ client w', (me.obtain peer).run (answer i ticket) w = (some (.ok client), w') ∧
      client.target = peer.target ∧ w.Alike w' := by
  obtain ⟨v, hv, hclient⟩ := hpool.exists_verdict ticket
  have hi₁ := getElem?_onMember_self hi fun x => { x with pool := (x.pool.enter peer.id).2 }
  have hi₂ := getElem?_onMember_self hi₁ fun y => { y with pool := y.pool.claim (x.pool.enter peer.id).1 ticket }
  have halike := (alike_onPool w i fun p => (p.enter peer.id).2).trans
    (alike_onPool _ i fun p => p.claim (x.pool.enter peer.id).1 ticket)
  unfold Profile.obtain
  rw [Activity.run_bind (run_onPool hi ticket _), Activity.run_bind (run_claim hi₁ hv)]
  cases v with
  | some client => exact ⟨client, _, rfl, hclient client rfl, halike⟩
  | none =>
    obtain ⟨client, w', hrun, htarget, hw'⟩ := exists_run_fill hi₂ me (x.pool.enter peer.id).1 peer.target ticket
    exact ⟨client, w', hrun, htarget, halike.trans hw'⟩

theorem exists_run_call {w : World SharedNetwork} {client : Client} {j : Nat} {h : Profile} {s : Store}
    (hreach : w.network.reach client.target = some j) (hj : w.node? j = some (h, s)) (request : Request) (i : Nat)
    (ticket : Ticket) :
    ∃ w', (Activity.call client request).run (answer i ticket) w =
        (some (heard request.method (some (h.answer w.date request s).1)), w') ∧
      w'.network = w.network ∧
      w'.outbox = w.outbox ++ (h.answer w.date request s).2.2.map (fun notice => (j, notice)) ∧
      ∀ k, w'.node? k = if k = j then some (h, (h.answer w.date request s).2.1) else w.node? k := by
  obtain ⟨x, hx, hxs⟩ := Option.map_eq_some_iff.1 hj
  cases hxs
  have hcall : w.perform i ticket (.call client.channel request client.limit) =
      (.ready w.elapsed (heard request.method (some (x.profile.answer w.date request x.store).1)),
        ((w.note i (.call client.channel.target request)).onMember j fun y =>
          { y with store := (x.profile.answer w.date request x.store).2.1 }).postpone j
            (x.profile.answer w.date request x.store).2.2) := by
    have hr : w.network.reach client.channel.target = some j := hreach
    simp only [perform, call, note, Network.call, hr, deliver, hx]
    rfl
  refine ⟨_, run_now hcall rfl, rfl, rfl, fun k => ?_⟩
  exact node?_onStore (w.note i (.call client.channel.target request)) hx
    (fun _ => (x.profile.answer w.date request x.store).2.1) k

theorem exists_run_call_unreached {w : World SharedNetwork} {client : Client}
    (hreach : (w.network.reach client.target).bind w.node? = none) (request : Request) (i : Nat) (ticket : Ticket) :
    ∃ result w', (Activity.call client request).run (answer i ticket) w = (some result, w') ∧ w.Alike w' := by
  have hnote : w.Alike (w.note i (.call client.channel.target request)) := ⟨rfl, rfl, fun _ => rfl⟩
  have hcall : ∃ time result, w.perform i ticket (.call client.channel request client.limit) =
      (.ready time result, w.note i (.call client.channel.target request)) := by
    cases hr : w.network.reach client.channel.target with
    | none =>
      simp only [perform, call, note, Network.call, hr, Timed.within_now]
      exact ⟨_, _, rfl⟩
    | some j =>
      have hr' : w.network.reach client.target = some j := hr
      rw [hr'] at hreach
      have hj : w.members[j]? = none := Option.map_eq_none_iff.1 hreach
      simp only [perform, call, note, Network.call, hr, deliver, hj]
      exact ⟨_, _, rfl⟩
  obtain ⟨time, result, hcall⟩ := hcall
  exact ⟨result, _, run_ready hcall, hnote.trans (alike_waitUntil _ time)⟩

theorem exists_run_requestJoin {w : World SharedNetwork} {i j : Nat} {x : Member} {h : Profile} {s : Store}
    {host : String} (hi : w.members[i]? = some x) (hpool : x.pool.Open ⟨"", host⟩)
    (hreach : w.network.reach host = some j) (hj : w.node? j = some (h, s)) {reply : JoinReply} {after : Store}
    {notices : List Notice} (hanswer : h.answerJoin x.profile.peer s = (reply, after, notices)) (ticket : Ticket) :
    ∃ w', (x.profile.requestJoin host).run (answer i ticket) w = (some (.ok reply), w') ∧
      w'.network = w.network ∧ w'.outbox = w.outbox ++ notices.map (fun notice => (j, notice)) ∧
      ∀ k, w'.node? k = if k = j then some (h, after) else w.node? k := by
  obtain ⟨client, w₁, hobtain, htarget, h₁⟩ := exists_run_obtain hi x.profile hpool ticket
  have hreach₁ : w₁.network.reach client.target = some j := by
    rw [h₁.network, htarget]
    exact hreach
  have hreply : h.answer w₁.date (.joinMesh x.profile.peer) s = (.joinMesh reply, after, notices) := by
    simp only [Profile.answer, hanswer]
  obtain ⟨w₂, hcall, hnetwork, houtbox, hnode⟩ :=
    exists_run_call hreach₁ ((h₁.node? j).trans hj) (.joinMesh x.profile.peer) i ticket
  rw [hreply] at hcall houtbox hnode
  refine ⟨w₂, ?_, hnetwork.trans h₁.network, ?_, fun k => ?_⟩
  · unfold Profile.requestJoin
    rw [Activity.run_bind hobtain]
    exact Activity.run_bind hcall _
  · rw [houtbox, h₁.outbox]
  · rw [hnode, h₁.node?]

/-- An attempt to join at one candidate that is reached, and how it ends. -/
theorem exists_run_join {w : World SharedNetwork} {i j : Nat} {x : Member} {h : Profile} {s : Store} {host : String}
    (hi : w.members[i]? = some x) (hpool : x.pool.Open ⟨"", host⟩) (hreach : w.network.reach host = some j)
    (hj : w.node? j = some (h, s)) (hij : i ≠ j) {reply : JoinReply} {after : Store} {notices : List Notice}
    (hanswer : h.answerJoin x.profile.peer s = (reply, after, notices)) :
    ∃ w', w.run i (x.profile.join [host]) =
        (some (if reply.nameUnique then .joined reply.responder else .nameConflict host), w') ∧
      w'.network = w.network ∧ w'.outbox = w.outbox ++ notices.map (fun notice => (j, notice)) ∧
      ∀ k, w'.node? k =
        if k = i then some (x.profile, if reply.nameUnique then x.profile.adopt host reply x.store else x.store)
        else if k = j then some (h, after)
        else w.node? k := by
  obtain ⟨w₁, hrun, hnetwork, houtbox, hnode⟩ := exists_run_requestJoin (w := { w with tickets := w.tickets + 1 })
    hi hpool hreach hj hanswer ⟨w.tickets⟩
  have hself : w₁.node? i = some (x.profile, x.store) := by
    rw [hnode, if_neg hij]
    exact congrArg (Option.map _) hi
  unfold run
  rw [Profile.join, Activity.run_bind hrun]
  cases hu : reply.nameUnique with
  | true =>
    obtain ⟨y, hy, hyx⟩ := Option.map_eq_some_iff.1 hself
    obtain ⟨hprofile, hstore⟩ := Prod.mk.inj hyx
    simp only [hu, if_true]
    refine ⟨_, Activity.run_bind (run_onStore hy _ _) _, hnetwork, houtbox, fun k => ?_⟩
    rw [node?_onStore w₁ hy (x.profile.adopt host reply), hnode, hprofile, hstore]
    rfl
  | false =>
    refine ⟨w₁, ?_, hnetwork, houtbox, fun k => ?_⟩
    · simp only [hu, Bool.false_eq_true, if_false]
      rfl
    · split
      · rename_i hk
        rw [hk, hself]
        rfl
      · exact hnode k

/-- An announcement that is made: the node it reaches has learned of the newcomer and of the announcer. -/
theorem exists_run_announce {w : World SharedNetwork} {i : Nat} {x : Member} (hi : w.members[i]? = some x)
    {notice : Notice} (hpool : x.pool.Open notice.listener) :
    ∃ w', w.run i (x.profile.announce notice) = (some (), w') ∧ w'.network = w.network ∧ w'.outbox = w.outbox ∧
      ∀ k, w'.node? k =
        if w.network.reach notice.listener.target = some k then
          (w.node? k).map fun n => (n.1, n.1.learn ⟨notice.newcomer, x.profile.peer⟩ n.2)
        else w.node? k := by
  have hticket : w.Alike { w with tickets := w.tickets + 1 } := ⟨rfl, rfl, fun _ => rfl⟩
  obtain ⟨client, w₁, hobtain, htarget, h₁⟩ :=
    exists_run_obtain (w := { w with tickets := w.tickets + 1 }) hi x.profile hpool ⟨w.tickets⟩
  replace h₁ := hticket.trans h₁
  rw [← htarget, ← h₁.network]
  unfold run Profile.announce Activity.callEmpty
  rw [Activity.run_bind hobtain]
  cases hreach : (w₁.network.reach client.target).bind w₁.node? with
  | none =>
    obtain ⟨result, w₂, hcall, h₂⟩ := exists_run_call_unreached hreach
      (.nodeDiscovery ⟨notice.newcomer, x.profile.peer⟩) i ⟨w.tickets⟩
    refine ⟨w₂, ?_, h₂.network, (h₁.trans h₂).outbox, fun k => ?_⟩
    · exact Activity.run_bind (Activity.run_bind hcall _) _
    · rw [(h₁.trans h₂).node?]
      split
      · rename_i hk
        rw [hk, Option.bind_some, h₁.node?] at hreach
        rw [hreach]
        rfl
      · rfl
  | some n =>
    obtain ⟨j, hj, hn⟩ := Option.bind_eq_some_iff.1 hreach
    obtain ⟨w₂, hcall, hnetwork, houtbox, hnode⟩ := exists_run_call hj hn
      (.nodeDiscovery ⟨notice.newcomer, x.profile.peer⟩) i ⟨w.tickets⟩
    refine ⟨w₂, ?_, hnetwork, ?_, fun k => ?_⟩
    · exact Activity.run_bind (Activity.run_bind hcall _) _
    · rw [houtbox, h₁.outbox]
      exact List.append_nil _
    · rw [hnode, hj]
      by_cases hk : k = j
      · rw [if_pos hk, if_pos (by rw [hk]), ← h₁.node?, hk, hn]
        rfl
      · rw [if_neg hk, if_neg fun h => hk (Option.some.inj h).symm, h₁.node?]

end World

end PeerMesh
