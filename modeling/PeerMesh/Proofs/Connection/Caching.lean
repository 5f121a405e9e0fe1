import PeerMesh.Proofs.Connection.Asking
import PeerMesh.World.Scripted

/-!
# The pool of clients as a plain map

Whoever uses the pool of a node one call after another cannot tell it from a finite map from node ids to
clients. The slots that failed dials leave behind cannot be seen.

* `PoolCall`, `PoolAnswer` : the calls of a pool, as activities of its node (`World.callPool`);
* `Clients` : a plain map on a network, with the same calls (`Clients.obtain`, `Clients.disconnect`);
* `Pool.Shows`, `Pool.Neat` : the pool shows what a map holds, and what else holds of it between two calls;
* `World.Mirrors`, `World.Rests` : the simulation after a call and before the next, kept by each of the calls
  (`World.Rests.obtain`, `World.Rests.disconnect`, `World.Rests.look`);
* `World.pool_refines_map` : the same calls get the same answers, and do the same on the network.
-/

namespace PeerMesh

/-! ## Calls -/

inductive PoolCall where
  | obtain (peer : Peer)
  | disconnect (peer : Peer)
  | contains (peer : Peer)
  | size
  deriving Repr

inductive PoolAnswer where
  | client (result : Except PeerError Client)
  | closed (result : Except PeerError Unit)
  | present (found : Bool)
  | count (n : Nat)
  deriving Repr

def PoolCall.activity (me : Profile) : PoolCall → Activity PoolAnswer
  | obtain peer => do pure (.client (← me.obtain peer))
  | disconnect peer => do pure (.closed (← peer.disconnect))
  | contains peer => Activity.onPool fun p => (.present (p.contains peer.id), p)
  | size => Activity.onPool fun p => (.count p.size, p)

/-- Calls one after another, up to the first that never ends. -/
def inTurn {α β τ : Type} (call : α → τ → Option β × τ) : List α → τ → List β × τ
  | [], s => ([], s)
  | a :: as, s =>
    match call a s with
    | (some b, s) =>
      let (bs, s) := inTurn call as s
      (b :: bs, s)
    | (none, s) => ([], s)

/-- Two machines that give the same answers: a relation `R` holds before each call, and one that is weaker after each,
whether the call has ended or not. -/
theorem inTurn_simulation {α β τ υ : Type} {call : α → τ → Option β × τ} {call' : α → υ → Option β × υ}
    {R S : τ → υ → Prop} (hweak : ∀ {s s'}, R s s' → S s s')
    (hcall : ∀ a {s s'}, R s s' → ∃ t, call a s = ((call' a s').1, t) ∧ S t (call' a s').2 ∧
      ((call' a s').1 ≠ none → R t (call' a s').2))
    (as : List α) {s : τ} {s' : υ} (h : R s s') :
    ∃ t, inTurn call as s = ((inTurn call' as s').1, t) ∧ S t (inTurn call' as s').2 := by
  induction as generalizing s s' with
  | nil => exact ⟨s, rfl, hweak h⟩
  | cons a as ih =>
    obtain ⟨t, ht, hS, hR⟩ := hcall a h
    unfold inTurn
    rw [ht]
    match hcall' : call' a s' with
    | (none, t') =>
      rw [hcall'] at hS
      exact ⟨t, rfl, hS⟩
    | (some b, t') =>
      rw [hcall'] at hR
      obtain ⟨u, hu, hSu⟩ := ih (hR (Option.some_ne_none b))
      refine ⟨u, ?_, hSu⟩
      show (b :: (inTurn call as t).1, (inTurn call as t).2) = _
      rw [hu]

namespace World

variable {σ : Type} [Network σ]

def callPool (i : Nat) (me : Profile) : List PoolCall → World σ → List PoolAnswer × World σ :=
  inTurn fun c w => w.run i (c.activity me)

end World

/-! ## A plain map -/

/-- Clients in a plain map, on a network. -/
structure Clients (σ : Type) where
  map : Table NodeId Client := {}
  network : σ
  dialed : Nat := 0
  /-- What was done on the network, the last first. -/
  events : List Event := []

namespace Clients

variable {σ : Type} [Network σ]

/-- The client under the id of the peer, or else one lazy dial. The client of a dial that succeeds goes into the map;
the error of one that fails is passed on, and the map stays as it is. -/
def obtain (me : Profile) (peer : Peer) (s : Clients σ) : Option (Except PeerError Client) × Clients σ :=
  match s.map.get? peer.id with
  | some client => (some (.ok client), s)
  | none =>
    let (opened, network) := Network.awaitDial s.network ⟨s.dialed, peer.target⟩ me.security
    let event := .dial peer.target me.security.isSecure .lazy
    let s := { s with network, dialed := s.dialed + 1, events := event :: s.events }
    match opened with
    | some (.ok channel) =>
      let client := ⟨channel, me.limit⟩
      (some (.ok client), { s with map := s.map.insert peer.id client })
    | some (.error e) => (some (.error (.dial peer.target e)), s)
    | none => (none, s)

/-- Takes the client under the id of the peer out of the map and closes it, whatever comes of that. -/
def disconnect (peer : Peer) (s : Clients σ) : Except PeerError Unit × Clients σ :=
  match s.map.get? peer.id with
  | none => (.error (.noConnection peer.id), s)
  | some client =>
    let (closed, network) := Network.close s.network client.channel
    (closed.mapError (.dial peer.target),
      { s with map := s.map.erase peer.id, network, events := .close client.target :: s.events })

def call (me : Profile) : PoolCall → Clients σ → Option PoolAnswer × Clients σ
  | .obtain peer, s =>
    let (result, s) := s.obtain me peer
    (result.map .client, s)
  | .disconnect peer, s =>
    let (result, s) := s.disconnect peer
    (some (.closed result), s)
  | .contains peer, s => (some (.present (s.map.contains peer.id)), s)
  | .size, s => (some (.count s.map.size), s)

def callAll (me : Profile) : List PoolCall → Clients σ → List PoolAnswer × Clients σ := inTurn (call me)

end Clients

/-! ## What the table shows -/

namespace Pool

/-- Slots whose clients are those of a plain map, id by id. -/
def Shows (p : Pool) (m : Table NodeId Client) : Prop := ∀ id, p.client? id = m.get? id

variable {p : Pool} {m : Table NodeId Client}

theorem Shows.contains (h : p.Shows m) (id : NodeId) : p.contains id = m.contains id := by
  unfold Pool.contains Table.contains
  rw [h id]

/-- The filled slots are as many as the entries of the map, though the table may have more keys. -/
theorem Shows.size (h : p.Shows m) : p.size = m.size := by
  have hkey : ∀ id, p.contains id = true → id ∈ p.table.keys := by
    intro id hfound
    obtain ⟨client, hclient⟩ := Option.isSome_iff_exists.1 hfound
    obtain ⟨n, hn, -⟩ := Option.bind_eq_some_iff.1 hclient
    exact Table.isSome_get?.1 (Option.isSome_of_eq_some hn)
  have hperm : (p.table.keys.filter p.contains).Perm m.keys := by
    refine (List.perm_ext_iff_of_nodup (p.table.nodup.filter _) m.nodup).2 fun id => ?_
    have hmem : id ∈ m.keys ↔ p.contains id = true := by
      rw [h.contains id, Table.contains, Table.isSome_get?]
    show id ∈ p.table.keys.filter p.contains ↔ id ∈ m.keys
    rw [hmem, List.mem_filter]
    exact ⟨And.right, fun hfound => ⟨hkey id hfound, hfound⟩⟩
  unfold Pool.size
  rw [List.countP_eq_length_filter, hperm.length_eq, Table.length_keys]

section

variable {q : Pool} {id : NodeId}

theorem Shows.insert (h : p.Shows m) {client : Client}
    (hq : ∀ k, q.client? k = if k = id then some client else p.client? k) : q.Shows (m.insert id client) := by
  intro k
  rw [hq, Table.get?_insert, h k]

theorem Shows.erase (h : p.Shows m) (hq : ∀ k, q.client? k = if k = id then none else p.client? k) :
    q.Shows (m.erase id) := by
  intro k
  rw [hq, Table.get?_erase, h k]

/-- Whatever becomes of an empty slot that stays without a client cannot be seen. -/
theorem Shows.unseen (h : p.Shows m) (hid : m.get? id = none)
    (hq : ∀ k, q.client? k = if k = id then none else p.client? k) : q.Shows m := by
  intro k
  rw [hq, h k]
  split
  · rename_i hk
    rw [hk, hid]
  · rfl

end

/-- Between two calls no dial is under way, and no two ids share a slot. -/
structure Neat (p : Pool) : Prop extends p.Settled where
  apart : ∀ a b n, p.table.get? a = some n → p.table.get? b = some n → a = b

theorem Neat.empty : Neat {} where
  toSettled := Settled.empty
  apart a b n h := by cases h

theorem Neat.client?_of_get? (hp : p.Neat) {id : NodeId} {n : Nat} (h : p.table.get? id = some n) :
    ∃ hn : n < p.slots.length, p.client? id = p.slots[n].client := by
  refine ⟨hp.placed id n h, ?_⟩
  unfold client?
  rw [h, Option.bind_some, List.getElem?_eq_getElem (hp.placed id n h), Option.bind_some]

theorem get?_enter (p : Pool) (id : NodeId) : (p.enter id).2.table.get? id = some (p.enter id).1 := by
  unfold enter
  cases h : p.table.get? id with
  | some n => exact h
  | none => simp [Table.get?_insert]

theorem Neat.enter (hp : p.Neat) (id : NodeId) : (p.enter id).2.Neat where
  toSettled := (hp.toSettled.enter id).1
  apart a b n ha hb := by
    unfold Pool.enter at ha hb
    cases h : p.table.get? id with
    | some k =>
      rw [h] at ha hb
      exact hp.apart a b n ha hb
    | none =>
      have hnew : ∀ k, p.table.get? k ≠ some p.slots.length := fun k hk =>
        Nat.lt_irrefl _ (hp.placed k _ hk)
      simp only [h, Table.get?_insert] at ha hb
      split at ha <;> split at hb
      · rename_i ha' hb'
        exact ha'.trans hb'.symm
      · cases ha
        exact absurd hb (hnew b)
      · cases hb
        exact absurd ha (hnew a)
      · exact hp.apart a b n ha hb

def Placed (p : Pool) : Prop := ∀ id slot, p.table.get? id = some slot → slot < p.slots.length

theorem Placed.client?_enter (hp : p.Placed) (id k : NodeId) : (p.enter id).2.client? k = p.client? k := by
  unfold Pool.enter
  cases h : p.table.get? id with
  | some n => rfl
  | none =>
    unfold client?
    simp only [Table.get?_insert]
    split
    · rename_i hk
      simp [hk, h]
    · cases hk : p.table.get? k with
      | none => rfl
      | some n =>
        have hn := hp k n hk
        simp only [Option.bind_some]
        rw [List.getElem?_append_left hn]

theorem client?_enter_self (p : Pool) (id : NodeId) : (p.enter id).2.client? id = p.client? id := by
  unfold Pool.enter client?
  cases h : p.table.get? id with
  | some n => simp only [h]
  | none => simp only [Table.get?_insert, if_true, Option.bind_some, List.getElem?_concat_length, Option.bind_none]

theorem Neat.client?_enter (hp : p.Neat) (id k : NodeId) : (p.enter id).2.client? k = p.client? k :=
  Placed.client?_enter hp.placed id k

theorem client?_claim (p : Pool) (n : Nat) (ticket : Ticket) (id : NodeId) :
    (p.claim n ticket).client? id = p.client? id := by
  have hslot : ∀ slot : Slot, (slot.claim ticket).client = slot.client := by
    intro slot
    unfold Slot.claim
    split
    · rfl
    · split
      · rfl
      · rfl
  unfold client? claim onSlot
  cases p.table.get? id with
  | none => rfl
  | some k =>
    simp only [Option.bind_some, List.getElem?_modify]
    cases p.slots[k]? with
    | none => rfl
    | some slot =>
      simp only [Option.map_eq_map, Option.map_some, Option.bind_some]
      split
      · exact hslot slot
      · rfl

theorem client?_of_verdict {p : Pool} {id : NodeId} {n : Nat} (hn : p.table.get? id = some n) {ticket : Ticket}
    {client : Client} (h : p.verdict n ticket = some (some client)) : p.client? id = some client := by
  unfold client?
  rw [hn]
  obtain ⟨slot, hslot, hverdict⟩ := Option.bind_eq_some_iff.1 h
  rw [Option.bind_some, hslot, Option.bind_some]
  unfold Slot.verdict at hverdict
  split at hverdict
  · rename_i hclient
    exact hclient.trans (Option.some.inj hverdict)
  · split at hverdict
    · cases Option.some.inj hverdict
    · cases hverdict

theorem Neat.claim (hp : p.Neat) {n : Nat} (hn : n < p.slots.length) {client : Client}
    (hclient : p.slots[n].client = some client) (ticket : Ticket) : (p.claim n ticket).Neat where
  toSettled := hp.toSettled.claim hn hclient ticket
  apart := hp.apart

theorem Neat.settle_claim (hp : p.Neat) (n : Nat) (ticket : Ticket) (result : Option Client) :
    ((p.claim n ticket).settle n result).Neat where
  toSettled := hp.toSettled.settle_claim n ticket result
  apart := hp.apart

theorem Neat.client?_settle_claim (hp : p.Neat) {id : NodeId} {n : Nat} (h : p.table.get? id = some n) (ticket : Ticket)
    (result : Option Client) (k : NodeId) :
    ((p.claim n ticket).settle n result).client? k = if k = id then result else p.client? k := by
  rw [← client?_claim p n ticket]
  have hsettled : ∀ slot : Slot, (slot.settle result).client = result := by
    intro slot
    cases result with
    | none => rfl
    | some client => rfl
  have hlength : n < (p.claim n ticket).slots.length := by
    simpa [Pool.claim, onSlot] using hp.placed id n h
  unfold Pool.settle onSlot client?
  split
  · rename_i hk
    subst hk
    have htable : (p.claim n ticket).table.get? k = some n := h
    simp [htable, List.getElem?_modify, List.getElem?_eq_getElem hlength, hsettled]
  · rename_i hk
    cases hother : (p.claim n ticket).table.get? k with
    | none => rfl
    | some j =>
      have hj : n ≠ j := by
        rintro rfl
        exact hk (hp.apart k id n hother h)
      simp [List.getElem?_modify, hj]

theorem Neat.evict (hp : p.Neat) (id : NodeId) : (p.evict id).2.Neat where
  placed k n h := by
    simp only [Pool.evict, Table.get?_erase] at h
    split at h
    · cases h
    · exact hp.placed k n h
  free := hp.free
  apart a b n ha hb := by
    simp only [Pool.evict, Table.get?_erase] at ha hb
    split at ha
    · cases ha
    · split at hb
      · cases hb
      · exact hp.apart a b n ha hb

theorem client?_evict (p : Pool) (id k : NodeId) :
    (p.evict id).2.client? k = if k = id then none else p.client? k := by
  unfold evict client?
  simp only [Table.get?_erase]
  split
  · rfl
  · rfl

end Pool

/-! ## One call -/

namespace World

variable {σ : Type} {w : World σ} {i : Nat} {x : Member} {trace : List (Nat × Event)} {s : Clients σ}

/-- The pool of a member shows what a plain map holds, and both have done the same on the network since there was the
given trace. -/
structure Mirrors (w : World σ) (i : Nat) (trace : List (Nat × Event)) (s : Clients σ) : Prop where
  network : w.network = s.network
  dialed : w.dialed = s.dialed
  trace : w.trace = s.events.map (fun e => (i, e)) ++ trace
  pool : ∃ x, w.members[i]? = some x ∧ x.pool.Shows s.map

/-- The same when no call is under way. -/
structure Rests (w : World σ) (i : Nat) (trace : List (Nat × Event)) (s : Clients σ) : Prop
    extends w.Mirrors i trace s where
  neat : ∀ x, w.members[i]? = some x → x.pool.Neat

theorem Mirrors.rests (h : w.Mirrors i trace s) (hi : w.members[i]? = some x) (hx : x.pool.Neat) :
    w.Rests i trace s where
  toMirrors := h
  neat y hy := by
    cases hi.symm.trans hy
    exact hx

variable [Network σ]

theorem exists_run_obtain_of_client (hi : w.members[i]? = some x) (hx : x.pool.Neat) {peer : Peer} {client : Client}
    (hclient : x.pool.client? peer.id = some client) (me : Profile) (ticket : Ticket) :
    ∃ w' y, (me.obtain peer).run (answer i ticket) w = (some (.ok client), w') ∧
      w'.network = w.network ∧ w'.dialed = w.dialed ∧ w'.trace = w.trace ∧
      w'.members[i]? = some y ∧ y.pool.Neat ∧ ∀ id, y.pool.client? id = x.pool.client? id := by
  have hneat := hx.enter peer.id
  obtain ⟨hn, hslot⟩ := hneat.client?_of_get? (x.pool.get?_enter peer.id)
  rw [hx.client?_enter, hclient] at hslot
  have hi₁ := getElem?_onMember_self hi fun x => { x with pool := (x.pool.enter peer.id).2 }
  have hverdict := hneat.verdict_claim hn ticket
  rw [← hslot] at hverdict
  unfold Profile.obtain
  rw [Activity.run_bind (run_onPool hi ticket _), Activity.run_bind (run_claim hi₁ hverdict)]
  refine ⟨_, _, rfl, rfl, rfl, rfl, getElem?_onMember_self hi₁ _, hneat.claim hn hslot.symm ticket, fun id => ?_⟩
  rw [Pool.client?_claim, hx.client?_enter]

/-- Without a client there is one lazy dial, and the client of a dial that succeeds stays in the pool. -/
theorem exists_run_obtain_of_none (hi : w.members[i]? = some x) (hx : x.pool.Neat) {peer : Peer}
    (hnone : x.pool.client? peer.id = none) (me : Profile) (ticket : Ticket) :
    ∃ w' y, (me.obtain peer).run (answer i ticket) w =
        ((Network.awaitDial w.network ⟨w.dialed, peer.target⟩ me.security).1.map (me.clientOf peer.target), w') ∧
      w'.network = (Network.awaitDial w.network ⟨w.dialed, peer.target⟩ me.security).2 ∧ w'.dialed = w.dialed + 1 ∧
      w'.trace = (i, .dial peer.target me.security.isSecure .lazy) :: w.trace ∧ w'.members[i]? = some y ∧
      ((Network.awaitDial w.network ⟨w.dialed, peer.target⟩ me.security).1 = none →
        ∀ id, y.pool.client? id = x.pool.client? id) ∧
      ∀ result, (Network.awaitDial w.network ⟨w.dialed, peer.target⟩ me.security).1 = some result →
        y.pool.Neat ∧ ∀ id, y.pool.client? id =
          if id = peer.id then (me.clientOf peer.target result).toOption else x.pool.client? id := by
  have hneat := hx.enter peer.id
  have hkey := x.pool.get?_enter peer.id
  obtain ⟨hn, hslot⟩ := hneat.client?_of_get? hkey
  rw [hx.client?_enter, hnone] at hslot
  have hi₁ := getElem?_onMember_self hi fun x => { x with pool := (x.pool.enter peer.id).2 }
  have hi₂ := getElem?_onMember_self hi₁ fun y => { y with pool := y.pool.claim (x.pool.enter peer.id).1 ticket }
  have hverdict := hneat.verdict_claim hn ticket
  rw [← hslot] at hverdict
  unfold Profile.obtain
  rw [Activity.run_bind (run_onPool hi ticket _), Activity.run_bind (run_claim hi₁ hverdict)]
  obtain ⟨w', y, hrun, hnetwork, hdialed, htrace, hy, -, -, hhangs, hends⟩ :=
    exists_run_fill_any hi₂ me (x.pool.enter peer.id).1 peer.target ticket
  refine ⟨w', y, hrun, hnetwork, hdialed, htrace, hy, fun hresult id => ?_, fun result hresult => ?_⟩
  · rw [hhangs hresult, Pool.client?_claim, hx.client?_enter]
  · rw [hends result hresult]
    refine ⟨hneat.settle_claim _ ticket _, fun id => ?_⟩
    rw [hneat.client?_settle_claim hkey, hx.client?_enter]

/-- What a neat pool gives: the client that it keeps, or else what comes of a lazy dial. -/
theorem fst_run_obtain (hi : w.members[i]? = some x) (hx : x.pool.Neat) (me : Profile) (peer : Peer) (ticket : Ticket) :
    ((me.obtain peer).run (answer i ticket) w).1 =
      match x.pool.client? peer.id with
      | some client => some (.ok client)
      | none => (Network.awaitDial w.network ⟨w.dialed, peer.target⟩ me.security).1.map (me.clientOf peer.target) := by
  cases hclient : x.pool.client? peer.id with
  | some client =>
    obtain ⟨w', -, hrun, -⟩ := exists_run_obtain_of_client hi hx hclient me ticket
    rw [hrun]
  | none =>
    obtain ⟨w', -, hrun, -⟩ := exists_run_obtain_of_none hi hx hclient me ticket
    rw [hrun]

/-- On a network on which dials end, a neat pool stays one. -/
theorem exists_neat_obtain (hd : DialsEnd σ) (hi : w.members[i]? = some x) (hx : x.pool.Neat) (me : Profile) (peer : Peer)
    (ticket : Ticket) :
    ∃ result w' y, (me.obtain peer).run (answer i ticket) w = (some result, w') ∧ w'.members[i]? = some y ∧ y.pool.Neat := by
  cases hclient : x.pool.client? peer.id with
  | some client =>
    obtain ⟨w', y, hrun, -, -, -, hy, hneat, -⟩ := exists_run_obtain_of_client hi hx hclient me ticket
    exact ⟨_, w', y, hrun, hy, hneat⟩
  | none =>
    obtain ⟨w', y, hrun, -, -, -, hy, -, hends⟩ := exists_run_obtain_of_none hi hx hclient me ticket
    obtain ⟨result, hresult⟩ := Option.ne_none_iff_exists'.1 (hd.awaitDial_ne_none _ _ _)
    rw [hresult] at hrun
    exact ⟨_, w', y, hrun, hy, (hends result hresult).1⟩

/-- A client is the one kept for the id of the peer, or one of a dial of its target. -/
theorem client_of_obtain (hi : w.members[i]? = some x) {me : Profile} {peer : Peer} {ticket : Ticket}
    {client : Client} {w' : World σ} (h : (me.obtain peer).run (answer i ticket) w = (some (.ok client), w')) :
    x.pool.client? peer.id = some client ∨ client.target = peer.target := by
  have hi₁ := getElem?_onMember_self hi fun x => { x with pool := (x.pool.enter peer.id).2 }
  have hi₂ := getElem?_onMember_self hi₁ fun y => { y with pool := y.pool.claim (x.pool.enter peer.id).1 ticket }
  unfold Profile.obtain at h
  rw [Activity.run_bind (run_onPool hi ticket _)] at h
  match hv : ((x.pool.enter peer.id).2.claim (x.pool.enter peer.id).1 ticket).verdict (x.pool.enter peer.id).1 ticket with
  | none =>
    rw [Activity.run_bind_never (run_claim_blocked hi₁ hv)] at h
    cases h
  | some (some kept) =>
    rw [Activity.run_bind (run_claim hi₁ hv)] at h
    cases h
    have hslot : ((x.pool.enter peer.id).2.claim (x.pool.enter peer.id).1 ticket).table.get? peer.id =
      some (x.pool.enter peer.id).1 := x.pool.get?_enter peer.id
    have hkept := Pool.client?_of_verdict hslot hv
    rw [Pool.client?_claim, Pool.client?_enter_self] at hkept
    exact Or.inl hkept
  | some none =>
    rw [Activity.run_bind (run_claim hi₁ hv)] at h
    obtain ⟨w₁, -, hrun, -⟩ := exists_run_fill_any hi₂ me (x.pool.enter peer.id).1 peer.target ticket
    obtain ⟨result, hresult, hclient⟩ := Option.map_eq_some_iff.1 (congrArg Prod.fst (hrun.symm.trans h))
    cases result with
    | error e => cases hclient
    | ok channel =>
      cases hclient
      exact Or.inr (congrArg Channel.target (Network.eq_of_awaitDial hresult))

/-- Without a client there is nothing to close. An empty slot that goes out of the table with it is not missed. -/
theorem exists_run_disconnect_of_none (hi : w.members[i]? = some x) (hx : x.pool.Neat) {peer : Peer}
    (hnone : x.pool.client? peer.id = none) (ticket : Ticket) :
    ∃ w' y, peer.disconnect.run (answer i ticket) w = (some (.error (.noConnection peer.id)), w') ∧
      w'.network = w.network ∧ w'.dialed = w.dialed ∧ w'.trace = w.trace ∧
      w'.members[i]? = some y ∧ y.pool.Neat ∧
      ∀ id, y.pool.client? id = if id = peer.id then none else x.pool.client? id := by
  have hevicted : (x.pool.evict peer.id).1 = none := hnone
  unfold Peer.disconnect
  rw [Activity.run_bind (run_onPool hi ticket _), hevicted]
  exact ⟨_, _, rfl, rfl, rfl, rfl, getElem?_onMember_self hi _, hx.evict peer.id, x.pool.client?_evict peer.id⟩

theorem run_close (w : World σ) (i : Nat) (ticket : Ticket) (channel : Channel) :
    (Activity.close channel).run (answer i ticket) w =
      (some (Network.close w.network channel).1,
        { w.note i (.close channel.target) with network := (Network.close w.network channel).2 }) := by
  have hclose : w.perform i ticket (.close channel) =
      (.ready w.elapsed (Network.close w.network channel).1,
        { w.note i (.close channel.target) with network := (Network.close w.network channel).2 }) := rfl
  exact run_now hclose rfl

/-- A client leaves the pool and is closed once, however that turns out. -/
theorem exists_run_disconnect_of_client (hi : w.members[i]? = some x) (hx : x.pool.Neat) {peer : Peer} {client : Client}
    (hclient : x.pool.client? peer.id = some client) (ticket : Ticket) :
    ∃ w' y, peer.disconnect.run (answer i ticket) w =
        (some ((Network.close w.network client.channel).1.mapError (.dial peer.target)), w') ∧
      w'.network = (Network.close w.network client.channel).2 ∧ w'.dialed = w.dialed ∧
      w'.trace = (i, .close client.target) :: w.trace ∧ w'.members[i]? = some y ∧ y.pool.Neat ∧
      ∀ id, y.pool.client? id = if id = peer.id then none else x.pool.client? id := by
  have hevicted : (x.pool.evict peer.id).1 = some client := hclient
  unfold Peer.disconnect
  rw [Activity.run_bind (run_onPool hi ticket _), hevicted]
  exact ⟨_, _, Activity.run_bind (run_close _ i ticket _) _, rfl, rfl, rfl, getElem?_onMember_self hi _,
    hx.evict peer.id, x.pool.client?_evict peer.id⟩

/-! ## All calls -/

theorem Rests.obtain (h : w.Rests i trace s) (me : Profile) (peer : Peer) (ticket : Ticket) :
    ∃ w', (me.obtain peer).run (answer i ticket) w = ((s.obtain me peer).1, w') ∧
      w'.Mirrors i trace (s.obtain me peer).2 ∧
      ((s.obtain me peer).1 ≠ none → w'.Rests i trace (s.obtain me peer).2) := by
  obtain ⟨x, hi, hshows⟩ := h.pool
  have hneat := h.neat x hi
  unfold Clients.obtain
  match hclient : s.map.get? peer.id with
  | some client =>
    obtain ⟨w', y, hrun, hnetwork, hdialed, htrace, hy, hyneat, hyclient⟩ :=
      exists_run_obtain_of_client hi hneat ((hshows peer.id).trans hclient) me ticket
    have hmirrors : w'.Mirrors i trace s :=
      ⟨hnetwork.trans h.network, hdialed.trans h.dialed, htrace.trans h.trace, y, hy,
        fun id => (hyclient id).trans (hshows id)⟩
    exact ⟨w', hrun, hmirrors, fun _ => hmirrors.rests hy hyneat⟩
  | none =>
    obtain ⟨w', y, hrun, hnetwork, hdialed, htrace, hy, hhangs, hends⟩ :=
      exists_run_obtain_of_none hi hneat ((hshows peer.id).trans hclient) me ticket
    rw [h.network, h.dialed] at hrun hnetwork hhangs hends
    rw [h.trace] at htrace
    rw [h.dialed] at hdialed
    match hopened : Network.awaitDial s.network ⟨s.dialed, peer.target⟩ me.security with
    | (none, network) =>
      -- the slot keeps its dialer for good, but a slot without a client is not in the map
      rw [hopened] at hrun hnetwork hhangs
      refine ⟨w', hrun, ?_, fun hne => absurd rfl hne⟩
      exact ⟨hnetwork, hdialed, htrace, y, hy, fun id => (hhangs rfl id).trans (hshows id)⟩
    | (some (.ok channel), network) =>
      rw [hopened] at hrun hnetwork hends
      obtain ⟨hyneat, hyclient⟩ := hends _ rfl
      have hmirrors : w'.Mirrors i trace
          { map := s.map.insert peer.id ⟨channel, me.limit⟩, network, dialed := s.dialed + 1,
            events := .dial peer.target me.security.isSecure .lazy :: s.events } :=
        ⟨hnetwork, hdialed, htrace, y, hy, hshows.insert hyclient⟩
      exact ⟨w', hrun, hmirrors, fun _ => hmirrors.rests hy hyneat⟩
    | (some (.error e), network) =>
      rw [hopened] at hrun hnetwork hends
      obtain ⟨hyneat, hyclient⟩ := hends _ rfl
      have hmirrors : w'.Mirrors i trace
          { map := s.map, network, dialed := s.dialed + 1,
            events := .dial peer.target me.security.isSecure .lazy :: s.events } :=
        ⟨hnetwork, hdialed, htrace, y, hy, hshows.unseen hclient hyclient⟩
      exact ⟨w', hrun, hmirrors, fun _ => hmirrors.rests hy hyneat⟩

theorem Rests.disconnect (h : w.Rests i trace s) (peer : Peer) (ticket : Ticket) :
    ∃ w', peer.disconnect.run (answer i ticket) w = (some (s.disconnect peer).1, w') ∧
      w'.Rests i trace (s.disconnect peer).2 := by
  obtain ⟨x, hi, hshows⟩ := h.pool
  have hneat := h.neat x hi
  unfold Clients.disconnect
  match hclient : s.map.get? peer.id with
  | none =>
    obtain ⟨w', y, hrun, hnetwork, hdialed, htrace, hy, hyneat, hyclient⟩ :=
      exists_run_disconnect_of_none hi hneat ((hshows peer.id).trans hclient) ticket
    have hmirrors : w'.Mirrors i trace s :=
      ⟨hnetwork.trans h.network, hdialed.trans h.dialed, htrace.trans h.trace, y, hy, hshows.unseen hclient hyclient⟩
    exact ⟨w', hrun, hmirrors.rests hy hyneat⟩
  | some client =>
    obtain ⟨w', y, hrun, hnetwork, hdialed, htrace, hy, hyneat, hyclient⟩ :=
      exists_run_disconnect_of_client hi hneat ((hshows peer.id).trans hclient) ticket
    rw [h.network] at hrun hnetwork
    rw [h.trace] at htrace
    have hmirrors : w'.Mirrors i trace
        { map := s.map.erase peer.id, network := (Network.close s.network client.channel).2, dialed := s.dialed,
          events := .close client.target :: s.events } :=
      ⟨hnetwork, hdialed.trans h.dialed, htrace, y, hy, hshows.erase hyclient⟩
    exact ⟨w', hrun, hmirrors.rests hy hyneat⟩

theorem Rests.look {α : Type} {f : Pool → α} {a : α} (h : w.Rests i trace s)
    (hf : ∀ p : Pool, p.Shows s.map → f p = a) (ticket : Ticket) :
    ∃ w', (Activity.onPool fun p => (f p, p)).run (answer i ticket) w = (some a, w') ∧ w'.Rests i trace s := by
  obtain ⟨x, hi, hshows⟩ := h.pool
  have hi' := getElem?_onMember_self hi fun x => { x with pool := x.pool }
  have hmirrors : (w.onMember i fun x => { x with pool := x.pool }).Mirrors i trace s :=
    ⟨h.network, h.dialed, h.trace, x, hi', hshows⟩
  have hrun := run_onPool hi ticket fun p => (f p, p)
  rw [hf x.pool hshows] at hrun
  exact ⟨_, hrun, hmirrors.rests hi' (h.neat x hi)⟩

/-- One call of the pool and the same call of the plain map. Only a dial that never ends leaves a call without an
answer. -/
theorem Rests.call (h : w.Rests i trace s) (me : Profile) (c : PoolCall) :
    ∃ w', w.run i (c.activity me) = ((s.call me c).1, w') ∧ w'.Mirrors i trace (s.call me c).2 ∧
      ((s.call me c).1 ≠ none → w'.Rests i trace (s.call me c).2) := by
  have h' : ({ w with tickets := w.tickets + 1 } : World σ).Rests i trace s :=
    ⟨⟨h.network, h.dialed, h.trace, h.pool⟩, h.neat⟩
  unfold run
  cases c with
  | obtain peer =>
    obtain ⟨w', hrun, hmirrors, hrests⟩ := h'.obtain me peer ⟨w.tickets⟩
    refine ⟨w', Activity.run_map hrun PoolAnswer.client, hmirrors, fun hne => hrests fun hnone => hne ?_⟩
    exact congrArg (Option.map PoolAnswer.client) hnone
  | disconnect peer =>
    obtain ⟨w', hrun, hrests⟩ := h'.disconnect peer ⟨w.tickets⟩
    exact ⟨w', Activity.run_bind hrun _, hrests.toMirrors, fun _ => hrests⟩
  | contains peer =>
    obtain ⟨w', hrun, hrests⟩ := h'.look
      (fun p hp => congrArg PoolAnswer.present (hp.contains peer.id)) ⟨w.tickets⟩
    exact ⟨w', hrun, hrests.toMirrors, fun _ => hrests⟩
  | size =>
    obtain ⟨w', hrun, hrests⟩ := h'.look (fun p hp => congrArg PoolAnswer.count hp.size) ⟨w.tickets⟩
    exact ⟨w', hrun, hrests.toMirrors, fun _ => hrests⟩

/-- Calls of the pool of a member, in any number and order and on any network, get the answers that the same calls of a
plain map get, with the same dials and closes in the same order; and at the end the pool shows what the map holds. -/
theorem pool_refines_map (w : World σ) {i : Nat} {x : Member} (hi : w.members[i]? = some x) (hx : x.pool = {})
    (me : Profile) (calls : List PoolCall) :
    ∃ answers w' s y, w.callPool i me calls = (answers, w') ∧
      Clients.callAll me calls { network := w.network, dialed := w.dialed } = (answers, s) ∧
      w'.network = s.network ∧ w'.trace = s.events.map (fun e => (i, e)) ++ w.trace ∧
      w'.members[i]? = some y ∧ (∀ id, y.pool.client? id = s.map.get? id) ∧
      (∀ id, y.pool.contains id = s.map.contains id) ∧ y.pool.size = s.map.size := by
  have hstart : w.Rests i w.trace { network := w.network, dialed := w.dialed } := by
    refine Mirrors.rests ⟨rfl, rfl, rfl, x, hi, fun id => ?_⟩ hi ?_
    · rw [hx]
      rfl
    · rw [hx]
      exact Pool.Neat.empty
  obtain ⟨w', hrun, hmirrors⟩ := inTurn_simulation (R := fun (v : World σ) s => v.Rests i w.trace s)
    (S := fun (v : World σ) s => v.Mirrors i w.trace s) Rests.toMirrors (fun c _ _ h => h.call me c) calls hstart
  obtain ⟨y, hy, hshows⟩ := hmirrors.pool
  exact ⟨_, w', _, y, hrun, rfl, hmirrors.network, hmirrors.trace, hy, hshows, hshows.contains, hshows.size⟩

end World

/-- A node on a network with one target, which refuses the first dial, accepts the next, and does not close well. -/
def flaky : World ScriptedNetwork where
  members := [{ profile := { name := "a", target := "a:1" } }]
  network := ScriptedNetwork.setRoute {} "b:1"
    { dials := ⟨[.now (.error (ScriptedNetwork.refused "b:1")), .now (.ok ())]⟩, closes := ⟨[.error (.closed "b:1")]⟩ }

def flakyCalls : List PoolCall :=
  let peer : Peer := ⟨"b", "b:1"⟩
  [.obtain peer, .contains peer, .size, .disconnect peer, .obtain peer, .obtain peer, .size, .disconnect peer, .size,
    .disconnect peer]

theorem flaky_callPool :
    ∃ w', flaky.callPool 0 { name := "a", target := "a:1" } flakyCalls =
        ([.client (.error (.dial "b:1" (ScriptedNetwork.refused "b:1"))), .present false, .count 0,
          .closed (.error (.noConnection (.ofTarget "b:1"))),
          .client (.ok ⟨⟨1, "b:1"⟩, .ofSeconds 5⟩), .client (.ok ⟨⟨1, "b:1"⟩, .ofSeconds 5⟩), .count 1,
          .closed (.error (.dial "b:1" (.closed "b:1"))), .count 0,
          .closed (.error (.noConnection (.ofTarget "b:1")))], w') ∧
      w'.trace = [(0, .close "b:1"), (0, .dial "b:1" false .lazy), (0, .dial "b:1" false .lazy)] := by
  obtain ⟨answers, w', s, y, hcalls, hplain, -, htrace, -⟩ :=
    World.pool_refines_map flaky (i := 0) rfl rfl { name := "a", target := "a:1" } flakyCalls
  cases hplain
  exact ⟨w', hcalls, htrace⟩

end PeerMesh
