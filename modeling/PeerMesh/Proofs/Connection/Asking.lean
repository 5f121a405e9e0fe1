import PeerMesh.Proofs.Store.Lookup
import PeerMesh.Proofs.World.Running

/-!
# Clients and calls on any network

What it takes a member to ask another node for something, whatever the network does.

* `Pool.Settled` : no dial for a slot is under way;
* `DialsEnd` : every dial comes to an end, well or not; `Network.awaitDial` : what becomes of one that is waited for;
* `World.exists_run_obtain_any` : obtaining a client takes at most one dial, and no waiting if the pool is settled;
* `World.hears?`, `World.hears` : what is heard of a call in time, and what it comes to;
* `World.exists_run_call_reply`, `World.run_call_serve`, `World.exists_run_call_any` : a call that is answered from outside,
  one that a member serves, and either;
* `World.exists_run_call_join` : a request to join, which always comes to an end.
-/

namespace PeerMesh

namespace Pool

/-- Nobody dials for a slot or waits for the end of a dial. -/
structure Settled (p : Pool) : Prop where
  placed : ∀ id n, p.table.get? id = some n → n < p.slots.length
  free : ∀ slot ∈ p.slots, slot.dialer = none ∧ slot.waiting = []

namespace Settled

variable {p : Pool}

theorem empty : Settled {} where
  placed id n h := by cases h
  free slot h := by cases h

theorem enter (hp : p.Settled) (id : NodeId) :
    (p.enter id).2.Settled ∧ (p.enter id).1 < (p.enter id).2.slots.length := by
  cases h : p.table.get? id with
  | some n =>
    have henter : p.enter id = (n, p) := by
      unfold Pool.enter
      rw [h]
    rw [henter]
    exact ⟨hp, hp.placed id n h⟩
  | none =>
    have henter : p.enter id =
        (p.slots.length, { slots := p.slots ++ [{}], table := p.table.insert id p.slots.length }) := by
      unfold Pool.enter
      rw [h]
    rw [henter]
    refine ⟨⟨fun k n hk => ?_, fun slot hslot => ?_⟩, by simp⟩
    · rw [Table.get?_insert] at hk
      simp only [List.length_append, List.length_singleton]
      split at hk
      · cases hk
        omega
      · have := hp.placed k n hk
        omega
    · rcases List.mem_append.1 hslot with hslot | hslot
      · exact hp.free slot hslot
      · rw [List.mem_singleton.1 hslot]
        exact ⟨rfl, rfl⟩

theorem onSlot (hp : p.Settled) (n : Nat) {f : Slot → Slot}
    (hf : ∀ slot, p.slots[n]? = some slot → (f slot).dialer = none ∧ (f slot).waiting = []) :
    (p.onSlot n f).Settled where
  placed id k hk := by
    have := hp.placed id k hk
    simpa [Pool.onSlot] using this
  free slot hslot := by
    obtain ⟨k, hk⟩ := List.mem_iff_getElem?.1 hslot
    rw [Pool.onSlot, List.getElem?_modify] at hk
    obtain ⟨old, hold, rfl⟩ := Option.map_eq_some_iff.1 hk
    split
    · rename_i hkn
      subst hkn
      exact hf old hold
    · exact hp.free old (List.mem_of_getElem? hold)

/-- A caller of a settled pool is not kept waiting: it gets the client of the slot, or else it dials. -/
theorem verdict_claim (hp : p.Settled) {n : Nat} (hn : n < p.slots.length) (ticket : Ticket) :
    (p.claim n ticket).verdict n ticket = some p.slots[n].client := by
  obtain ⟨hdialer, hwaiting⟩ := hp.free p.slots[n] (List.getElem_mem hn)
  rw [Pool.verdict_claim, List.getElem?_eq_getElem hn]
  cases hclient : p.slots[n].client with
  | some client => simp [Slot.claim, Slot.verdict, hclient]
  | none => simp [Slot.claim, Slot.verdict, hclient, hdialer, hwaiting]

theorem claim (hp : p.Settled) {n : Nat} (hn : n < p.slots.length) {client : Client}
    (hclient : p.slots[n].client = some client) (ticket : Ticket) : (p.claim n ticket).Settled := by
  refine hp.onSlot n fun slot hslot => ?_
  rw [List.getElem?_eq_getElem hn] at hslot
  cases hslot
  have hsame : p.slots[n].claim ticket = p.slots[n] := by simp [Slot.claim, hclient]
  rw [hsame]
  exact hp.free _ (List.getElem_mem hn)

theorem settle_claim (hp : p.Settled) (n : Nat) (ticket : Ticket) (result : Option Client) :
    ((p.claim n ticket).settle n result).Settled := by
  have hmodify : (p.claim n ticket).settle n result = p.onSlot n fun slot => (slot.claim ticket).settle result := by
    unfold Pool.settle Pool.claim Pool.onSlot
    rw [List.modify_modify_eq]
    rfl
  rw [hmodify]
  refine hp.onSlot n fun slot hslot => ?_
  obtain ⟨hdialer, hwaiting⟩ := hp.free slot (List.mem_of_getElem? hslot)
  have hfree : (slot.claim ticket).waiting = [] := by
    unfold Slot.claim
    rw [hdialer]
    split
    · exact hwaiting
    · exact hwaiting
  cases result with
  | some client => exact ⟨rfl, rfl⟩
  | none =>
    unfold Slot.settle
    rw [hfree]
    exact ⟨rfl, rfl⟩

end Settled

end Pool

/-- Every dial that waits for nothing but the network comes to an end. -/
def DialsEnd (σ : Type) [Network σ] : Prop :=
  ∀ (n : σ) (channel : Channel) (security : Security), (Network.dial n channel security .lazy).1.delay ≠ none

/-- What a lazy dial comes to for whoever waits for it: the channel, an error, or nothing ever. -/
def Network.awaitDial {σ : Type} [Network σ] (n : σ) (channel : Channel) (security : Security) :
    Option (Except DialError Channel) × σ :=
  let (opened, n) := Network.dial n channel security .lazy
  (opened.delay.map fun _ => opened.value.map fun _ => channel, n)

theorem DialsEnd.awaitDial_ne_none {σ : Type} [Network σ] (h : DialsEnd σ) (n : σ) (channel : Channel)
    (security : Security) : (Network.awaitDial n channel security).1 ≠ none := by
  unfold Network.awaitDial
  rw [Ne, Option.map_eq_none_iff]
  exact h n channel security

theorem Network.eq_of_awaitDial {σ : Type} [Network σ] {n : σ} {channel opened : Channel} {security : Security}
    (h : (Network.awaitDial n channel security).1 = some (.ok opened)) : opened = channel := by
  obtain ⟨-, -, hvalue⟩ := Option.map_eq_some_iff.1 h
  have hopened : ∀ dialed : Except DialError Unit, dialed.map (fun _ => channel) = .ok opened → opened = channel := by
    intro dialed hdialed
    cases dialed with
    | error e => cases hdialed
    | ok _ => exact (Except.ok.inj hdialed).symm
  exact hopened _ hvalue

/-- A value that comes within the limit, with the time that it takes. -/
def Timed.inTime {α : Type} (x : Timed α) (limit : Duration) : Option (Duration × α) :=
  x.delay.bind fun delay => if delay ≤ limit.wholeMillis then some (delay, x.value) else none

theorem Timed.within_eq {α : Type} (x : Timed α) (limit : Duration) (late : α) :
    x.within limit late =
      match x.inTime limit with
      | some (delay, value) => ⟨some delay, value⟩
      | none => ⟨some limit.wholeMillis, late⟩ := by
  unfold within inTime
  cases hdelay : x.delay with
  | none => rfl
  | some delay =>
    simp only [Option.bind_some]
    by_cases hlate : delay ≤ limit.wholeMillis
    · rw [if_pos hlate, if_pos hlate]
      obtain ⟨delay', value⟩ := x
      cases hdelay
      rfl
    · rw [if_neg hlate, if_neg hlate]

/-- What a caller gets from a dial that has come to an end. -/
def Profile.clientOf (me : Profile) (target : String) : Except DialError Channel → Except PeerError Client
  | .ok channel => .ok ⟨channel, me.limit⟩
  | .error e => .error (.dial target e)

theorem Profile.answerJoin_refused {me : Profile} {joiner : Peer} {s : Store}
    (h : (me.answerJoin joiner s).1.nameUnique = false) : (me.answerJoin joiner s).2.1 = s := by
  rw [Profile.store_answerJoin, h]
  rfl

theorem Client.joinReply_eq_ok_iff {target : String} {result : Except CallError Response} {reply : JoinReply} :
    Client.joinReply target result = .ok reply ↔ result = .ok (.joinMesh reply) := by
  unfold Client.joinReply
  split
  · simp
  · rename_i hother
    simp only [reduceCtorEq, false_iff]
    rintro ⟨⟩
    exact hother reply rfl
  · simp

namespace World

variable {σ : Type} [Network σ] {w : World σ} {i : Nat} {x : Member}

theorem run_blocked {e : Effect} {w w' : World σ} {ticket : Ticket} (h : w.perform i ticket e = (.blocked, w')) :
    (Activity.ask e).run (answer i ticket) w = (none, w') := by
  rw [Activity.run_ask, answer, h]

theorem exists_run_dial_lazy (w : World σ) (i : Nat) (ticket : Ticket) (target : String) (security : Security) :
    ∃ w', (Activity.dial target security .lazy).run (answer i ticket) w =
        ((Network.awaitDial w.network ⟨w.dialed, target⟩ security).1, w') ∧
      w'.members = w.members ∧ w'.network = (Network.awaitDial w.network ⟨w.dialed, target⟩ security).2 ∧
      w'.dialed = w.dialed + 1 ∧ w'.trace = (i, .dial target security.isSecure .lazy) :: w.trace := by
  have hanswer : ∃ w', answer i ticket (.dial target security .lazy none) w =
        ((Network.awaitDial w.network ⟨w.dialed, target⟩ security).1, w') ∧
      w'.members = w.members ∧ w'.network = (Network.awaitDial w.network ⟨w.dialed, target⟩ security).2 ∧
      w'.dialed = w.dialed + 1 ∧ w'.trace = (i, .dial target security.isSecure .lazy) :: w.trace := by
    unfold answer perform dial outcome Network.awaitDial
    simp only [note]
    cases (Network.dial w.network ⟨w.dialed, target⟩ security .lazy).1.delay with
    | some delay => exact ⟨_, rfl, rfl, rfl, rfl, rfl⟩
    | none => exact ⟨_, rfl, rfl, rfl, rfl, rfl⟩
  obtain ⟨w', hanswer, hw'⟩ := hanswer
  exact ⟨w', (Activity.run_ask _ _ _).trans hanswer, hw'⟩

theorem run_claim_blocked (hi : w.members[i]? = some x) {slot : Nat} {ticket : Ticket}
    (h : (x.pool.claim slot ticket).verdict slot ticket = none) :
    (Activity.claim slot).run (answer i ticket) w =
      (none, w.onMember i fun x => { x with pool := x.pool.claim slot ticket }) := by
  have hclaim : w.perform i ticket (.claim slot) =
      (.blocked, w.onMember i fun x => { x with pool := x.pool.claim slot ticket }) := by
    unfold perform
    simp only [getElem?_onMember_self hi, Option.bind_some, h]
  exact run_blocked hclaim

/-- The dial for a slot. Unless it never ends, the slot is settled after it. -/
theorem exists_run_fill_any (hi : w.members[i]? = some x) (me : Profile) (slot : Nat) (target : String)
    (ticket : Ticket) :
    ∃ w' y, (me.fill slot target).run (answer i ticket) w =
        ((Network.awaitDial w.network ⟨w.dialed, target⟩ me.security).1.map (me.clientOf target), w') ∧
      w'.network = (Network.awaitDial w.network ⟨w.dialed, target⟩ me.security).2 ∧ w'.dialed = w.dialed + 1 ∧
      w'.trace = (i, .dial target me.security.isSecure .lazy) :: w.trace ∧
      w'.members[i]? = some y ∧ y.profile = x.profile ∧ y.store = x.store ∧
      ((Network.awaitDial w.network ⟨w.dialed, target⟩ me.security).1 = none → y.pool = x.pool) ∧
      ∀ result, (Network.awaitDial w.network ⟨w.dialed, target⟩ me.security).1 = some result →
        y.pool = x.pool.settle slot (me.clientOf target result).toOption := by
  obtain ⟨w₁, hdial, hmembers, hnetwork, hdialed, htrace⟩ := exists_run_dial_lazy w i ticket target me.security
  have hi₁ : w₁.members[i]? = some x := by
    rw [hmembers]
    exact hi
  have hsettle : ∀ client, (Activity.onPool fun p => ((), p.settle slot client)).run (answer i ticket) w₁ =
      (some (), w₁.onMember i fun x => { x with pool := x.pool.settle slot client }) := fun client =>
    run_onPool hi₁ ticket _
  unfold Profile.fill
  match hresult : (Network.awaitDial w.network ⟨w.dialed, target⟩ me.security).1 with
  | none =>
    rw [hresult] at hdial
    exact ⟨w₁, x, Activity.run_bind_never hdial _, hnetwork, hdialed, htrace, hi₁, rfl, rfl, fun _ => rfl,
      fun result h => by cases h⟩
  | some (.ok channel) =>
    rw [hresult] at hdial
    rw [Activity.run_bind hdial]
    exact ⟨_, _, Activity.run_bind (hsettle (some ⟨channel, me.limit⟩)) _, hnetwork, hdialed, htrace,
      getElem?_onMember_self hi₁ _, rfl, rfl, fun h => by (cases h), fun result h => by cases h; rfl⟩
  | some (.error e) =>
    rw [hresult] at hdial
    rw [Activity.run_bind hdial]
    exact ⟨_, _, Activity.run_bind (hsettle none) _, hnetwork, hdialed, htrace, getElem?_onMember_self hi₁ _, rfl, rfl,
      fun h => by (cases h), fun result h => by cases h; rfl⟩

/-- A member obtains a client with at most one dial, and without waiting for anybody if its pool is settled. -/
theorem exists_run_obtain_any (hi : w.members[i]? = some x) (me : Profile) (peer : Peer) (ticket : Ticket) :
    ∃ result w' dials y, (me.obtain peer).run (answer i ticket) w = (result, w') ∧
      (dials = [] ∨ dials = [.dial peer.target me.security.isSecure .lazy]) ∧
      w'.trace = dials.map (fun e => (i, e)) ++ w.trace ∧
      w'.members[i]? = some y ∧ y.profile = x.profile ∧ y.store = x.store ∧
      (DialsEnd σ → x.pool.Settled → result ≠ none ∧ y.pool.Settled) := by
  have hi₁ := getElem?_onMember_self hi fun x => { x with pool := (x.pool.enter peer.id).2 }
  have hi₂ := getElem?_onMember_self hi₁ fun y => { y with pool := y.pool.claim (x.pool.enter peer.id).1 ticket }
  have hverdict (h : x.pool.Settled) := (h.enter peer.id).1.verdict_claim (h.enter peer.id).2 ticket
  unfold Profile.obtain
  rw [Activity.run_bind (run_onPool hi ticket _)]
  match hv : ((x.pool.enter peer.id).2.claim (x.pool.enter peer.id).1 ticket).verdict (x.pool.enter peer.id).1 ticket with
  | none =>
    refine ⟨none, _, [], _, Activity.run_bind_never (run_claim_blocked hi₁ hv) _, Or.inl rfl, rfl, hi₂, rfl, rfl, ?_⟩
    intro _ h
    rw [hverdict h] at hv
    cases hv
  | some (some client) =>
    rw [Activity.run_bind (run_claim hi₁ hv)]
    refine ⟨_, _, [], _, rfl, Or.inl rfl, rfl, hi₂, rfl, rfl, fun _ h => ⟨Option.some_ne_none _, ?_⟩⟩
    rw [hverdict h] at hv
    exact (h.enter peer.id).1.claim (h.enter peer.id).2 (Option.some.inj hv) ticket
  | some none =>
    rw [Activity.run_bind (run_claim hi₁ hv)]
    obtain ⟨w', y, hrun, -, -, htrace, hy, hprofile, hstore, -, hpool⟩ :=
      exists_run_fill_any hi₂ me (x.pool.enter peer.id).1 peer.target ticket
    refine ⟨_, w', _, y, hrun, Or.inr rfl, htrace, hy, hprofile, hstore, fun hdials h => ?_⟩
    obtain ⟨result, hresult⟩ := Option.ne_none_iff_exists'.1 (hdials.awaitDial_ne_none _ _ _)
    rw [hresult, hpool result hresult]
    exact ⟨Option.some_ne_none _, (h.enter peer.id).1.settle_claim _ ticket _⟩

/-- What the holder of a client hears of a call in time. A member that serves it answers at once. -/
def hears? (w : World σ) (client : Client) (request : Request) : Option (Except CallError Response) :=
  match (Network.call w.network client.channel request).1 with
  | .reply reply => (reply.inTime client.limit).map Prod.snd
  | .serve j => some (heard request.method (w.deliver j request).1)

/-- What a call comes to: what is heard of it in time, or that its time is over. -/
def hears (w : World σ) (client : Client) (request : Request) : Except CallError Response :=
  (w.hears? client request).getD (.error (.deadline request.method client.limit))

theorem hears_eq_ok_iff {client : Client} {request : Request} {response : Response} :
    w.hears client request = .ok response ↔ w.hears? client request = some (.ok response) := by
  unfold hears
  cases w.hears? client request with
  | none => simp
  | some result => simp

theorem hears_of_serve {client : Client} {request : Request} {j : Nat} {n : σ}
    (h : Network.call w.network client.channel request = (.serve j, n)) :
    w.hears client request = heard request.method (w.deliver j request).1 := by
  unfold hears hears?
  rw [h]
  rfl

/-- The limit of a client keeps a call from waiting for ever. -/
theorem exists_run_call_reply {client : Client} {request : Request} {reply : Timed (Except CallError Response)} {n : σ}
    (h : Network.call w.network client.channel request = (.reply reply, n)) (i : Nat) (ticket : Ticket) :
    ∃ w', (Activity.call client request).run (answer i ticket) w = (some (w.hears client request), w') ∧
      w'.members = w.members ∧ w'.trace = (i, .call client.target request) :: w.trace := by
  have hcall : ∃ time, w.perform i ticket (.call client.channel request client.limit) =
      (.ready time (w.hears client request), { w.note i (.call client.channel.target request) with network := n }) := by
    unfold perform call outcome hears hears?
    simp only [note, h, Timed.within_eq]
    cases reply.inTime client.limit with
    | none => exact ⟨_, rfl⟩
    | some x => exact ⟨_, rfl⟩
  obtain ⟨time, hcall⟩ := hcall
  exact ⟨_, run_ready hcall, rfl, rfl⟩

theorem run_call_serve {client : Client} {request : Request} {j : Nat} {n : σ}
    (h : Network.call w.network client.channel request = (.serve j, n)) (i : Nat) (ticket : Ticket) :
    (Activity.call client request).run (answer i ticket) w =
      (some (heard request.method (w.deliver j request).1),
        { (w.deliver j request).2 with
          network := n, trace := (i, .call client.target request) :: w.trace }) := by
  have helapsed : (w.deliver j request).2.elapsed = w.elapsed := by
    unfold deliver
    split
    · rfl
    · rfl
  have hcall : w.perform i ticket (.call client.channel request client.limit) =
      (.ready w.elapsed (heard request.method (w.deliver j request).1),
        { (w.deliver j request).2 with
          network := n, trace := (i, .call client.target request) :: w.trace }) := by
    unfold perform call deliver
    simp only [note, h]
    cases w.members[j]? with
    | none => rfl
    | some m => rfl
  exact run_now hcall helapsed.symm

theorem exists_run_call_any (w : World σ) (i : Nat) (client : Client) (request : Request) (ticket : Ticket) :
    ∃ w', (Activity.call client request).run (answer i ticket) w = (some (w.hears client request), w') ∧
      w'.trace = (i, .call client.target request) :: w.trace := by
  match hreaction : Network.call w.network client.channel request with
  | (.reply reply, network) =>
    obtain ⟨w', hrun, -, htrace⟩ := exists_run_call_reply hreaction i ticket
    exact ⟨w', hrun, htrace⟩
  | (.serve j, network) =>
    rw [hears_of_serve hreaction]
    exact ⟨_, run_call_serve hreaction i ticket, rfl⟩

/-- A request to join comes to an end. It changes the store of who asks only if that is who answers, and lets
itself in. -/
theorem exists_run_call_join (hi : w.members[i]? = some x) (client : Client) (joiner : Peer) (ticket : Ticket) :
    ∃ w' y, (Activity.call client (.joinMesh joiner)).run (answer i ticket) w =
        (some (w.hears client (.joinMesh joiner)), w') ∧
      w'.trace = (i, .call client.target (.joinMesh joiner)) :: w.trace ∧
      w'.members[i]? = some y ∧ y.profile = x.profile ∧ y.pool = x.pool ∧
      ((∀ reply, Client.joinReply client.target (w.hears client (.joinMesh joiner)) = .ok reply →
        reply.nameUnique = false) → y.store = x.store) := by
  match hreaction : Network.call w.network client.channel (.joinMesh joiner) with
  | (.reply reply, network) =>
    obtain ⟨w', hrun, hmembers, htrace⟩ := exists_run_call_reply hreaction i ticket
    rw [← hmembers] at hi
    exact ⟨w', x, hrun, htrace, hi, rfl, rfl, fun _ => rfl⟩
  | (.serve j, network) =>
    have hrun := run_call_serve hreaction i ticket
    rw [hears_of_serve hreaction]
    cases hj : w.members[j]? with
    | none =>
      have hdeliver : w.deliver j (.joinMesh joiner) = (none, w) := by
        unfold deliver
        rw [hj]
      rw [hdeliver] at hrun ⊢
      exact ⟨_, x, hrun, rfl, hi, rfl, rfl, fun _ => rfl⟩
    | some m =>
      have hdeliver : w.deliver j (.joinMesh joiner) =
          (some (.joinMesh (m.profile.answerJoin joiner m.store).1),
            (w.onMember j fun y => { y with store := (m.profile.answerJoin joiner m.store).2.1 }).postpone j
              (m.profile.answerJoin joiner m.store).2.2) := by
        unfold deliver
        rw [hj]
        rfl
      rw [hdeliver] at hrun ⊢
      by_cases hij : j = i
      · -- the pool of a member may hold a client that leads back to it
        subst hij
        cases Option.some.inj (hj.symm.trans hi)
        refine ⟨_, _, hrun, rfl, getElem?_onMember_self hj _, rfl, rfl, fun hrefused => ?_⟩
        exact Profile.answerJoin_refused (hrefused _ rfl)
      · have hi' : ∀ f, (w.onMember j f).members[i]? = some x := by
          intro f
          rw [getElem?_onMember, hi]
          exact congrArg some (if_neg hij)
        exact ⟨_, x, hrun, rfl, hi' _, rfl, rfl, fun _ => rfl⟩

end World

end PeerMesh
