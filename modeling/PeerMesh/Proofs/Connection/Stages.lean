import PeerMesh.Proofs.Connection.Caching
import PeerMesh.Proofs.World.Interleaving

/-!
# Calls of one pool at the same time

Any number of calls that obtain and disconnect clients of one pool, in any order of their effects. Of each call it is
enough to know how far it has come.

* `Deed.dial?`, `Deed.close?` : the dial that a deed made, and the channel that it closed;
* `Stage`, `Stage.rest` : how far a call has come, and what is left of it;
* `Turn`, `Crowd.Step.turns` : all that one effect of a call can do, to the pool and to the call;
* `Calls`, `Calls.Step` : the pool, its calls and their deeds, without the world around them;
* `Crowd.Shows`, `Crowd.Shows.step` : what a crowd of such calls does is what `Calls.Step` says.
-/

namespace PeerMesh

/-! ## Deeds -/

/-- A dial of a target, and what came of it, or nothing if it never comes to an end. -/
structure Dial where
  target : String
  result : Option (Except DialError Channel)

def Dial.channel? : Dial → Option Channel
  | ⟨_, some (.ok channel)⟩ => some channel
  | _ => none

theorem Dial.channel?_eq_some {x : Dial} {channel : Channel} :
    x.channel? = some channel ↔ x.result = some (.ok channel) := by
  obtain ⟨target, _ | error | other⟩ := x
  · simp [channel?]
  · simp [channel?]
  · simp [channel?]

namespace Deed

def dial? : Deed → Option Dial
  | ⟨_, .dial target _ _ _, result⟩ => some ⟨target, result⟩
  | _ => none

def close? : Deed → Option Channel
  | ⟨_, .close channel, _⟩ => some channel
  | _ => none

/-- A deed of a task that is neither a dial nor a close. -/
structure Plain (d : Deed) (k : Nat) : Prop where
  task : d.task = k
  dial? : d.dial? = none
  close? : d.close? = none

end Deed

/-- The id of the peer whose client a call obtains or disconnects. -/
def PoolCall.id? : PoolCall → Option NodeId
  | obtain peer => some peer.id
  | disconnect peer => some peer.id
  | _ => none

/-! ## How far a call has come -/

inductive Stage where
  /-- The call has yet to begin. -/
  | first (call : PoolCall)
  /-- It knows the slot of the peer, and asks for the client. -/
  | entered (peer : Peer) (slot : Nat)
  /-- It is its turn to dial. -/
  | chosen (peer : Peer) (slot : Nat)
  /-- The dial is under way, and this is what will come of it. -/
  | dialed (peer : Peer) (slot : Nat) (result : Except DialError Channel)
  /-- The dial never comes to an end. -/
  | hung (peer : Peer) (slot : Nat)
  /-- The client is out of the table, and yet to be closed. -/
  | closing (peer : Peer) (client : Client)
  | ended (answer : PoolAnswer)

namespace Stage

def rest (me : Profile) : Stage → Activity PoolAnswer
  | first call => call.activity me
  | entered peer slot => do
    let result ← (do
      match ← Activity.claim slot with
      | some client => pure (.ok client)
      | none => me.fill slot peer.target)
    pure (.client result)
  | chosen peer slot => do pure (.client (← me.fill slot peer.target))
  | hung peer slot => do pure (.client (← me.fill slot peer.target))
  | dialed peer slot result => do
    Activity.onPool fun p => ((), p.settle slot (me.clientOf peer.target result).toOption)
    pure (.client (me.clientOf peer.target result))
  | closing peer client => do
    let result ← Activity.close client.channel
    pure (.closed (result.mapError (.dial peer.target)))
  | ended answer => pure answer

def isHung : Stage → Bool
  | hung _ _ => true
  | _ => false

/-- The slot that a call holds for as long as it has no answer. -/
def slot? : Stage → Option Nat
  | entered _ slot => some slot
  | chosen _ slot => some slot
  | dialed _ slot _ => some slot
  | hung _ slot => some slot
  | _ => none

/-- The slot for which a call dials, or is about to. -/
def dialing? : Stage → Option Nat
  | chosen _ slot => some slot
  | dialed _ slot _ => some slot
  | hung _ slot => some slot
  | _ => none

theorem slot?_of_dialing? {stage : Stage} {slot : Nat} (h : stage.dialing? = some slot) :
    stage.slot? = some slot := by
  cases stage <;> first | exact h | cases h

theorem eq_ended_of_rest {me : Profile} {stage : Stage} {answer : PoolAnswer} (h : stage.rest me = .done answer) :
    stage = .ended answer := by
  cases stage with
  | first call => cases call <;> cases h
  | ended other =>
    cases h
    rfl
  | _ => cases h

def closing? : Stage → Option Channel
  | closing _ client => some client.channel
  | _ => none

/-- The id of the call that has yet to begin is as given. -/
def Meant (id : NodeId) : Stage → Prop
  | first call => call.id? = some id
  | _ => True

end Stage

/-- All that one effect of a call with a ticket can do: to the pool and to the call, with the number of dials of the
world and what is done by the task. -/
inductive Turn (me : Profile) (k : Nat) (ticket : Ticket) (n : Nat) (p : Pool) :
    Stage → Pool → Stage → Nat → List Deed → Prop where
  | enter {peer : Peer} {d : Deed} (hd : d.Plain k) :
      Turn me k ticket n p (.first (.obtain peer)) (p.enter peer.id).2 (.entered peer (p.enter peer.id).1) n [d]
  | miss {peer : Peer} {d : Deed} (hd : d.Plain k) (h : p.client? peer.id = none) :
      Turn me k ticket n p (.first (.disconnect peer)) (p.evict peer.id).2
        (.ended (.closed (.error (.noConnection peer.id)))) n [d]
  | evict {peer : Peer} {d : Deed} {client : Client} (hd : d.Plain k) (h : p.client? peer.id = some client) :
      Turn me k ticket n p (.first (.disconnect peer)) (p.evict peer.id).2 (.closing peer client) n [d]
  | served {peer : Peer} {slot : Nat} {d : Deed} {client : Client} (hd : d.Plain k)
      (h : (p.claim slot ticket).verdict slot ticket = some (some client)) :
      Turn me k ticket n p (.entered peer slot) (p.claim slot ticket) (.ended (.client (.ok client))) n [d]
  | chosen {peer : Peer} {slot : Nat} {d : Deed} (hd : d.Plain k)
      (h : (p.claim slot ticket).verdict slot ticket = some none) :
      Turn me k ticket n p (.entered peer slot) (p.claim slot ticket) (.chosen peer slot) n [d]
  | blocked {peer : Peer} {slot : Nat} (h : (p.claim slot ticket).verdict slot ticket = none) :
      Turn me k ticket n p (.entered peer slot) (p.claim slot ticket) (.entered peer slot) n []
  | dial {peer : Peer} {slot : Nat} {result : Except DialError Channel}
      (hnumber : ∀ channel, result = .ok channel → channel.number = n) :
      Turn me k ticket n p (.chosen peer slot) p (.dialed peer slot result) (n + 1)
        [⟨k, .dial peer.target me.security .lazy none, some result⟩]
  | hang {peer : Peer} {slot : Nat} :
      Turn me k ticket n p (.chosen peer slot) p (.hung peer slot) (n + 1)
        [⟨k, .dial peer.target me.security .lazy none, none⟩]
  | settle {peer : Peer} {slot : Nat} {d : Deed} {result : Except DialError Channel} (hd : d.Plain k) :
      Turn me k ticket n p (.dialed peer slot result) (p.settle slot (me.clientOf peer.target result).toOption)
        (.ended (.client (me.clientOf peer.target result))) n [d]
  | close {peer : Peer} {client : Client} {answer : Except DialError Unit} :
      Turn me k ticket n p (.closing peer client) p (.ended (.closed (answer.mapError (.dial peer.target)))) n
        [⟨k, .close client.channel, some answer⟩]

theorem Turn.meant {me : Profile} {k n n' : Nat} {ticket : Ticket} {p p' : Pool} {stage stage' : Stage}
    {deeds : List Deed} (h : Turn me k ticket n p stage p' stage' n' deeds) (id : NodeId) : stage'.Meant id := by
  cases h <;> trivial

/-! ## Effects on a pool -/

namespace World

variable {σ : Type}

def pool? (w : World σ) (i : Nat) : Option Pool := w.members[i]?.map Member.pool

theorem pool?_onPool {w : World σ} {i : Nat} {p : Pool} (hp : w.pool? i = some p) (f : Pool → Pool) :
    (w.onMember i fun x => { x with pool := f x.pool }).pool? i = some (f p) := by
  obtain ⟨x, hx, rfl⟩ := Option.map_eq_some_iff.1 hp
  have hi := getElem?_onMember_self hx fun x => { x with pool := f x.pool }
  unfold pool?
  rw [hi, Option.map_some]

variable [Network σ]

theorem perform_pool {w : World σ} {i : Nat} {p : Pool} (hp : w.pool? i = some p) (ticket : Ticket)
    (change : Pool → Pool) :
    w.perform i ticket (.pool change) =
      (.ready w.elapsed p, w.onMember i fun x => { x with pool := change x.pool }) := by
  unfold pool? at hp
  simp only [perform, hp, Option.getD_some]

theorem perform_claim {w : World σ} {i : Nat} {p : Pool} (hp : w.pool? i = some p) (ticket : Ticket) (slot : Nat) :
    w.perform i ticket (.claim slot) =
      (match (p.claim slot ticket).verdict slot ticket with
        | some client => .ready w.elapsed client
        | none => .blocked,
        w.onMember i fun x => { x with pool := x.pool.claim slot ticket }) := by
  obtain ⟨x, hx, rfl⟩ := Option.map_eq_some_iff.1 hp
  simp only [perform, getElem?_onMember_self hx, Option.bind_some]
  cases (x.pool.claim slot ticket).verdict slot ticket with
  | none => rfl
  | some client => rfl

theorem exists_perform_dial (w : World σ) (i : Nat) (ticket : Ticket) (target : String) (security : Security) :
    ∃ w', w'.members = w.members ∧ w'.dialed = w.dialed + 1 ∧ w'.tickets = w.tickets ∧
      (w.perform i ticket (.dial target security .lazy none) = (.never, w') ∨
        ∃ time result, w.perform i ticket (.dial target security .lazy none) = (.ready time result, w') ∧
          ∀ channel, result = .ok channel → channel.number = w.dialed) := by
  have hresult : ∀ (x : Except DialError Unit) (channel : Channel),
      x.map (fun _ => (⟨w.dialed, target⟩ : Channel)) = .ok channel → channel.number = w.dialed := by
    intro x channel h
    cases x with
    | error e => cases h
    | ok u =>
      cases h
      rfl
  refine ⟨(w.perform i ticket (.dial target security .lazy none)).2, rfl, rfl, rfl, ?_⟩
  simp only [perform, dial, outcome, note]
  cases (Network.dial w.network ⟨w.dialed, target⟩ security .lazy).1.delay with
  | none => exact Or.inl rfl
  | some delay => exact Or.inr ⟨_, _, rfl, hresult _⟩

end World

/-! ## One effect of a call -/

/-- A call on the pool of a member that holds a ticket and is at some stage. -/
structure Task.At (t : Task PoolAnswer) (me : Profile) (i : Nat) (ticket : Ticket) (stage : Stage) : Prop where
  member : t.member = i
  ticket : t.ticket = ticket
  rest : t.rest = stage.rest me
  stuck : t.stuck = stage.isHung

namespace Crowd

variable {σ : Type}

/-- From one crowd to the next, a call makes one of its turns. -/
def Turns (me : Profile) (i k : Nat) (t : Task PoolAnswer) (p : Pool) (stage : Stage) (s s' : Crowd σ PoolAnswer) :
    Prop :=
  ∃ p' stage' n t' deeds, Turn me k t.ticket s.world.dialed p stage p' stage' n deeds ∧
    s'.world.pool? i = some p' ∧ s'.world.dialed = n ∧ s'.world.tickets = s.world.tickets ∧
    s'.tasks = s.tasks.set k t' ∧ t'.At me i t.ticket stage' ∧ s'.deeds = deeds ++ s.deeds

variable [Network σ] {s s' : Crowd σ PoolAnswer} {me : Profile} {k : Nat} {t : Task PoolAnswer} {p : Pool}

theorem turns_first (h : s.Step (.go k) s') (ht : s.tasks[k]? = some t) (hp : s.world.pool? t.member = some p)
    {call : PoolCall} {id : NodeId} (hid : call.id? = some id) (hrest : t.rest = (Stage.first call).rest me) :
    Turns me t.member k t p (.first call) s s' := by
  cases call with
  | obtain peer =>
    obtain ⟨hawake, hs⟩ := h.eq_after ht hrest
    rw [World.perform_pool hp] at hs
    subst hs
    exact ⟨_, .entered peer (p.enter peer.id).1, _, _, _, .enter ⟨rfl, rfl, rfl⟩,
      World.pool?_onPool hp fun p => (p.enter peer.id).2, rfl, rfl, rfl, ⟨rfl, rfl, rfl, hawake⟩, rfl⟩
  | disconnect peer =>
    obtain ⟨hawake, hs⟩ := h.eq_after ht hrest
    rw [World.perform_pool hp] at hs
    subst hs
    have hpool := World.pool?_onPool hp fun p => (p.evict peer.id).2
    cases hclient : p.client? peer.id with
    | none =>
      refine ⟨_, .ended (.closed (.error (.noConnection peer.id))), _, _, _, .miss ⟨rfl, rfl, rfl⟩ hclient, hpool, rfl,
        rfl, rfl, ⟨rfl, rfl, ?_, hawake⟩, rfl⟩
      simp only [Pool.evict, Activity.andThen, Activity.pure_eq, hclient]
      rfl
    | some client =>
      refine ⟨_, .closing peer client, _, _, _, .evict ⟨rfl, rfl, rfl⟩ hclient, hpool, rfl, rfl, rfl,
        ⟨rfl, rfl, ?_, hawake⟩, rfl⟩
      simp only [Pool.evict, Activity.andThen, Activity.pure_eq, hclient]
      rfl
  | contains peer => cases hid
  | size => cases hid

theorem turns_entered (h : s.Step (.go k) s') (ht : s.tasks[k]? = some t) (hp : s.world.pool? t.member = some p)
    {peer : Peer} {slot : Nat} (hrest : t.rest = (Stage.entered peer slot).rest me) :
    Turns me t.member k t p (.entered peer slot) s s' := by
  obtain ⟨hawake, hs⟩ := h.eq_after ht hrest
  rw [World.perform_claim hp] at hs
  have hpool := World.pool?_onPool hp fun p => p.claim slot t.ticket
  match hverdict : (p.claim slot t.ticket).verdict slot t.ticket with
  | none =>
    rw [hverdict] at hs
    subst hs
    exact ⟨_, .entered peer slot, _, t, [], .blocked hverdict, hpool, rfl, rfl, (set_of_some_self ht).symm,
      ⟨rfl, rfl, hrest, hawake⟩, rfl⟩
  | some none =>
    rw [hverdict] at hs
    subst hs
    exact ⟨_, .chosen peer slot, _, _, _, .chosen ⟨rfl, rfl, rfl⟩ hverdict, hpool, rfl, rfl, rfl,
      ⟨rfl, rfl, rfl, hawake⟩, rfl⟩
  | some (some client) =>
    rw [hverdict] at hs
    subst hs
    exact ⟨_, .ended (.client (.ok client)), _, _, _, .served ⟨rfl, rfl, rfl⟩ hverdict, hpool, rfl, rfl, rfl,
      ⟨rfl, rfl, rfl, hawake⟩, rfl⟩

theorem turns_chosen (h : s.Step (.go k) s') (ht : s.tasks[k]? = some t) (hp : s.world.pool? t.member = some p)
    {peer : Peer} {slot : Nat} (hrest : t.rest = (Stage.chosen peer slot).rest me) :
    Turns me t.member k t p (.chosen peer slot) s s' := by
  obtain ⟨hawake, hs⟩ := h.eq_after ht hrest
  obtain ⟨w, hmembers, hdialed, htickets, houtcome⟩ :=
    s.world.exists_perform_dial t.member t.ticket peer.target me.security
  have hpool : w.pool? t.member = some p := by
    unfold World.pool?
    rw [hmembers]
    exact hp
  rcases houtcome with hnever | ⟨time, result, hready, hnumber⟩
  · rw [hnever] at hs
    subst hs
    exact ⟨p, .hung peer slot, _, _, _, .hang, hpool, hdialed, htickets, rfl, ⟨rfl, rfl, hrest, rfl⟩, rfl⟩
  · rw [hready] at hs
    subst hs
    refine ⟨p, .dialed peer slot result, _, _, _, .dial hnumber, hpool, hdialed, htickets, rfl, ⟨rfl, rfl, ?_, hawake⟩,
      rfl⟩
    cases result with
    | ok channel => rfl
    | error e => rfl

theorem Step.turns (h : s.Step (.go k) s') (ht : s.tasks[k]? = some t) {i : Nat} {ticket : Ticket} {stage : Stage}
    (hat : t.At me i ticket stage) (hp : s.world.pool? i = some p) {id : NodeId} (hmeant : stage.Meant id) :
    Turns me i k t p stage s s' := by
  obtain ⟨rfl, rfl, hrest, hstuck⟩ := hat
  cases stage with
  | first call => exact turns_first h ht hp hmeant hrest
  | entered peer slot => exact turns_entered h ht hp hrest
  | chosen peer slot => exact turns_chosen h ht hp hrest
  | dialed peer slot result =>
    obtain ⟨hawake, hs⟩ := h.eq_after ht hrest
    rw [World.perform_pool hp] at hs
    subst hs
    exact ⟨_, .ended (.client (me.clientOf peer.target result)), _, _, _, .settle ⟨rfl, rfl, rfl⟩,
      World.pool?_onPool hp fun p => p.settle slot (me.clientOf peer.target result).toOption, rfl, rfl, rfl,
      ⟨rfl, rfl, rfl, hawake⟩, rfl⟩
  | hung peer slot =>
    obtain ⟨hawake, -⟩ := h.eq_after ht hrest
    rw [hawake] at hstuck
    cases hstuck
  | closing peer client =>
    obtain ⟨hawake, hs⟩ := h.eq_after ht hrest
    subst hs
    exact ⟨p, .ended (.closed _), _, _, _, .close, hp, rfl, rfl, rfl, ⟨rfl, rfl, rfl, hawake⟩, rfl⟩
  | ended answer => exact absurd hrest (h.ne_done ht answer)

end Crowd

/-! ## Without the world -/

structure Caller where
  ticket : Ticket
  stage : Stage

/-- A pool, its calls, how many tickets and dials there were, and what the calls did, the last first. -/
structure Calls where
  pool : Pool
  callers : List Caller := []
  tickets : Nat
  dialed : Nat
  deeds : List Deed := []

namespace Calls

/-- A new call of some kind, the turn of a call, or nothing. -/
inductive Step (me : Profile) (may : PoolCall → Prop) (s : Calls) : Calls → Prop where
  | start {call : PoolCall} (hcall : may call) :
      Step me may s
        { s with callers := s.callers ++ [⟨⟨s.tickets⟩, .first call⟩], tickets := s.tickets + 1 }
  | turn {k : Nat} {a : Caller} {p : Pool} {stage : Stage} {n : Nat} {deeds : List Deed} (ha : s.callers[k]? = some a)
      (h : Turn me k a.ticket s.dialed s.pool a.stage p stage n deeds) :
      Step me may s
        { s with pool := p, callers := s.callers.set k ⟨a.ticket, stage⟩, dialed := n, deeds := deeds ++ s.deeds }
  | wait : Step me may s s

end Calls

namespace Crowd

variable {σ : Type}

def Answered (s : Crowd σ PoolAnswer) (k : Nat) (answer : PoolAnswer) : Prop :=
  ∃ t, s.tasks[k]? = some t ∧ t.rest = .done answer

/-- A move of calls of some kind on the pool of a member: a new call, one effect of a call, or time that passes. -/
inductive PoolMove (me : Profile) (i : Nat) (may : PoolCall → Prop) : Move PoolAnswer → Prop where
  | start {call : PoolCall} (hcall : may call) : PoolMove me i may (.start i (call.activity me))
  | go (k : Nat) : PoolMove me i may (.go k)
  | wait (time : Nat) (date : Int64) : PoolMove me i may (.wait time date)

/-- A crowd of calls on the pool of a member, all for one id, and what `Calls` says of it. -/
structure Shows (s : Crowd σ PoolAnswer) (me : Profile) (i : Nat) (id : NodeId) (c : Calls) : Prop where
  pool : s.world.pool? i = some c.pool
  tickets : s.world.tickets = c.tickets
  dialed : s.world.dialed = c.dialed
  deeds : s.deeds = c.deeds
  length : s.tasks.length = c.callers.length
  calls : ∀ (k : Nat) t a, s.tasks[k]? = some t → c.callers[k]? = some a → t.At me i a.ticket a.stage
  meant : ∀ (k : Nat) a, c.callers[k]? = some a → a.stage.Meant id

theorem Shows.first {s : Crowd σ PoolAnswer} {i : Nat} {p : Pool} (hp : s.world.pool? i = some p) (htasks : s.tasks = [])
    (hdeeds : s.deeds = []) (me : Profile) (id : NodeId) :
    s.Shows me i id { pool := p, tickets := s.world.tickets, dialed := s.world.dialed } where
  pool := hp
  tickets := rfl
  dialed := rfl
  deeds := hdeeds
  length := by
    rw [htasks]
    rfl
  calls k t a ht ha := by simp at ha
  meant k a ha := by simp at ha

variable {s s' : Crowd σ PoolAnswer} {me : Profile} {i : Nat} {id : NodeId} {c : Calls} {may : PoolCall → Prop}

theorem Shows.start (hs : s.Shows me i id c) {call : PoolCall} (hid : call.id? = some id) :
    (s.start i (call.activity me)).Shows me i id
      { c with callers := c.callers ++ [⟨⟨c.tickets⟩, .first call⟩], tickets := c.tickets + 1 } where
  pool := hs.pool
  tickets := congrArg (· + 1) hs.tickets
  dialed := hs.dialed
  deeds := hs.deeds
  length := by simp [Crowd.start, hs.length]
  calls k t a ht ha := by
    rcases getElem?_concat_cases ht with ht | ⟨hk, rfl⟩
    · have hk := (List.getElem?_eq_some_iff.1 ht).1
      rw [List.getElem?_append_left (hs.length ▸ hk)] at ha
      exact hs.calls k t a ht ha
    · rw [hk, hs.length, List.getElem?_concat_length] at ha
      cases ha
      exact ⟨rfl, congrArg Ticket.mk hs.tickets, rfl, rfl⟩
  meant k a ha := by
    rcases getElem?_concat_cases ha with ha | ⟨-, rfl⟩
    · exact hs.meant k a ha
    · exact hid

theorem Shows.turn (hs : s.Shows me i id c) {k : Nat} {t : Task PoolAnswer} {a : Caller} (ht : s.tasks[k]? = some t)
    (ha : c.callers[k]? = some a) (h : Turns me i k t c.pool a.stage s s') :
    ∃ c', c.Step me may c' ∧ s'.Shows me i id c' := by
  obtain ⟨p, stage, n, t', deeds, hturn, hpool, hdialed, htickets, htasks, hat, hdeeds⟩ := h
  have hticket := (hs.calls k t a ht ha).ticket
  rw [hticket, hs.dialed] at hturn
  rw [hticket] at hat
  refine ⟨_, .turn ha hturn, hpool, htickets.trans hs.tickets, hdialed, ?_, ?_, fun j u b hu hb => ?_, fun j b hb => ?_⟩
  · rw [hdeeds, hs.deeds]
  · simp [htasks, hs.length]
  · rw [htasks] at hu
    rcases getElem?_set_cases ht hu with ⟨rfl, rfl⟩ | ⟨hj, hu⟩
    · rcases getElem?_set_cases ha hb with ⟨-, rfl⟩ | ⟨hj, -⟩
      · exact hat
      · exact absurd rfl hj
    · rw [List.getElem?_set_ne hj] at hb
      exact hs.calls j u b hu hb
  · rcases getElem?_set_cases ha hb with ⟨-, rfl⟩ | ⟨-, hb⟩
    · exact hturn.meant id
    · exact hs.meant j b hb

variable [Network σ]

theorem Shows.step (hmay : ∀ call, may call → call.id? = some id) (hs : s.Shows me i id c) {m : Move PoolAnswer}
    (hm : PoolMove me i may m) (h : s.step? m = some s') : ∃ c', c.Step me may c' ∧ s'.Shows me i id c' := by
  cases hm with
  | start hcall =>
    cases h
    exact ⟨_, .start hcall, hs.start (hmay _ hcall)⟩
  | go k =>
    have hstep := step_of_go h
    obtain ⟨t, ht⟩ := hstep.exists_task
    have hk : k < c.callers.length := hs.length ▸ (List.getElem?_eq_some_iff.1 ht).1
    have ha := List.getElem?_eq_getElem hk
    exact hs.turn ht ha (hstep.turns ht (hs.calls k _ _ ht ha) hs.pool (hs.meant k _ ha))
  | wait time date =>
    cases h
    exact ⟨c, .wait, hs.pool, hs.tickets, hs.dialed, hs.deeds, hs.length, hs.calls, hs.meant⟩

/-- What every step of `Calls` preserves holds of what a run of moves leads to. -/
theorem Shows.run (hmay : ∀ call, may call → call.id? = some id) {P : Calls → Prop}
    (hP : ∀ c c', P c → c.Step me may c' → P c') (hs : s.Shows me i id c) (hc : P c) {moves : List (Move PoolAnswer)}
    (hmoves : ∀ m ∈ moves, PoolMove me i may m) (h : s.run moves = some s') :
    ∃ c', s'.Shows me i id c' ∧ P c' := by
  apply run_induction (P := fun s => ∃ c, s.Shows me i id c ∧ P c) _ hmoves ⟨c, hs, hc⟩ h
  rintro s m s' ⟨c, hs, hc⟩ hm hstep
  obtain ⟨c', hc', hs'⟩ := hs.step hmay hm hstep
  exact ⟨c', hs', hP c c' hc hc'⟩

end Crowd

end PeerMesh
