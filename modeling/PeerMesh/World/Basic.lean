import PeerMesh.Membership.Answering
import PeerMesh.Membership.Spreading

/-!
# Nodes in one world

* `Member` : a node with its store and its pool;
* `Network σ` : a network in a state of type `σ`, which answers dials, calls and closes. An answer may
  take its time, or never come (`Timed`); a call may be given to a member of the world (`Reaction`);
* `World σ` : members on a network, with their clocks, their chance, and a record of what they did;
* `World.perform` : what an effect of a member gives, and when (`Outcome`);
* `World.deliver` : a member answers a request, and its announcements wait to be made;
* `World.run` : an activity of a member while nobody else does anything.

An answer that is exactly as late as its limit still counts.
-/

namespace PeerMesh

structure Member where
  profile : Profile
  store : Store := {}
  pool : Pool := {}

structure Timed (α : Type) where
  /-- How long it takes; `none` when the value never comes. -/
  delay : Option Duration
  value : α
  deriving Inhabited

namespace Timed

variable {α : Type}

def now (value : α) : Timed α := ⟨some .zero, value⟩

/-- Waits no longer than the limit, and then makes do with another value. A timer goes off on a whole
millisecond, the first that is not before the limit. -/
def within (x : Timed α) (limit : Duration) (late : α) : Timed α :=
  match x.delay with
  | some delay => if delay ≤ limit.wholeMillis then x else ⟨some limit.wholeMillis, late⟩
  | none => ⟨some limit.wholeMillis, late⟩

end Timed

inductive Reaction where
  | reply (answer : Timed (Except CallError Response))
  /-- A member of the world gets the request, and answers at once. -/
  | serve (member : Nat)

class Network (σ : Type) where
  /-- Dials the target of a channel, which is used from then on. -/
  dial : σ → Channel → Security → DialMode → Timed (Except DialError Unit) × σ
  call : σ → Channel → Request → Reaction × σ
  close : σ → Channel → Except DialError Unit × σ

inductive Event where
  | dial (target : String) (secure : Bool) (mode : DialMode)
  | call (target : String) (request : Request)
  | close (target : String)
  | observe (observation : Observation)
  deriving Repr, Inhabited

structure World (σ : Type) where
  members : List Member
  network : σ
  /-- Nanoseconds since the beginning. -/
  elapsed : Nat := 0
  date : Int64 := 0
  /-- The numbers drawn by chance, one after the other. -/
  chance : Nat → Nat := fun n => n
  drawn : Nat := 0
  dialed : Nat := 0
  /-- How many tickets have been given out. No two activities have the same one, because a dial that
  never ends keeps its slot for good. -/
  tickets : Nat := 0
  /-- The announcements that members have yet to make. -/
  outbox : List (Nat × Notice) := []
  /-- What members did, the last first. -/
  trace : List (Nat × Event) := []

inductive Outcome (α : Type) where
  /-- A result that is there once the clock shows the given time. -/
  | ready (time : Nat) (result : α)
  /-- Nothing before another activity has made a step. -/
  | blocked
  /-- Nothing ever. -/
  | never

namespace World

variable {σ : Type}

def onMember (w : World σ) (member : Nat) (f : Member → Member) : World σ :=
  { w with members := w.members.modify member f }

def note (w : World σ) (member : Nat) (event : Event) : World σ :=
  { w with trace := (member, event) :: w.trace }

def outcome {α : Type} (w : World σ) (x : Timed α) : Outcome α :=
  match x.delay with
  | some delay => .ready (w.elapsed + delay.nanos) x.value
  | none => .never

def postpone (w : World σ) (member : Nat) (notices : List Notice) : World σ :=
  { w with outbox := w.outbox ++ notices.map fun notice => (member, notice) }

def deliver (w : World σ) (member : Nat) (request : Request) : Option Response × World σ :=
  match w.members[member]? with
  | none => (none, w)
  | some m =>
    let (response, store, notices) := m.profile.answer w.date request m.store
    (some response, (w.onMember member fun m => { m with store }).postpone member notices)

variable [Network σ]

def dial (w : World σ) (target : String) (security : Security) (mode : DialMode)
    (limit : Option Duration) : Outcome (Except DialError Channel) × World σ :=
  let channel : Channel := ⟨w.dialed, target⟩
  let (result, network) := Network.dial w.network channel security mode
  let opened : Timed (Except DialError Channel) := ⟨result.delay, result.value.map fun _ => channel⟩
  let opened := match limit with
    | some limit => opened.within limit (.error (.timeout target limit))
    | none => opened
  (w.outcome opened, { w with network, dialed := w.dialed + 1 })

def call (w : World σ) (channel : Channel) (request : Request) (limit : Duration) :
    Outcome (Except CallError Response) × World σ :=
  let (reaction, network) := Network.call w.network channel request
  let w := { w with network }
  match reaction with
  | .reply answer => (w.outcome (answer.within limit (.error (.deadline request.method limit))), w)
  | .serve member =>
    let (response, w) := w.deliver member request
    (.ready w.elapsed (heard request.method response), w)

/-- What an effect of a member gives, to the caller who holds the ticket. -/
def perform (w : World σ) (member : Nat) (ticket : Ticket) (e : Effect) : Outcome e.Result × World σ :=
  match e with
  | .store change =>
    (.ready w.elapsed ((w.members[member]?.map Member.store).getD {}),
      w.onMember member fun m => { m with store := change m.store })
  | .pool change =>
    (.ready w.elapsed ((w.members[member]?.map Member.pool).getD {}),
      w.onMember member fun m => { m with pool := change m.pool })
  | .claim slot =>
    let w := w.onMember member fun m => { m with pool := m.pool.claim slot ticket }
    match w.members[member]?.bind fun m => m.pool.verdict slot ticket with
    | some client => (.ready w.elapsed client, w)
    | none => (.blocked, w)
  | .dial target security mode limit =>
    (w.note member (.dial target security.isSecure mode)).dial target security mode limit
  | .call channel request limit =>
    (w.note member (.call channel.target request)).call channel request limit
  | .close channel =>
    let (result, network) := Network.close w.network channel
    (.ready w.elapsed result, { w.note member (.close channel.target) with network })
  | .elapsed => (.ready w.elapsed w.elapsed, w)
  | .date => (.ready w.elapsed w.date, w)
  | .draw => (.ready w.elapsed (w.chance w.drawn), { w with drawn := w.drawn + 1 })
  | .observe observation => (.ready w.elapsed (), w.note member (.observe observation))
  | .announce notices => (.ready w.elapsed (), w.postpone member notices)

/-- The clock shows the given time, unless it is later already. -/
def waitUntil (w : World σ) (time : Nat) : World σ := { w with elapsed := max w.elapsed time }

/-- What an effect of a member gives while nobody else does anything: the clock goes on to the result,
and what does not come by itself never comes. -/
def answer (member : Nat) (ticket : Ticket) (e : Effect) (w : World σ) : Option e.Result × World σ :=
  match w.perform member ticket e with
  | (.ready time result, w) => (some result, w.waitUntil time)
  | (.blocked, w) => (none, w)
  | (.never, w) => (none, w)

def run {α : Type} (w : World σ) (member : Nat) (activity : Activity α) : Option α × World σ :=
  activity.run (answer member ⟨w.tickets⟩) { w with tickets := w.tickets + 1 }

end World

end PeerMesh
