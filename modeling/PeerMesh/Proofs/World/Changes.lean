import PeerMesh.Measurement.RoundTrip
import PeerMesh.Membership.Serving
import PeerMesh.Membership.Spreading
import PeerMesh.Proofs.World.Stores

/-!
# What operations make of stores

* `Operation`, `Operation.activity` : what other nodes and the operator of a node can ask of it;
* `Operation.Change` : all that an operation may make of the store of its node;
* `Profile.only_outward_requestJoin`, `Profile.only_outward_ping` : parts of operations that leave the store alone;
* `Operation.only_changes` : no operation does anything else to it.
-/

namespace PeerMesh

/-- What can be asked of a node. -/
inductive Operation where
  | serve (request : Request)
  | join (candidates : List String)
  | rtt
  | ping (peer : Peer)
  | push (peer : Peer)
  | announce (notice : Notice)
  | disconnect (peer : Peer)
  | setNode (name target : String) (health : Health)
  | addNode (name target : String) (health : Health)
  | setHealth (id : NodeId) (health : Health)
  | removeNode (id : NodeId)
  | setSample (reading : Reading)

namespace Operation

def activity (me : Profile) : Operation → Activity Unit
  | serve request => do let _ ← me.serve request
  | join candidates => do let _ ← me.join candidates
  | rtt => me.rtt
  | ping peer => do let _ ← me.ping peer
  | push peer => do let _ ← me.push peer
  | announce notice => me.announce notice
  | disconnect peer => do let _ ← peer.disconnect
  | setNode name target health => Activity.onStore fun s => ((), s.putNode (.new name target health))
  | addNode name target health => Activity.onStore fun s => ((), (s.addNode (.new name target health)).2)
  | setHealth id health => do
    let now ← Activity.date
    Activity.onStore fun s => ((), (s.setHealth id health now).2)
  | removeNode id => Activity.onStore fun s => ((), (s.removeNode id).2)
  | setSample reading => Activity.onStore fun s => ((), s.putSample (.ofReading reading))

/-- All that an operation may make of the store of its node. -/
inductive Change (me : Profile) : Operation → (Store → Store) → Prop where
  | nothing {operation : Operation} : Change me operation fun s => s
  | letIn {joiner : Peer} : Change me (.serve (.joinMesh joiner)) fun s => s.letIn joiner
  | answer {request : Request} (now : Int64) (h : ∀ joiner, request ≠ .joinMesh joiner) :
      Change me (.serve request) fun s => (me.answer now request s).2.1
  | adopt {candidates : List String} {candidate : String} (reply : JoinReply) (h : candidate ∈ candidates) :
      Change me (.join candidates) fun s => me.adopt candidate reply s
  | measure {reading : Reading} (h : reading.source = me.name) : Change me .rtt fun s => s.putSample (.ofReading reading)
  | setNode {name target : String} {health : Health} :
      Change me (.setNode name target health) fun s => s.putNode (.new name target health)
  | addNode {name target : String} {health : Health} :
      Change me (.addNode name target health) fun s => (s.addNode (.new name target health)).2
  | setHealth {id : NodeId} {health : Health} (now : Int64) :
      Change me (.setHealth id health) fun s => (s.setHealth id health now).2
  | removeNode {id : NodeId} : Change me (.removeNode id) fun s => (s.removeNode id).2
  | setSample {reading : Reading} : Change me (.setSample reading) fun s => s.putSample (.ofReading reading)

end Operation

def Effect.Within (may : (Store → Store) → Prop) : Effect → Prop
  | store change => may change
  | _ => True

/-! ## Parts of operations -/

theorem Effect.Outward.within {may : (Store → Store) → Prop} {e : Effect} (h : e.Outward) : e.Within may := by
  cases e with
  | store change => exact h.elim
  | _ => trivial

theorem Profile.only_outward_obtain_bind {α : Type} (me : Profile) (peer : Peer) {f : Except PeerError Client → Activity α}
    (herror : ∀ e, (f (.error e)).Only Effect.Outward) (hok : ∀ client, (f (.ok client)).Only Effect.Outward) :
    (me.obtain peer >>= f).Only Effect.Outward := by
  refine ((me.only_obtain peer).mono fun _ he => he.outward).bind fun result => ?_
  cases result with
  | error e => exact herror e
  | ok client => exact hok client

theorem Profile.only_outward_requestJoin (me : Profile) (candidate : String) :
    (me.requestJoin candidate).Only Effect.Outward :=
  me.only_outward_obtain_bind _ (fun _ => trivial) fun _ => (Activity.only_ask trivial).bind fun _ => trivial

theorem Profile.only_outward_ping (me : Profile) (peer : Peer) : (me.ping peer).Only Effect.Outward :=
  me.only_outward_obtain_bind peer (fun _ => trivial) fun _ => Activity.only_callEmpty trivial

theorem Profile.only_outward_announce (me : Profile) (notice : Notice) : (me.announce notice).Only Effect.Outward :=
  me.only_outward_obtain_bind notice.listener (fun _ => trivial) fun _ =>
    (Activity.only_callEmpty trivial).bind fun _ => trivial

theorem Peer.only_outward_disconnect (peer : Peer) : peer.disconnect.Only Effect.Outward := by
  refine (Activity.only_onPool trivial).bind fun client => ?_
  cases client with
  | none => trivial
  | some client => exact (Activity.only_ask trivial).bind fun _ => trivial

section

variable {may : (Store → Store) → Prop}

namespace Profile

theorem only_within_serve (me : Profile) (request : Request) :
    (me.serve request).Only (Effect.Within (Operation.Change me (.serve request))) := by
  have hother : (∀ joiner, request ≠ .joinMesh joiner) →
      (me.serveAtOnce request).Only (Effect.Within (Operation.Change me (.serve request))) := by
    intro h
    refine (Activity.only_ask trivial).bind fun now => ?_
    refine (Activity.only_onStore (.answer now h)).bind fun _ => ?_
    exact (Activity.only_ask trivial).bind fun _ => trivial
  cases request with
  | joinMesh joiner =>
    refine Activity.Only.bind ((Activity.only_onStore .nothing).bind fun taken => ?_) fun _ => trivial
    split
    · trivial
    · refine (Activity.only_onStore .letIn).bind fun _ => ?_
      refine (Activity.only_onStore .nothing).bind fun _ => ?_
      exact (Activity.only_ask trivial).bind fun _ => trivial
  | _ => exact hother nofun

theorem only_within_join (me : Profile) (candidates : List String)
    (hmay : ∀ candidate ∈ candidates, ∀ reply, may fun s => me.adopt candidate reply s) :
    (me.join candidates).Only (Effect.Within may) := by
  have hrequest : ∀ candidate, (me.requestJoin candidate).Only (Effect.Within may) := fun candidate =>
    (me.only_outward_requestJoin candidate).mono fun _ he => he.within
  induction candidates with
  | nil => trivial
  | cons candidate candidates ih =>
    unfold join
    refine (hrequest candidate).bind fun result => ?_
    cases result with
    | error e =>
      simp only
      split
      · trivial
      · exact ih fun c hc => hmay c (List.mem_cons_of_mem _ hc)
    | ok reply =>
      simp only
      split
      · exact (Activity.only_onStore (hmay candidate List.mem_cons_self reply)).bind fun _ => trivial
      · trivial

theorem only_within_rtt (me : Profile) : me.rtt.Only (Effect.Within (Operation.Change me .rtt)) := by
  have hmeasure : ∀ target, (me.measure target).Only (Effect.Within (Operation.Change me .rtt)) := by
    intro target
    refine (Activity.only_ask trivial).bind fun start => (Activity.only_ask trivial).bind fun result => ?_
    cases result with
    | error e => trivial
    | ok channel =>
      refine (Activity.only_ask trivial).bind fun ready => (Activity.only_callEmpty trivial).bind fun answer => ?_
      exact (Activity.only_ask trivial).bind fun stop => (Activity.only_ask trivial).bind fun _ => trivial
  have hown : ∀ reading : Reading, reading.source = me.name →
      Operation.Change me .rtt fun s => s.putSample (.ofReading reading) := fun _ h => .measure h
  have hrecord : ∀ peer trip, (me.recordRoundTrip peer trip).Only (Effect.Within (Operation.Change me .rtt)) := by
    intro peer trip
    refine (Activity.only_ask trivial).bind fun _ => (Activity.only_ask trivial).bind fun _ =>
      (Activity.only_ask trivial).bind fun now => ?_
    refine (Activity.only_onStore ?_).bind fun _ => Activity.only_onStore ?_
    · exact hown ⟨me.name, peer.name, .rttTotal, _, now⟩ rfl
    · exact hown ⟨me.name, peer.name, .rttRequest, _, now⟩ rfl
  refine (Activity.only_ask trivial).bind fun choice => (Activity.only_onStore .nothing).bind fun drawn => ?_
  cases drawn with
  | nil => trivial
  | cons peer _ =>
    refine (hmeasure peer.target).bind fun result => ?_
    cases result with
    | error e => trivial
    | ok trip => exact hrecord peer trip

end Profile

end

/-! ## Whole operations -/

/-- No operation makes anything of the store of its node but what it may. -/
theorem Operation.only_changes (me : Profile) (operation : Operation) :
    (operation.activity me).Only (Effect.Within (operation.Change me)) := by
  cases operation with
  | serve request => exact (me.only_within_serve request).bind fun _ => trivial
  | join candidates => exact (me.only_within_join candidates fun c hc reply => .adopt reply hc).bind fun _ => trivial
  | rtt => exact me.only_within_rtt
  | ping peer => exact ((me.only_outward_ping peer).mono fun _ he => he.within).bind fun _ => trivial
  | push peer =>
    refine Activity.Only.bind ((Activity.only_onStore .nothing).bind fun samples => ?_) fun _ => trivial
    cases samples with
    | nil => trivial
    | cons x xs =>
      refine Activity.Only.mono ?_ fun _ => Effect.Outward.within
      exact me.only_outward_obtain_bind peer (fun _ => trivial) fun _ => Activity.only_callEmpty trivial
  | announce notice => exact (me.only_outward_announce notice).mono fun _ he => he.within
  | disconnect peer => exact (peer.only_outward_disconnect.mono fun _ he => he.within).bind fun _ => trivial
  | setNode name target health => exact Activity.only_onStore .setNode
  | addNode name target health => exact Activity.only_onStore .addNode
  | setHealth id health => exact (Activity.only_ask trivial).bind fun now => Activity.only_onStore (.setHealth now)
  | removeNode id => exact Activity.only_onStore .removeNode
  | setSample reading => exact Activity.only_onStore .setSample

end PeerMesh
