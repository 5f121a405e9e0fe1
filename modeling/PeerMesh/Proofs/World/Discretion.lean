import PeerMesh.Proofs.World.Changes
import PeerMesh.Proofs.World.Twins
import PeerMesh.World.Scripted

/-!
# Health is kept to oneself

What a node thinks of the health of others shows in nothing that it tells them.

* `Report`, `Operation.report` : an operation with what is told to whoever asked for it. Nothing else is done for that
  (`Operation.report_bind`);
* `Operation.Alike`, `Operation.Alike.twins` : operations that differ at most in the health to be recorded do the same;
* `Crowd.Abreast` : two crowds that make moves which are alike, with tables walked in the same order;
* `Crowd.health_never_shows` : they tell the same, ask for the same and stay alike.
-/

namespace PeerMesh

/-- What is told of an operation to whoever asked for it. -/
inductive Report where
  | nothing
  | response (response : Response)
  | outcome (outcome : JoinOutcome)
  | result (result : Except PeerError Unit)
  | flag (yes : Bool)
  | record (record : Option Node)

namespace Activity

variable {α β γ : Type}

theorem map_bind (x : Activity α) (f : α → β) (g : β → Activity γ) : (f <$> x >>= g) = x >>= fun a => g (f a) := by
  induction x with
  | done a => rfl
  | perform e next ih => exact congrArg (perform e) (funext fun r => ih r)

theorem bind_done (x : Activity α) : x >>= done = x := by
  induction x with
  | done a => rfl
  | perform e next ih => exact congrArg (perform e) (funext fun r => ih r)

end Activity

namespace Operation

def report (me : Profile) : Operation → Activity Report
  | serve request => .response <$> me.serve request
  | join candidates => .outcome <$> me.join candidates
  | rtt => (fun _ => .nothing) <$> me.rtt
  | ping peer => .result <$> me.ping peer
  | push peer => .result <$> me.push peer
  | announce notice => (fun _ => .nothing) <$> me.announce notice
  | disconnect peer => .result <$> peer.disconnect
  | setNode name target health => Activity.onStore fun s => (.nothing, s.putNode (.new name target health))
  | addNode name target health => .flag <$> Activity.onStore fun s => s.addNode (.new name target health)
  | setHealth id health => do
    let now ← Activity.date
    .flag <$> Activity.onStore fun s => s.setHealth id health now
  | removeNode id => .record <$> Activity.onStore fun s => s.removeNode id
  | setSample reading => Activity.onStore fun s => (.nothing, s.putSample (.ofReading reading))

theorem report_bind (me : Profile) (operation : Operation) :
    (do let _ ← operation.report me) = operation.activity me := by
  cases operation with
  | rtt => exact (Activity.map_bind _ _ _).trans (Activity.bind_done _)
  | announce notice => exact (Activity.map_bind _ _ _).trans (Activity.bind_done _)
  | setNode name target health => rfl
  | addNode name target health => rfl
  | setHealth id health => rfl
  | removeNode id => rfl
  | setSample reading => rfl
  | _ => exact Activity.map_bind _ _ _

end Operation

/-! ## What operations do on twins -/

namespace Profile

theorem twins_serveJoin (me : Profile) (joiner : Peer) : (me.serveJoin joiner).Twins (me.serveJoin joiner) := by
  have hwelcome : (me.welcome joiner).Twins (me.welcome joiner) := by
    have hread : ∀ s t : Store, s.Twins t →
        (s.nodes.map Node.toPeer, me.notices joiner s) = (t.nodes.map Node.toPeer, me.notices joiner t) :=
      fun s t hst => congrArg₂ Prod.mk hst.peers (hst.notices me joiner)
    refine (Activity.twins_readStore hread).bind fun x => Activity.Only.twins ?_
    exact (Activity.only_ask trivial).bind fun _ => trivial
  refine (Activity.twins_readStore fun s t hst => hst.nameTaken me joiner).bind fun taken => ?_
  cases taken with
  | true => exact .done _
  | false => exact (Activity.twins_change (fun s t hst => hst.letIn joiner) ()).bind fun _ => hwelcome

theorem twins_serveAtOnce (me : Profile) (request : Request) :
    (me.serveAtOnce request).Twins (me.serveAtOnce request) := by
  refine Activity.twins_date_bind fun now now' => Activity.Twins.bind (Activity.twins_onStore fun s t hst => ?_) fun x => ?_
  · obtain ⟨hresponse, hafter, hnotices⟩ := hst.answer me now now' request
    exact ⟨congrArg₂ Prod.mk hresponse hnotices, hafter⟩
  · refine Activity.Only.twins ?_
    exact (Activity.only_ask trivial).bind fun _ => trivial

theorem twins_serve (me : Profile) (request : Request) : (me.serve request).Twins (me.serve request) := by
  cases request with
  | joinMesh joiner => exact (me.twins_serveJoin joiner).map _
  | _ => exact me.twins_serveAtOnce _

theorem twins_join (me : Profile) (candidates : List String) : (me.join candidates).Twins (me.join candidates) := by
  induction candidates with
  | nil => exact .done _
  | cons candidate candidates ih =>
    unfold join
    refine (Activity.twins_of_outward (me.only_outward_requestJoin candidate)).bind fun result => ?_
    cases result with
    | error e =>
      simp only
      split
      · exact .done _
      · exact ih
    | ok reply =>
      simp only
      split
      · exact (Activity.twins_change (fun s t hst => hst.adopt me candidate reply) ()).bind fun _ => .done _
      · exact .done _

theorem twins_push (me : Profile) (peer : Peer) : (me.push peer).Twins (me.push peer) := by
  refine (Activity.twins_readStore fun s t hst => hst.samples).bind fun samples => ?_
  cases samples with
  | nil => exact .done _
  | cons x xs =>
    refine Activity.twins_of_outward ?_
    exact me.only_outward_obtain_bind peer (fun _ => trivial) fun _ => Activity.only_callEmpty trivial

end Profile

namespace Operation

/-- Operations that differ at most in the health to be recorded. None of them chooses a node by its health (`rtt`), and
none hands over a record (`removeNode`). -/
inductive Alike : Operation → Operation → Prop where
  | serve (request : Request) : Alike (.serve request) (.serve request)
  | join (candidates : List String) : Alike (.join candidates) (.join candidates)
  | ping (peer : Peer) : Alike (.ping peer) (.ping peer)
  | push (peer : Peer) : Alike (.push peer) (.push peer)
  | announce (notice : Notice) : Alike (.announce notice) (.announce notice)
  | disconnect (peer : Peer) : Alike (.disconnect peer) (.disconnect peer)
  | setNode (name target : String) (health health' : Health) :
      Alike (.setNode name target health) (.setNode name target health')
  | addNode (name target : String) (health health' : Health) :
      Alike (.addNode name target health) (.addNode name target health')
  | setHealth (id : NodeId) (health health' : Health) : Alike (.setHealth id health) (.setHealth id health')
  | setSample (reading : Reading) : Alike (.setSample reading) (.setSample reading)

theorem Alike.twins {operation operation' : Operation} (h : operation.Alike operation') (me : Profile) :
    (operation.report me).Twins (operation'.report me) := by
  have hface : ∀ name target health health', (Node.new name target health).face = (Node.new name target health').face :=
    fun _ _ _ _ => rfl
  cases h with
  | serve request => exact (me.twins_serve request).map _
  | join candidates => exact (me.twins_join candidates).map _
  | ping peer => exact (Activity.twins_of_outward (me.only_outward_ping peer)).map _
  | push peer => exact (me.twins_push peer).map _
  | announce notice => exact (Activity.twins_of_outward (me.only_outward_announce notice)).map _
  | disconnect peer => exact (Activity.twins_of_outward peer.only_outward_disconnect).map _
  | setNode name target health health' =>
    exact Activity.twins_change (fun s t hst => hst.putNode (hface name target health health')) _
  | addNode name target health health' =>
    exact (Activity.twins_onStore fun s t hst => hst.addNode (hface name target health health')).map _
  | setHealth id health health' =>
    refine Activity.twins_date_bind fun now now' => Activity.Twins.map ?_ _
    exact Activity.twins_onStore fun s t hst => hst.setHealth id health health' now now'
  | setSample reading => exact Activity.twins_change (fun s t hst => hst.putSample _) _

end Operation

/-! ## Two runs -/

namespace Crowd

variable {σ : Type}

/-- The same move, but for the health that an operation is to record, and for the date. -/
inductive Move.Alike : Move Report → Move Report → Prop where
  | start (i : Nat) (me : Profile) {operation operation' : Operation} (h : operation.Alike operation') :
      Alike (.start i (operation.report me)) (.start i (operation'.report me))
  | go (k : Nat) : Alike (.go k) (.go k)
  | wait (time : Nat) (date date' : Int64) : Alike (.wait time date) (.wait time date')

theorem Move.Alike.twins {m m' : Move Report} (h : m.Alike m') : m.Twins m' := by
  cases h with
  | start i me h => exact .start i (h.twins me)
  | go k => exact .go k
  | wait time date date' => exact .wait time date date'

variable [Network σ] {s s' r r' : Crowd σ Report}

/-- What two crowds come to that make moves which are alike, one after another. Their tables may be walked in another
order from any time on, if it is the same for both. -/
inductive Abreast (s s' : Crowd σ Report) : Crowd σ Report → Crowd σ Report → Prop where
  | start : Abreast s s' s s'
  | move {r r' u u' : Crowd σ Report} {m m' : Move Report} (h : Abreast s s' r r') (hm : m.Alike m')
      (hu : r.step? m = some u) (hu' : r'.step? m' = some u') : Abreast s s' u u'
  | reorder {r r' u u' : Crowd σ Report} (h : Abreast s s' r r') (hu : r.Reordered u) (hu' : r'.Reordered u')
      (horder : List.Forall₂ Member.SameOrder u.world.members u'.world.members) : Abreast s s' u u'

theorem abreast_of_run {moves moves' : List (Move Report)} (hmoves : List.Forall₂ Move.Alike moves moves')
    (h : Abreast s s' r r') {u u' : Crowd σ Report} (hu : r.run moves = some u) (hu' : r'.run moves' = some u') :
    Abreast s s' u u' := by
  induction hmoves generalizing r r' with
  | nil =>
    cases hu
    cases hu'
    exact h
  | cons hm _ ih =>
    obtain ⟨r₁, hr₁, hrun⟩ := Option.bind_eq_some_iff.1 hu
    obtain ⟨r₁', hr₁', hrun'⟩ := Option.bind_eq_some_iff.1 hu'
    exact ih (h.move hm hr₁ hr₁') hrun hrun'

theorem Twins.abreast (hs : s.Twins s') (h : Abreast s s' r r') : r.Twins r' := by
  induction h with
  | start => exact hs
  | move _ hm hu hu' ih =>
    have hstep := ih.step? hm.twins
    rw [hu, hu'] at hstep
    cases hstep with
    | some htwins => exact htwins
  | reorder _ hu hu' horder ih => exact ih.reordered hu hu' horder

/-- Two worlds with the same nodes on the same network, whose records differ in health and in moments only, and in which
the same is done but that other health may be recorded. At every moment both have told the same of all operations, have
asked for the same and got the same, with the same requests to the same targets; their stores agree on ids, names,
targets and samples; and what can be done next in one can be done in the other. -/
theorem health_never_shows {w w' : World σ} (hw : w.Twins w')
    (h : Abreast { world := w } { world := w' } r r') :
    r.tasks.map Task.value? = r'.tasks.map Task.value? ∧ List.Forall₂ Deed.Twins r.deeds r'.deeds ∧
      r.world.trace = r'.world.trace ∧ r.world.Twins r'.world ∧
      ∀ m m', m.Alike m' → (r.step? m).isSome = (r'.step? m').isSome := by
  have htwins : r.Twins r' := Twins.abreast ⟨hw, .nil, .nil⟩ h
  refine ⟨htwins.values, htwins.deeds, htwins.world.trace, htwins.world, fun m m' hm => ?_⟩
  have hstep := htwins.step? hm.twins
  generalize r.step? m = u, r'.step? m' = u' at hstep ⊢
  cases hstep with
  | none => rfl
  | some _ => rfl

end Crowd

/-- A node that has measured another and thinks something of its health. -/
def watch (health : Health) (changedAt date : Int64) : World ScriptedNetwork where
  members := [{
    profile := { name := "m", target := "m:1" }
    store := (({} : Store).putNode ⟨.ofTarget "b:1", "b", "b:1", health, changedAt⟩).putSample
      (.new "m" "b" .rttTotal "8" 7) }]
  network := ScriptedNetwork.setRoute {} "b:1" {}
  date

namespace watch

def begin (operation : Operation) : Crowd.Move Report := .start 0 (operation.report { name := "m", target := "m:1" })

/-- A joiner is let in while the other node is found to be in some health. Then samples are pushed to it, and a target
that does not listen is asked for a way into the mesh. -/
def run (health : Health) (date : Int64) : List (Crowd.Move Report) :=
  [begin (.serve (.joinMesh ⟨"n", "n:1"⟩)), begin (.setHealth (.ofTarget "b:1") health), .go 0, .wait 5 date, .go 1, .go 0,
    .go 1, .go 0, .go 0, begin (.push ⟨"b", "b:1"⟩), .go 2, .go 2, .go 2, .go 2, .go 2, .go 2, begin (.join ["x:1"]), .go 3,
    .go 3, .go 3, .go 3]

theorem twins (health health' : Health) (changedAt changedAt' date date' : Int64) :
    (watch health changedAt date).Twins (watch health' changedAt' date') := by
  have hface : (⟨.ofTarget "b:1", "b", "b:1", health, changedAt⟩ : Node).face =
      (⟨.ofTarget "b:1", "b", "b:1", health', changedAt'⟩ : Node).face := rfl
  exact .mk (.cons (.mk (((Store.Twins.refl {}).putNode hface).putSample _)) .nil)

theorem alike (health health' : Health) (date date' : Int64) :
    List.Forall₂ Crowd.Move.Alike (run health date) (run health' date') := by
  unfold run begin
  repeat' constructor

theorem told_alike :
    ∃ r r' s s', Crowd.run (run .warning 7) { world := watch .ok 3 5 } = some r ∧
      Crowd.run (run .ok 9) { world := watch .notOk 4 6 } = some r' ∧
      r.world.node? 0 = some ({ name := "m", target := "m:1" }, s) ∧
      r'.world.node? 0 = some ({ name := "m", target := "m:1" }, s') ∧
      s.nodes.map Node.health = [.warning, .ok] ∧ s'.nodes.map Node.health = [.ok, .ok] ∧
      r.Rests ∧ r.world.trace.length = 3 ∧ r.world.trace = r'.world.trace ∧
      r.tasks.map Task.value? = r'.tasks.map Task.value? := by
  obtain ⟨r, r', s, s', hr, hr', hs, hs', hhealth, hhealth', hrests, htrace⟩ :
      ∃ r r' s s', Crowd.run (run .warning 7) { world := watch .ok 3 5 } = some r ∧
        Crowd.run (run .ok 9) { world := watch .notOk 4 6 } = some r' ∧
        r.world.node? 0 = some ({ name := "m", target := "m:1" }, s) ∧
        r'.world.node? 0 = some ({ name := "m", target := "m:1" }, s') ∧
        s.nodes.map Node.health = [.warning, .ok] ∧ s'.nodes.map Node.health = [.ok, .ok] ∧
        r.tasks.all (fun t => t.value?.isSome) = true ∧ r.world.trace.length = 3 :=
    ⟨_, _, _, _, rfl, rfl, rfl, rfl, by decide +kernel, by decide +kernel, by decide +kernel, by decide +kernel⟩
  have habreast := Crowd.abreast_of_run (alike .warning .ok 7 9) .start hr hr'
  obtain ⟨hvalues, -, hsame, -, -⟩ := Crowd.health_never_shows (twins .ok .notOk 3 4 5 6) habreast
  exact ⟨r, r', s, s', hr, hr', hs, hs', hhealth, hhealth', Crowd.rests_iff.2 hrests, htrace, hsame, hvalues⟩

end watch

end PeerMesh
