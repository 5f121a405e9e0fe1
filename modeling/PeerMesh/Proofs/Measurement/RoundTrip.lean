import PeerMesh.Measurement.RoundTrip
import PeerMesh.Proofs.Connection.Caching
import PeerMesh.Proofs.Digest
import PeerMesh.Proofs.Store.Readings

/-!
# A round trip is measured wholly or not at all

* `World.replyInTime` : an answer that comes within the limit, and how long it takes;
* `World.exchange` : what one exchange with a target does on the network, and the two times of it;
* `World.exists_run_measure`, `World.run_recordRoundTrip` : a measurement makes that exchange, and a record of it is
  two observations and two samples;
* `World.rtt_all_or_nothing` : the round trip to a healthy node leaves both samples or none.
-/

namespace PeerMesh

theorem Timed.inTime_map {α β : Type} (x : Timed α) (limit : Duration) (f : α → β) :
    (⟨x.delay, f x.value⟩ : Timed β).inTime limit = (x.inTime limit).map fun y => (y.1, f y.2) := by
  unfold inTime
  cases x.delay with
  | none => rfl
  | some delay =>
    simp only [Option.bind_some]
    split
    · rfl
    · rfl

def Store.okNode? (s : Store) (choice : Nat) : Option Node :=
  (s.nodesIn .ok)[choice % (s.nodesIn .ok).length]?

theorem Store.drawNodes_one (s : Store) (choice : Nat) :
    s.drawNodes .ok 1 (fun _ => choice) = (s.okNode? choice).toList := by
  unfold drawNodes okNode? draw
  split
  · rename_i hnone
    rw [hnone]
    rfl
  · rename_i node hnode
    rw [hnode]
    rfl

theorem Store.exists_okNode? {s : Store} (h : s.nodesIn .ok ≠ []) (choice : Nat) :
    ∃ peer ∈ s.nodesIn .ok, s.okNode? choice = some peer := by
  have hpos : 0 < (s.nodesIn .ok).length := List.length_pos_iff.2 h
  have hlt := Nat.mod_lt choice hpos
  exact ⟨_, List.getElem_mem hlt, List.getElem?_eq_getElem hlt⟩

def Profile.keep (me : Profile) (peer : Node) (trip : RoundTrip) (now : Int64) (s : Store) : Store :=
  (s.putSample (me.roundTripSamples peer trip now).1).putSample (me.roundTripSamples peer trip now).2

namespace World

variable {σ : Type}

/-- An answer to a request for a round trip that comes within the limit. A member answers at once. -/
def replyInTime (w : World σ) (limit : Duration) : Reaction → Option (Duration × Except CallError Response)
  | .reply answer => answer.inTime limit
  | .serve j => some (.zero, heard .rtt (w.members[j]?.map fun _ => .empty))

structure Exchange (σ : Type) where
  network : σ
  /-- What was done, the first thing first. -/
  events : List Event
  /-- The times of an exchange that went well. -/
  trip : Option RoundTrip

/-- One exchange with a target: a dial, and if it succeeds in time one request and one close of the new channel. -/
def exchange [Network σ] (w : World σ) (me : Profile) (target : String) : Exchange σ :=
  let channel : Channel := ⟨w.dialed, target⟩
  let dial := .dial target me.security.isSecure .blocking
  let (opened, network) := Network.dial w.network channel me.security .blocking
  match opened.inTime me.limit with
  | some (connecting, .ok ()) =>
    let (reaction, network) := Network.call network channel .rtt
    { network := (Network.close network channel).2
      events := [dial, .call target .rtt, .close target]
      trip :=
        match w.replyInTime me.limit reaction with
        | some (answering, .ok .empty) => some ⟨connecting + answering, answering⟩
        | _ => none }
  | _ => { network, events := [dial], trip := none }

def passed (w : World σ) (network : σ) (i : Nat) (events : List Event) (elapsed : Nat) : World σ :=
  { w with network, trace := events.reverse.map (fun e => (i, e)) ++ w.trace, elapsed }

theorem waitUntil_passed (w : World σ) (network : σ) (i : Nat) (events : List Event) (delay : Nat) :
    (w.passed network i events w.elapsed).waitUntil (w.elapsed + delay) =
      w.passed network i events (w.elapsed + delay) := by
  unfold waitUntil passed
  simp only [Nat.max_eq_right (Nat.le_add_right w.elapsed delay)]

theorem deliver_rtt (w : World σ) (j : Nat) : w.deliver j .rtt = (w.members[j]?.map fun _ => .empty, w) := by
  unfold deliver
  cases hj : w.members[j]? with
  | none => rfl
  | some m =>
    have hmembers : (w.members.modify j fun y => { y with store := m.store }) = w.members := by
      apply List.ext_getElem?
      intro k
      rw [List.getElem?_modify]
      by_cases hk : j = k
      · rw [← hk, hj]
        simp
      · simp [hk]
    have hworld : (w.onMember j fun y => { y with store := m.store }).postpone j [] = w := by
      unfold onMember postpone
      rw [hmembers]
      simp
    exact congrArg (Prod.mk _) hworld

variable [Network σ]

theorem run_elapsed (w : World σ) (i : Nat) (ticket : Ticket) :
    Activity.elapsed.run (answer i ticket) w = (some w.elapsed, w) := run_now rfl rfl

def dialResult (w : World σ) (target : String) (security : Security) (limit : Duration) :
    Duration × Except DialError Channel :=
  match (Network.dial w.network ⟨w.dialed, target⟩ security .blocking).1.inTime limit with
  | some (connecting, result) => (connecting, result.map fun _ => ⟨w.dialed, target⟩)
  | none => (limit.wholeMillis, .error (.timeout target limit))

theorem run_dial_within (w : World σ) (i : Nat) (ticket : Ticket) (target : String) (security : Security)
    (limit : Duration) :
    (Activity.dial target security .blocking (some limit)).run (answer i ticket) w =
      (some (w.dialResult target security limit).2,
        { w.passed (Network.dial w.network ⟨w.dialed, target⟩ security .blocking).2 i
            [.dial target security.isSecure .blocking] (w.elapsed + (w.dialResult target security limit).1.nanos) with
          dialed := w.dialed + 1 }) := by
  have hperform : w.perform i ticket (.dial target security .blocking (some limit)) =
      (.ready (w.elapsed + (w.dialResult target security limit).1.nanos) (w.dialResult target security limit).2,
        { w.passed (Network.dial w.network ⟨w.dialed, target⟩ security .blocking).2 i
            [.dial target security.isSecure .blocking] w.elapsed with dialed := w.dialed + 1 }) := by
    simp only [perform, dial, note, outcome, dialResult, Timed.within_eq, Timed.inTime_map]
    cases (Network.dial w.network ⟨w.dialed, target⟩ security .blocking).1.inTime limit with
    | none => rfl
    | some x => rfl
  have hlater := w.waitUntil_passed (Network.dial w.network ⟨w.dialed, target⟩ security .blocking).2 i
    [.dial target security.isSecure .blocking] (w.dialResult target security limit).1.nanos
  exact (run_ready hperform).trans
    (congrArg (fun later : World σ => (some _, { later with dialed := w.dialed + 1 })) hlater)

def rttResult (w : World σ) (limit : Duration) (reaction : Reaction) : Duration × Except CallError Response :=
  (w.replyInTime limit reaction).getD (limit.wholeMillis, .error (.deadline .rtt limit))

theorem run_call_rtt (w : World σ) (i : Nat) (ticket : Ticket) (channel : Channel) (limit : Duration) :
    (Activity.call ⟨channel, limit⟩ .rtt).run (answer i ticket) w =
      (some (w.rttResult limit (Network.call w.network channel .rtt).1).2,
        w.passed (Network.call w.network channel .rtt).2 i [.call channel.target .rtt]
          (w.elapsed + (w.rttResult limit (Network.call w.network channel .rtt).1).1.nanos)) := by
  match hreaction : Network.call w.network channel .rtt with
  | (.serve j, n) =>
    rw [run_call_serve hreaction, deliver_rtt]
    rfl
  | (.reply reply, n) =>
    have hperform : w.perform i ticket (.call channel .rtt limit) =
        (.ready (w.elapsed + (w.rttResult limit (.reply reply)).1.nanos) (w.rttResult limit (.reply reply)).2,
          w.passed n i [.call channel.target .rtt] w.elapsed) := by
      simp only [perform, call, note, hreaction, outcome, rttResult, replyInTime, Timed.within_eq]
      cases reply.inTime limit with
      | none => rfl
      | some x => rfl
    have hlater := w.waitUntil_passed n i [.call channel.target .rtt] (w.rttResult limit (.reply reply)).1.nanos
    exact (run_ready hperform).trans (congrArg (Prod.mk _) hlater)

theorem exists_run_request (w : World σ) (i : Nat) (ticket : Ticket) (channel : Channel) (limit : Duration) (start : Nat) :
    ∃ result elapsed,
      (do
        let ready ← Activity.elapsed
        let answer ← Activity.callEmpty ⟨channel, limit⟩ .rtt
        let stop ← Activity.elapsed
        let _ ← Activity.close channel
        pure (answer.map fun _ => RoundTrip.ofReadings start ready stop) :
          Activity (Except PeerError RoundTrip)).run (answer i ticket) w =
        (some result, w.passed (Network.close (Network.call w.network channel .rtt).2 channel).2 i
          [.call channel.target .rtt, .close channel.target] elapsed) ∧
      result.toOption =
        match w.replyInTime limit (Network.call w.network channel .rtt).1 with
        | some (answering, .ok .empty) => some ⟨.between start (w.elapsed + answering.nanos), answering⟩
        | _ => none := by
  have hcall := run_call_rtt w i ticket channel limit
  have hempty : ∀ {reply w'}, (Activity.call ⟨channel, limit⟩ .rtt).run (answer i ticket) w = (some reply, w') →
      (Activity.callEmpty ⟨channel, limit⟩ .rtt).run (answer i ticket) w =
        (some (Client.empty channel.target .rtt reply), w') := fun h => Activity.run_bind h _
  rw [Activity.run_bind (run_elapsed w i ticket), Activity.run_bind (hempty hcall),
    Activity.run_bind (run_elapsed _ i ticket), Activity.run_bind (run_close _ i ticket channel)]
  refine ⟨_, _, rfl, ?_⟩
  unfold rttResult
  match w.replyInTime limit (Network.call w.network channel .rtt).1 with
  | none => rfl
  | some (answering, .error e) => rfl
  | some (answering, .ok (.joinMesh reply)) => rfl
  | some (answering, .ok (.failure text)) => rfl
  | some (answering, .ok .empty) =>
    have hrequest : Duration.between w.elapsed (w.elapsed + answering.nanos) = answering := by
      simp [Duration.between]
    show some (RoundTrip.ofReadings start w.elapsed (w.elapsed + answering.nanos)) = _
    unfold RoundTrip.ofReadings
    rw [hrequest]

theorem exists_run_measure (w : World σ) (i : Nat) (ticket : Ticket) (me : Profile) (target : String) :
    ∃ result elapsed, (me.measure target).run (answer i ticket) w =
        (some result, { w.passed (w.exchange me target).network i (w.exchange me target).events elapsed with
          dialed := w.dialed + 1 }) ∧
      result.toOption = (w.exchange me target).trip := by
  unfold Profile.measure exchange
  rw [Activity.run_bind (run_elapsed w i ticket)]
  have hdial := run_dial_within w i ticket target me.security me.limit
  unfold dialResult at hdial
  simp only
  match hopened : (Network.dial w.network ⟨w.dialed, target⟩ me.security .blocking).1.inTime me.limit with
  | none =>
    rw [hopened] at hdial
    rw [Activity.run_bind hdial]
    exact ⟨_, _, rfl, rfl⟩
  | some (connecting, .error e) =>
    rw [hopened] at hdial
    rw [Activity.run_bind hdial]
    exact ⟨_, _, rfl, rfl⟩
  | some (connecting, .ok ()) =>
    rw [hopened] at hdial
    rw [Activity.run_bind hdial]
    obtain ⟨result, elapsed, hrun, hresult⟩ := exists_run_request
      { w.passed (Network.dial w.network ⟨w.dialed, target⟩ me.security .blocking).2 i
          [.dial target me.security.isSecure .blocking] (w.elapsed + connecting.nanos) with dialed := w.dialed + 1 }
      i ticket ⟨w.dialed, target⟩ me.limit w.elapsed
    refine ⟨result, elapsed, hrun.trans ?_, hresult.trans ?_⟩
    · simp [passed]
    · have htotal : ∀ answering : Duration,
          Duration.between w.elapsed (w.elapsed + connecting.nanos + answering.nanos) = connecting + answering := by
        intro answering
        unfold Duration.between
        rw [Nat.add_assoc, Nat.add_sub_cancel_left]
        rfl
      show (match w.replyInTime me.limit _ with
        | some (answering, .ok .empty) =>
          some (RoundTrip.mk (.between w.elapsed (w.elapsed + connecting.nanos + answering.nanos)) answering)
        | _ => none) = _
      simp only [htotal]
      rfl

theorem run_recordRoundTrip {w : World σ} {i : Nat} {x : Member} (hi : w.members[i]? = some x) (ticket : Ticket)
    (me : Profile) (peer : Node) (trip : RoundTrip) :
    (me.recordRoundTrip peer trip).run (answer i ticket) w =
      (some (), (w.passed w.network i [.observe ⟨.rttTotal, peer.name, trip.total.seconds⟩,
        .observe ⟨.rttRequest, peer.name, trip.request.seconds⟩] w.elapsed).onMember i fun x =>
          { x with store := me.keep peer trip w.date x.store }) := by
  have hobserve : ∀ (w : World σ) o, (Activity.observe o).run (answer i ticket) w = (some (), w.note i (.observe o)) :=
    fun w o => run_now rfl rfl
  have hdate : ∀ w : World σ, Activity.date.run (answer i ticket) w = (some w.date, w) := fun w => run_now rfl rfl
  have hi₁ : ((w.note i (.observe ⟨.rttTotal, peer.name, trip.total.seconds⟩)).note i
      (.observe ⟨.rttRequest, peer.name, trip.request.seconds⟩)).members[i]? = some x := hi
  unfold Profile.recordRoundTrip
  rw [Activity.run_bind (hobserve _ _), Activity.run_bind (hobserve _ _), Activity.run_bind (hdate _)]
  simp only
  rw [Activity.run_bind (run_onStore hi₁ ticket _)]
  refine (run_onStore (getElem?_onMember_self hi₁ _) ticket _).trans ?_
  unfold onMember passed note
  simp only [List.modify_modify_eq]
  rfl

theorem run_choice {w : World σ} {i : Nat} {x : Member} (hi : w.members[i]? = some x) (ticket : Ticket) (choice : Nat) :
    (Activity.readStore fun s => s.drawNodes .ok 1 fun _ => choice).run (answer i ticket) w =
      (some (x.store.okNode? choice).toList, w) := by
  rw [← Store.drawNodes_one]
  exact run_readStore hi ticket _

theorem run_draw (w : World σ) (i : Nat) (ticket : Ticket) :
    Activity.draw.run (answer i ticket) w = (some (w.chance w.drawn), { w with drawn := w.drawn + 1 }) :=
  run_now rfl rfl

theorem run_rtt_of_none {w : World σ} {i : Nat} {x : Member} (hi : w.members[i]? = some x) (me : Profile)
    (hnone : x.store.okNode? (w.chance w.drawn) = none) :
    w.run i me.rtt = (some (), { w with tickets := w.tickets + 1, drawn := w.drawn + 1 }) := by
  have hi₁ : ({ w with tickets := w.tickets + 1, drawn := w.drawn + 1 } : World σ).members[i]? = some x := hi
  have hchoice := run_choice hi₁ ⟨w.tickets⟩ (w.chance w.drawn)
  rw [hnone] at hchoice
  unfold run Profile.rtt
  rw [Activity.run_bind (run_draw _ _ _), Activity.run_bind hchoice]
  rfl

/-- The round trip to a healthy node: one exchange, and a record of its times if there are any. -/
theorem exists_run_rtt {w : World σ} {i : Nat} {x : Member} (hi : w.members[i]? = some x) (me : Profile) {peer : Node}
    (hpeer : x.store.okNode? (w.chance w.drawn) = some peer) :
    ∃ elapsed, w.run i me.rtt = (some (),
      let exchanged := { w.passed (w.exchange me peer.target).network i (w.exchange me peer.target).events elapsed with
        dialed := w.dialed + 1, tickets := w.tickets + 1, drawn := w.drawn + 1 }
      match (w.exchange me peer.target).trip with
      | none => exchanged
      | some trip =>
        (exchanged.passed exchanged.network i [.observe ⟨.rttTotal, peer.name, trip.total.seconds⟩,
          .observe ⟨.rttRequest, peer.name, trip.request.seconds⟩] exchanged.elapsed).onMember i fun x =>
            { x with store := me.keep peer trip w.date x.store }) := by
  have hi₁ : ({ w with tickets := w.tickets + 1, drawn := w.drawn + 1 } : World σ).members[i]? = some x := hi
  have hchoice := run_choice hi₁ ⟨w.tickets⟩ (w.chance w.drawn)
  obtain ⟨result, elapsed, hmeasure, hresult⟩ := exists_run_measure
    { w with tickets := w.tickets + 1, drawn := w.drawn + 1 } i ⟨w.tickets⟩ me peer.target
  have hexchange : ({ w with tickets := w.tickets + 1, drawn := w.drawn + 1 } : World σ).exchange me peer.target =
      w.exchange me peer.target := rfl
  rw [hpeer] at hchoice
  rw [hexchange] at hmeasure hresult
  refine ⟨elapsed, ?_⟩
  unfold run Profile.rtt
  rw [Activity.run_bind (run_draw _ _ _), Activity.run_bind hchoice]
  simp only [Option.toList_some]
  rw [Activity.run_bind hmeasure, ← hresult]
  cases result with
  | error e => rfl
  | ok trip =>
    have hexchanged : ({ w.passed (w.exchange me peer.target).network i (w.exchange me peer.target).events elapsed with
        dialed := w.dialed + 1, tickets := w.tickets + 1, drawn := w.drawn + 1 } : World σ).members[i]? = some x := hi
    exact run_recordRoundTrip hexchanged ⟨w.tickets⟩ me peer trip

/-- The times of an exchange: the whole takes no less than its request. -/
theorem request_le_total {w : World σ} {me : Profile} {target : String} {trip : RoundTrip}
    (h : (w.exchange me target).trip = some trip) : trip.request ≤ trip.total := by
  have hsum : ∀ connecting answering : Duration, answering ≤ connecting + answering :=
    fun connecting answering => Nat.le_add_left answering.nanos connecting.nanos
  unfold exchange at h
  simp only at h
  split at h
  · simp only at h
    split at h
    · cases h
      exact hsum _ _
    · cases h
  · cases h

/-- A round trip to a healthy node is recorded wholly or not at all. Whoever knows of no healthy node does nothing. -/
theorem rtt_all_or_nothing (w : World σ) {i : Nat} {x : Member} (hi : w.members[i]? = some x) (me : Profile) :
    ∃ w' y, w.run i me.rtt = (some (), w') ∧ w'.members[i]? = some y ∧
      y.profile = x.profile ∧ y.pool = x.pool ∧ y.store.nodeTable = x.store.nodeTable ∧
      (∀ j, j ≠ i → w'.members[j]? = w.members[j]?) ∧ w'.outbox = w.outbox ∧
      (x.store.nodesIn .ok = [] →
        y.store = x.store ∧ w'.trace = w.trace ∧ w'.network = w.network ∧ w'.dialed = w.dialed) ∧
      (x.store.nodesIn .ok ≠ [] → ∃ peer ∈ x.store.nodesIn .ok, x.store.okNode? (w.chance w.drawn) = some peer ∧
        w'.network = (w.exchange me peer.target).network ∧ w'.dialed = w.dialed + 1 ∧
        ((w.exchange me peer.target).trip = none →
          y.store = x.store ∧
          w'.trace = (w.exchange me peer.target).events.reverse.map (fun e => (i, e)) ++ w.trace) ∧
        ∀ trip, (w.exchange me peer.target).trip = some trip →
          let total : Sample := .new me.name peer.name .rttTotal (toString trip.total.nanos) w.date
          let request : Sample := .new me.name peer.name .rttRequest (toString trip.request.nanos) w.date
          trip.request ≤ trip.total ∧ total.id ≠ request.id ∧
          (∀ id, y.store.sample? id =
            if id = request.id then some request else if id = total.id then some total else x.store.sample? id) ∧
          w'.trace = (i, .observe ⟨.rttRequest, peer.name, trip.request.seconds⟩) ::
            (i, .observe ⟨.rttTotal, peer.name, trip.total.seconds⟩) ::
            ((w.exchange me peer.target).events.reverse.map (fun e => (i, e)) ++ w.trace)) := by
  by_cases hok : x.store.nodesIn .ok = []
  · have hnone : x.store.okNode? (w.chance w.drawn) = none := by
      unfold Store.okNode?
      rw [hok]
      rfl
    refine ⟨_, x, run_rtt_of_none hi me hnone, hi, rfl, rfl, rfl, fun j _ => rfl, rfl, fun _ => ?_, fun h => absurd hok h⟩
    exact ⟨rfl, rfl, rfl, rfl⟩
  · obtain ⟨peer, hmem, hpeer⟩ := x.store.exists_okNode? hok (w.chance w.drawn)
    obtain ⟨elapsed, hrun⟩ := exists_run_rtt hi me hpeer
    cases htrip : (w.exchange me peer.target).trip with
    | none =>
      rw [htrip] at hrun
      refine ⟨_, x, hrun, hi, rfl, rfl, rfl, fun j _ => rfl, rfl, fun h => absurd h hok, fun _ =>
        ⟨peer, hmem, hpeer, rfl, rfl, fun _ => ⟨rfl, rfl⟩, fun trip h => ?_⟩⟩
      rw [htrip] at h
      cases h
    | some trip =>
      rw [htrip] at hrun
      have hids : ∀ value value',
          (Sample.new me.name peer.name .rttTotal value w.date).id ≠
            (Sample.new me.name peer.name .rttRequest value' w.date).id :=
        fun _ _ => SampleId.ofEdge_ne me.name peer.name (show SampleKind.rttTotal ≠ .rttRequest by decide)
      refine ⟨_, _, hrun, getElem?_onMember_self hi _, rfl, rfl, rfl, fun j hj => ?_, rfl, fun h => absurd h hok,
        fun _ => ⟨peer, hmem, hpeer, rfl, rfl, fun h => ?_, fun trip' h => ?_⟩⟩
      · rw [getElem?_onMember]
        simp [Ne.symm hj, passed]
      · rw [htrip] at h
        cases h
      · cases htrip.symm.trans h
        refine ⟨request_le_total htrip, hids _ _, fun id => ?_, ?_⟩
        · show (me.keep peer trip w.date x.store).sample? id = _
          unfold Profile.keep
          rw [Store.sample?_putSample, Store.sample?_putSample]
          rfl
        · simp [passed, onMember]

end World

/-- A node that knows of one peer, which takes five milliseconds to accept a dial and three to answer. -/
def steady : World ScriptedNetwork where
  members := [{ profile := { name := "a", target := "a:1" }, store := Store.putNode {} (.new "b" "b:1" .ok) }]
  network := ScriptedNetwork.setRoute {} "b:1"
    { dials := ⟨[⟨some (.ofMillis 5), .ok ()⟩]⟩, calls := ⟨[⟨some (.ofMillis 3), .respond .empty⟩]⟩ }
  date := 7

theorem steady_rtt :
    ∃ w' y, steady.run 0 (Profile.rtt { name := "a", target := "a:1" }) = (some (), w') ∧ w'.members[0]? = some y ∧
      y.store.sample? (.ofEdge "a" "b" .rttTotal) = some (.new "a" "b" .rttTotal "8000000" 7) ∧
      y.store.sample? (.ofEdge "a" "b" .rttRequest) = some (.new "a" "b" .rttRequest "3000000" 7) ∧
      w'.trace.length = 5 := by
  obtain ⟨w', y, hrun, hy, -, -, -, -, -, -, hok⟩ :=
    World.rtt_all_or_nothing steady (i := 0) rfl { name := "a", target := "a:1" }
  have hpeer : (Store.putNode {} (.new "b" "b:1" .ok)).okNode? (steady.chance steady.drawn) = some (.new "b" "b:1" .ok) :=
    rfl
  obtain ⟨peer, -, hchosen, -, -, -, htrip⟩ := hok (by decide)
  cases hchosen.symm.trans hpeer
  obtain ⟨-, hne, hsample, htrace⟩ := htrip ⟨.ofMillis 8, .ofMillis 3⟩ rfl
  refine ⟨w', y, hrun, hy, ?_, ?_, ?_⟩
  · exact (hsample _).trans ((if_neg hne).trans (if_pos rfl))
  · exact (hsample _).trans (if_pos rfl)
  · rw [htrace]
    rfl

end PeerMesh
