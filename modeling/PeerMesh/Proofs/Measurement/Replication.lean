import PeerMesh.Membership.Spreading
import PeerMesh.Proofs.Connection.Asking
import PeerMesh.Proofs.Store.Readings
import PeerMesh.Proofs.World.Stores
import PeerMesh.World.Shared

/-!
# A push replicates the samples of a node

A node sends all its samples to a peer in one request. The peer makes records of the readings again, and keeps its own
measurements.

* `Store.Replicated` : a store that has taken in the samples of another one, but for those of one source;
* `Profile.replicated_takeOver` : taking over all readings of a store comes to that, whatever was there before;
* `Profile.takeOver_of_held` : readings that are there already change nothing;
* `World.Leads` : a client that a node obtains for a peer calls a certain member. So it is on a shared network with the
  member that has the peer's target (`World.leads_of_reach`);
* `World.exists_run_offer` : readings are sent to a peer, and what becomes of all stores;
* `World.push_replicates` : what a push asks of the network, and what it leaves in every store.
-/

namespace PeerMesh

/-- The store `after` is what became of `t` when it took in all samples of `s` but those with the given source. -/
structure Store.Replicated (s t after : Store) (source : String) : Prop where
  nodeTable : after.nodeTable = t.nodeTable
  sample? : ∀ id, after.sample? id = ((s.sample? id).filter fun x => x.source ≠ source).or (t.sample? id)

namespace Profile

theorem takeOver_of_held {me : Profile} {readings : List Reading} {s : Store}
    (h : ∀ r ∈ readings, r.source ≠ me.name → s.sample? (Sample.ofReading r).id = some (.ofReading r)) :
    me.takeOver readings s = s := by
  have hput : ∀ readings : List Reading,
      (∀ r ∈ readings, s.sample? (Sample.ofReading r).id = some (.ofReading r)) → s.putReadings readings = s := by
    intro readings
    induction readings with
    | nil => exact fun _ => rfl
    | cons r readings ih =>
      intro h
      rw [Store.putReadings_cons, Store.putSample_of_sample? (h r List.mem_cons_self)]
      exact ih fun r hr => h r (List.mem_cons_of_mem _ hr)
  rw [takeOver_eq]
  apply hput
  intro r hr
  obtain ⟨hr, hsource⟩ := List.mem_filter.1 hr
  exact h r hr (of_decide_eq_true hsource)

theorem find?_readings {s : Store} (hs : s.Measured) (source : String) (id : SampleId) :
    (((s.samples.map Sample.toReading).filter fun r => r.source ≠ source).reverse.find? fun r =>
        (Sample.ofReading r).id = id).map Sample.ofReading = (s.sample? id).filter fun x => x.source ≠ source := by
  have hmem : ∀ r, r ∈ ((s.samples.map Sample.toReading).filter fun r => r.source ≠ source).reverse ↔
      r.source ≠ source ∧ s.sample? (Sample.ofReading r).id = some (.ofReading r) := by
    intro r
    rw [List.mem_reverse, List.mem_filter, List.mem_map, decide_eq_true_eq, and_comm]
    refine and_congr_right fun _ => ⟨?_, ?_⟩
    · rintro ⟨x, hx, rfl⟩
      obtain ⟨k, hk⟩ := Store.mem_samples.1 hx
      obtain ⟨hof, hid⟩ := hs k x hk
      rw [← hof, hid]
      exact hk
    · intro h
      exact ⟨_, Store.mem_samples.2 ⟨_, h⟩, rfl⟩
  cases hf : ((s.samples.map Sample.toReading).filter fun r => r.source ≠ source).reverse.find? fun r =>
      (Sample.ofReading r).id = id with
  | some r =>
    obtain ⟨hsource, hr⟩ := (hmem r).1 (List.mem_of_find?_eq_some hf)
    have hid : (Sample.ofReading r).id = id := by simpa using List.find?_some hf
    have hforeign : (Sample.ofReading r).source ≠ source := hsource
    rw [← hid, hr, Option.map_some, Option.filter_some, if_pos (decide_eq_true hforeign)]
  | none =>
    symm
    rw [Option.map_none, Option.filter_eq_none_iff]
    intro x hx hsource
    obtain ⟨hof, hid⟩ := hs id x hx
    rw [hof] at hid
    have hr : s.sample? (Sample.ofReading x.toReading).id = some (.ofReading x.toReading) := by
      rw [hid, ← hof]
      exact hx
    exact List.find?_eq_none.1 hf _ ((hmem _).2 ⟨of_decide_eq_true hsource, hr⟩) (decide_eq_true hid)

/-- Whoever takes over all readings of a store has its samples, but for those that it would have measured itself. -/
theorem replicated_takeOver {s : Store} (hs : s.Measured) (me : Profile) (t : Store) :
    s.Replicated t (me.takeOver (s.samples.map Sample.toReading) t) me.name where
  nodeTable := me.nodeTable_takeOver _ t
  sample? id := by rw [takeOver_eq, Store.sample?_putReadings, find?_readings hs]

def offer (me : Profile) (peer : Peer) (readings : List Reading) : Activity (Except PeerError Unit) := do
  match ← me.obtain peer with
  | .error e => pure (.error e)
  | .ok client => Activity.callEmpty client (.pushSamples readings)

end Profile

namespace World

variable {σ : Type} [Network σ]

/-- A client that a member obtains for a peer gives the request to the member `j`. -/
def Leads (w : World σ) (i : Nat) (me : Profile) (peer : Peer) (request : Request) (j : Nat) : Prop :=
  ∀ client w₁, (me.obtain peer).run (answer i ⟨w.tickets⟩) { w with tickets := w.tickets + 1 } = (some (.ok client), w₁) →
    (Network.call w₁.network client.channel request).1 = .serve j

variable {w : World σ} {i j : Nat} {me you : Profile} {s t : Store} {peer : Peer}

theorem run_push (hi : w.node? i = some (me, s)) (peer : Peer) :
    w.run i (me.push peer) =
      if s.samples = [] then (some (.ok ()), { w with tickets := w.tickets + 1 })
      else w.run i (me.offer peer (s.samples.map Sample.toReading)) := by
  obtain ⟨x, hx, hxs⟩ := Option.map_eq_some_iff.1 hi
  cases hxs
  have hx' : ({ w with tickets := w.tickets + 1 } : World σ).members[i]? = some x := hx
  unfold run Profile.push
  rw [Activity.run_bind (run_readStore hx' _ _)]
  cases x.store.samples with
  | nil => rfl
  | cons first rest => rfl

/-- Readings are offered to a peer that leads to the member `j`. No client is obtained and no store changes, or the one
request is served. -/
theorem exists_run_offer {readings : List Reading} (hi : w.node? i = some (me, s)) (hj : w.node? j = some (you, t))
    (hleads : w.Leads i me peer (.pushSamples readings) j) :
    ∃ result w' dials, w.run i (me.offer peer readings) = (result, w') ∧
      (dials = [] ∨ dials = [.dial peer.target me.security.isSecure .lazy]) ∧
      ((result ≠ some (.ok ()) ∧ ∀ k, w'.node? k = w.node? k) ∨
        ∃ target, result = some (.ok ()) ∧
          w'.trace = (i, .call target (.pushSamples readings)) :: (dials.map (fun e => (i, e)) ++ w.trace) ∧
          ∀ k, w'.node? k = if k = j then some (you, you.takeOver readings t) else w.node? k) := by
  obtain ⟨x, hx, hxs⟩ := Option.map_eq_some_iff.1 hi
  cases hxs
  have hx' : ({ w with tickets := w.tickets + 1 } : World σ).members[i]? = some x := hx
  obtain ⟨result, w₁, dials, y, hobtain, hdials, htrace, -⟩ := exists_run_obtain_any hx' x.profile peer ⟨w.tickets⟩
  have hnode : ∀ k, w₁.node? k = w.node? k := by
    intro k
    have hstoreless := (x.profile.only_obtain peer).mono fun e he => he.storeless
    have hquiet := node?_run_of_only hstoreless { w with tickets := w.tickets + 1 } i ⟨w.tickets⟩ k
    rw [hobtain] at hquiet
    exact hquiet
  unfold run Profile.offer
  cases result with
  | none => exact ⟨none, w₁, dials, Activity.run_bind_never hobtain _, hdials, Or.inl ⟨nofun, hnode⟩⟩
  | some result =>
    cases result with
    | error e => exact ⟨_, w₁, dials, Activity.run_bind hobtain _, hdials, Or.inl ⟨nofun, hnode⟩⟩
    | ok client =>
      have hserve := hleads client w₁ hobtain
      obtain ⟨reaction, n, hcall⟩ : ∃ reaction n,
          Network.call w₁.network client.channel (.pushSamples readings) = (reaction, n) := ⟨_, _, rfl⟩
      rw [hcall] at hserve
      cases hserve
      have hj₁ : w₁.node? j = some (you, t) := (hnode j).trans hj
      have hanswer : (w₁.deliver j (.pushSamples readings)).1 = some .empty := by
        obtain ⟨y, hy, -⟩ := Option.map_eq_some_iff.1 hj₁
        unfold deliver
        rw [hy]
        rfl
      have hrun := run_call_serve hcall i ⟨w.tickets⟩
      rw [hanswer] at hrun
      refine ⟨_, _, dials, (Activity.run_bind hobtain _).trans (Activity.run_bind hrun _), hdials, Or.inr ?_⟩
      refine ⟨client.target, rfl, ?_, fun k => ?_⟩
      · show (_ :: w₁.trace) = _
        rw [htrace]
      · show (w₁.deliver j _).2.node? k = _
        by_cases hk : k = j
        · subst hk
          have haltered := altered_deliver w₁ k (.pushSamples readings)
          unfold Altered at haltered
          rw [haltered, hj₁, if_pos rfl]
          rfl
        · rw [node?_deliver_of_ne w₁ hk, hnode, if_neg hk]

theorem leads_of_reach {w : World SharedNetwork} {i j : Nat} {x : Member} (hi : w.members[i]? = some x) (me : Profile)
    {peer : Peer} (hpool : x.pool.Open peer) (hreach : w.network.reach peer.target = some j) (request : Request) :
    w.Leads i me peer request j := by
  intro client w₁ hrun
  have hi' : ({ w with tickets := w.tickets + 1 } : World SharedNetwork).members[i]? = some x := hi
  obtain ⟨client', w', hobtain, htarget, halike⟩ := exists_run_obtain hi' me hpool ⟨w.tickets⟩
  cases hrun.symm.trans hobtain
  have hnetwork : w₁.network.reach client.channel.target = some j := by
    rw [halike.network]
    exact (congrArg w.network.reach htarget).trans hreach
  simp only [Network.call, hnetwork]

/-- A push that goes well to a peer that leads to the member `j`. Whoever has no samples asks nothing of the network.
Otherwise one request with every sample once is sent, and the member has them all but those of its own name; nothing else
changes, and a second push changes nothing at all. -/
theorem push_replicates (hi : w.node? i = some (me, s)) (hj : w.node? j = some (you, t)) (hs : s.Measured)
    (hleads : w.Leads i me peer (.pushSamples (s.samples.map Sample.toReading)) j) {w' : World σ}
    (hrun : w.run i (me.push peer) = (some (.ok ()), w')) :
    (s.samples = [] ∧ w'.trace = w.trace ∨
      s.samples ≠ [] ∧ ∃ readings target dials,
        w'.trace = (i, .call target (.pushSamples readings)) :: (dials.map (fun e => (i, e)) ++ w.trace) ∧
        (dials = [] ∨ dials = [.dial peer.target me.security.isSecure .lazy]) ∧
        (readings.map Sample.ofReading).Nodup ∧
        ∀ x, x ∈ readings.map Sample.ofReading ↔ ∃ id, s.sample? id = some x) ∧
    (∃ after, w'.node? j = some (you, after) ∧ s.Replicated t after you.name) ∧
    (∀ k, k ≠ j → w'.node? k = w.node? k) ∧ w'.node? i = w.node? i ∧
    (w'.Leads i me peer (.pushSamples (s.samples.map Sample.toReading)) j →
      ∀ k, (w'.run i (me.push peer)).2.node? k = w'.node? k) := by
  rw [run_push hi] at hrun
  by_cases hnone : s.samples = []
  · rw [if_pos hnone] at hrun
    cases hrun
    have hreplicated := Profile.replicated_takeOver hs you t
    rw [hnone] at hreplicated
    refine ⟨Or.inl ⟨hnone, rfl⟩, ⟨t, hj, hreplicated⟩, fun _ _ => rfl, rfl, fun _ k => ?_⟩
    have hi' : ({ w with tickets := w.tickets + 1 } : World σ).node? i = some (me, s) := hi
    rw [run_push hi', if_pos hnone]
    rfl
  · rw [if_neg hnone] at hrun
    obtain ⟨result, w₁, dials, hoffer, hdials, hout⟩ := exists_run_offer hi hj hleads
    cases hrun.symm.trans hoffer
    rcases hout with ⟨herror, -⟩ | ⟨target, -, htrace, hnode⟩
    · exact absurd rfl herror
    have hreplicated := Profile.replicated_takeOver hs you t
    have hheld : you.takeOver (s.samples.map Sample.toReading)
        (you.takeOver (s.samples.map Sample.toReading) t) = you.takeOver (s.samples.map Sample.toReading) t := by
      apply Profile.takeOver_of_held
      intro r hr hsource
      obtain ⟨x, hx, rfl⟩ := List.mem_map.1 hr
      obtain ⟨id, hid⟩ := Store.mem_samples.1 hx
      obtain ⟨hof, hxid⟩ := hs id x hid
      rw [← hof, hxid, hreplicated.sample?, hid, Option.filter_some, if_pos (decide_eq_true hsource)]
      rfl
    have hself : w'.node? i = some (me, s) := by
      rw [hnode]
      split
      · -- a node that pushes to itself has it all already
        rename_i hij
        subst hij
        cases hi.symm.trans hj
        have hsame : me.takeOver (s.samples.map Sample.toReading) s = s := by
          apply Profile.takeOver_of_held
          intro r hr _
          obtain ⟨x, hx, rfl⟩ := List.mem_map.1 hr
          obtain ⟨id, hid⟩ := Store.mem_samples.1 hx
          obtain ⟨hof, hxid⟩ := hs id x hid
          rw [← hof, hxid]
          exact hid
        rw [hsame]
      · exact hi
    have hj' := (hnode j).trans (if_pos rfl)
    refine ⟨Or.inr ⟨hnone, _, target, dials, htrace, hdials, ?_, fun x => ?_⟩, ⟨_, hj', hreplicated⟩,
      fun k hk => (hnode k).trans (if_neg hk), hself.trans hi.symm, fun hleads' k => ?_⟩
    · rw [hs.map_ofReading]
      exact hs.nodup_samples
    · rw [hs.map_ofReading]
      exact Store.mem_samples
    · rw [run_push hself, if_neg hnone]
      obtain ⟨result, w₂, dials', hoffer', -, hout'⟩ := exists_run_offer hself hj' hleads'
      rw [hoffer']
      rcases hout' with ⟨-, hnode'⟩ | ⟨target', -, -, hnode'⟩
      · exact hnode' k
      · rw [hnode' k, hheld]
        split
        · rename_i hk
          rw [hk, hj']
        · rfl

end World

/-- Two nodes. The first one has a sample of its own, one that the second took, and one of a third node. -/
def partners : World SharedNetwork where
  members := [
    { profile := { name := "a", target := "a:1" }
      store := (((Store.putSample {} (.new "a" "b" .rttTotal "10" 1)).putSample (.new "b" "a" .rttTotal "20" 2)).putSample
        (.new "c" "a" .rttTotal "30" 3)) },
    { profile := { name := "b", target := "b:1" }, store := Store.putSample {} (.new "b" "a" .rttTotal "40" 4) }]
  network := { targets := ["a:1", "b:1"] }

theorem partners_push :
    ∃ w' after, partners.run 0 (Profile.push { name := "a", target := "a:1" } ⟨"b", "b:1"⟩) = (some (.ok ()), w') ∧
      w'.node? 1 = some ({ name := "b", target := "b:1" }, after) ∧
      after.sample? (.ofEdge "a" "b" .rttTotal) = some (.new "a" "b" .rttTotal "10" 1) ∧
      after.sample? (.ofEdge "b" "a" .rttTotal) = some (.new "b" "a" .rttTotal "40" 4) ∧
      after.sample? (.ofEdge "c" "a" .rttTotal) = some (.new "c" "a" .rttTotal "30" 3) ∧ w'.trace.length = 2 := by
  have hleads : ∀ request, partners.Leads 0 { name := "a", target := "a:1" } ⟨"b", "b:1"⟩ request 1 :=
    World.leads_of_reach rfl _ (Or.inl rfl) rfl
  obtain ⟨w', hrun⟩ : ∃ w', partners.run 0 (Profile.push { name := "a", target := "a:1" } ⟨"b", "b:1"⟩) =
      (some (.ok ()), w') := ⟨_, rfl⟩
  have hmeasured := ((Store.Measured.empty.putSample ⟨"a", "b", .rttTotal, "10", 1⟩).putSample
    ⟨"b", "a", .rttTotal, "20", 2⟩).putSample ⟨"c", "a", .rttTotal, "30", 3⟩
  obtain ⟨htrace, ⟨after, hafter, hreplicated⟩, -⟩ := World.push_replicates rfl rfl hmeasured (hleads _) hrun
  refine ⟨w', after, hrun, hafter, ?_, ?_, ?_, ?_⟩
  · rw [hreplicated.sample?]
    decide
  · rw [hreplicated.sample?]
    decide
  · rw [hreplicated.sample?]
    decide
  · cases hrun
    rfl

end PeerMesh
