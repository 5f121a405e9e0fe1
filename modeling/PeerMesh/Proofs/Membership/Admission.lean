import PeerMesh.Proofs.Connection.Stages
import PeerMesh.Proofs.Membership.Names
import PeerMesh.Proofs.World.Schedule
import PeerMesh.World.Scripted

/-!
# What one attempt to join comes to

A joiner is refused, or its record is put in and it gets the whole table. Then every node of the table is told of it, but
for the joiner and the answering node itself.

* `Store.ListsEach` : a list with one entry for each known id whose record has a property;
* `Profile.Admission` : the answer to a joiner, the store after it and the announcements that come of it;
* `Profile.admission` : `answerJoin` gives just that;
* `Activity.OneCall`, `Profile.oneCall_announce` : an announcement makes one call at most, whatever goes on around it;
* `World.TriesOnce`, `World.triesOnce` : it makes that call if there is a client, which is one for the listener;
* `World.trace_announce_of_client`, `World.trace_announce_of_none` : what that comes to, with a client in the pool and
  without one;
* `World.join_served` : the answer and the announcements of a node that serves an attempt to join, on every network.
-/

namespace PeerMesh

/-! ## The answer -/

/-- The list has one entry for each known id whose record has a property, made of the record. -/
def Store.ListsEach {α : Type} (s : Store) (P : Node → Prop) (f : Node → α) (xs : List α) : Prop :=
  ∃ ids : List NodeId, ids.Nodup ∧ (∀ id, id ∈ ids ↔ ∃ n, s.node? id = some n ∧ P n) ∧
    xs.map some = ids.map fun id => (s.node? id).map f

theorem Store.listsEach_filter {α : Type} (s : Store) {P : Node → Prop} {p : Node → Bool} (hp : ∀ n, p n = true ↔ P n)
    (f : Node → α) : s.ListsEach P f ((s.nodes.filter p).map f) := by
  have hnodes : s.nodes.filter p = (s.nodeTable.entries.filter fun e => p e.2).map Prod.snd := List.filter_map
  refine ⟨(s.nodeTable.entries.filter fun e => p e.2).map Prod.fst, ?_, fun id => ?_, ?_⟩
  · exact s.nodeTable.nodup.sublist (List.filter_sublist.map Prod.fst)
  · constructor
    · intro h
      obtain ⟨e, he, rfl⟩ := List.mem_map.1 h
      obtain ⟨he, hpe⟩ := List.mem_filter.1 he
      exact ⟨e.2, Table.get?_eq_some.2 he, (hp e.2).1 hpe⟩
    · rintro ⟨n, hn, hP⟩
      exact List.mem_map.2 ⟨(id, n), List.mem_filter.2 ⟨Table.get?_eq_some.1 hn, (hp n).2 hP⟩, rfl⟩
  · rw [hnodes, List.map_map, List.map_map, List.map_map]
    refine List.map_congr_left fun e he => ?_
    have hn : s.node? e.1 = some e.2 := Table.get?_eq_some.2 (List.mem_filter.1 he).1
    simp only [Function.comp_apply, hn, Option.map_some]

namespace Profile

/-- What an attempt to join is to come to. A joiner that is refused changes nothing and gets an empty list, and nobody is
told. A joiner that is let in has its name from then on and is well, at its old target if it has one; it gets all of the
table, and all others but the answering node are told of it. -/
structure Admission (me : Profile) (joiner : Peer) (s : Store) (result : JoinReply × Store × List Notice) : Prop where
  responder : result.1.responder = me.name
  samples : result.2.1.sampleTable = s.sampleTable
  refused : result.1.nameUnique = false → result.1.nodes = [] ∧ result.2.1 = s ∧ result.2.2 = []
  record : result.1.nameUnique = true → ∃ n, result.2.1.node? joiner.id = some n ∧ n.name = joiner.name ∧ n.health = .ok ∧
    n.target = ((s.node? joiner.id).map Node.target).getD joiner.target
  others : ∀ id, id ≠ joiner.id → result.2.1.node? id = s.node? id
  listed : result.1.nameUnique = true → result.2.1.ListsEach (fun _ => True) Node.toPeer result.1.nodes
  told : result.1.nameUnique = true →
    result.2.1.ListsEach (fun n => n.id ≠ joiner.id ∧ n.id ≠ me.id) (fun n => ⟨n.toPeer, joiner⟩) result.2.2

theorem admission (me : Profile) (joiner : Peer) (s : Store) :
    me.Admission joiner s (me.answerJoin joiner s) := by
  unfold answerJoin
  cases me.nameTaken joiner s with
  | true => exact ⟨rfl, rfl, fun _ => ⟨rfl, rfl, rfl⟩, nofun, fun _ _ => rfl, nofun, nofun⟩
  | false =>
    refine ⟨rfl, rfl, nofun, fun _ => ?_, fun id hid => ?_, fun _ => ?_, fun _ => ?_⟩
    · have hrecord := (s.node?_letIn joiner joiner.id).trans (if_pos rfl)
      exact ⟨_, hrecord, s.name_merged _, s.health_merged _, s.target_merged _⟩
    · exact (s.node?_letIn joiner id).trans (if_neg hid)
    · have hall := (s.letIn joiner).listsEach_filter (P := fun _ => True) (p := fun _ => true) (by simp) Node.toPeer
      rw [List.filter_true] at hall
      exact hall
    · exact (s.letIn joiner).listsEach_filter (p := fun n => n.id ≠ joiner.id && n.id ≠ me.id) (by simp) _

theorem newcomer_of_mem (me : Profile) {joiner : Peer} {s : Store} {notice : Notice}
    (h : notice ∈ (me.answerJoin joiner s).2.2) : notice.newcomer = joiner := by
  unfold answerJoin at h
  split at h
  · cases h
  · obtain ⟨n, -, rfl⟩ := List.mem_map.1 h
    rfl

end Profile

/-! ## The announcements -/

/-- Whatever the results of its effects are, the activity makes no more than one call, with the given request, and ends with
it. Before that it works on connections only. -/
inductive Activity.OneCall {α : Type} (request : Request) : Activity α → Prop where
  | done (a : α) : OneCall request (.done a)
  | link {e : Effect} {next : e.Result → Activity α} (he : e.Linking) (hnext : ∀ r, OneCall request (next r)) :
      OneCall request (.perform e next)
  | call {channel : Channel} {limit : Duration} {next : Except CallError Response → Activity α}
      (hnext : ∀ r, ∃ a, next r = .done a) : OneCall request (.perform (.call channel request limit) next)

theorem Activity.Only.oneCall_bind {α β : Type} {x : Activity α} (hx : x.Only Effect.Linking) {request : Request}
    {f : α → Activity β} (hf : ∀ a, (f a).OneCall request) : (x >>= f).OneCall request := by
  induction x with
  | done a => exact hf a
  | perform e next ih => exact .link hx.1 fun r => ih r (hx.2 r)

theorem Profile.oneCall_announce (me : Profile) (notice : Notice) :
    (me.announce notice).OneCall (.nodeDiscovery ⟨notice.newcomer, me.peer⟩) := by
  refine (me.only_obtain notice.listener).oneCall_bind fun result => ?_
  cases result with
  | error e => exact .done ()
  | ok client => exact .call fun r => ⟨_, rfl⟩

namespace World

variable {σ : Type} {w : World σ} {i : Nat} {x : Member} {me : Profile} {s : Store}

theorem announcements_eq (w : World σ) {α : Type} : w.announcements = w.outbox.filterMap fun e =>
    (w.node? e.1).map fun x => (e.1, (fun _ => (none : Option α)) <$> x.1.announce e.2) := by
  refine List.filterMap_congr fun e _ => ?_
  unfold node?
  rw [Option.map_map]
  rfl

theorem announcements_append {α : Type} {w' : World σ} {after : Store} {notices : List Notice}
    (hi : w.node? i = some (me, s)) (hnode : ∀ k, w'.node? k = if k = i then some (me, after) else w.node? k)
    (houtbox : w'.outbox = w.outbox ++ notices.map fun notice => (i, notice)) :
    w'.announcements = w.announcements ++ notices.map fun notice =>
      (i, (fun _ => (none : Option α)) <$> me.announce notice) := by
  rw [announcements_eq, announcements_eq, houtbox, List.filterMap_append]
  congr 1
  · refine List.filterMap_congr fun e _ => ?_
    rw [hnode]
    split
    · rename_i he
      rw [he, hi]
      rfl
    · rfl
  · rw [List.filterMap_map, ← List.filterMap_eq_map]
    refine List.filterMap_congr fun notice _ => ?_
    simp only [Function.comp_apply, hnode, if_true, Option.map_some]

theorem exists_deliver (hi : w.node? i = some (me, s)) (request : Request) :
    ∃ w', w.deliver i request = (some (me.answer w.date request s).1, w') ∧ w'.network = w.network ∧ w'.trace = w.trace ∧
      (∀ k, w'.node? k = if k = i then some (me, (me.answer w.date request s).2.1) else w.node? k) ∧
      w'.outbox = w.outbox ++ (me.answer w.date request s).2.2.map fun notice => (i, notice) := by
  obtain ⟨x, hx, hxs⟩ := Option.map_eq_some_iff.1 hi
  cases hxs
  unfold deliver
  rw [hx]
  exact ⟨_, rfl, rfl, rfl, fun k => node?_onStore w hx (fun _ => (x.profile.answer w.date request x.store).2.1) k, rfl⟩

variable [Network σ]

/-- Whoever has obtained a client for the listener calls it once. -/
theorem exists_run_announce_of_client {me : Profile} {notice : Notice} {client : Client} {w₁ : World σ}
    (h : w.run i (me.obtain notice.listener) = (some (.ok client), w₁)) :
    ∃ w₂, w.run i (me.announce notice) = (some (), w₂) ∧
      w₂.trace = (i, .call client.target (.nodeDiscovery ⟨notice.newcomer, me.peer⟩)) :: w₁.trace := by
  obtain ⟨w₂, hcall, hcalled⟩ :=
    exists_run_call_any w₁ i client (.nodeDiscovery ⟨notice.newcomer, me.peer⟩) ⟨w.tickets⟩
  exact ⟨w₂, (Activity.run_bind h _).trans (Activity.run_bind (Activity.run_bind hcall _) _), hcalled⟩

/-- The node tries once to tell the listener of the newcomer. It takes a client for the listener, with one dial at most, and
if there is one it makes one call with it. It does nothing else, whatever comes of the dial and of the call. -/
def TriesOnce (w : World σ) (i : Nat) (me : Profile) (notice : Notice) : Prop :=
  ∃ dials calls outcome w', w.run i (me.announce notice) = (outcome, w') ∧
    w'.trace = (calls ++ dials).map (fun e => (i, e)) ++ w.trace ∧
    (dials = [] ∨ dials = [.dial notice.listener.target me.security.isSecure .lazy]) ∧
    (calls = match (w.run i (me.obtain notice.listener)).1 with
      | some (.ok client) => [.call client.target (.nodeDiscovery ⟨notice.newcomer, me.peer⟩)]
      | _ => []) ∧
    ∀ client, (w.run i (me.obtain notice.listener)).1 = some (.ok client) →
      (w.pool? i).bind (Pool.client? · notice.listener.id) = some client ∨ client.target = notice.listener.target

theorem triesOnce (hi : w.members[i]? = some x) (me : Profile) (notice : Notice) : w.TriesOnce i me notice := by
  obtain ⟨result, w₁, dials, -, hobtain, hdials, htrace, -⟩ :=
    exists_run_obtain_any (w := { w with tickets := w.tickets + 1 }) hi me notice.listener ⟨w.tickets⟩
  have hpool : w.pool? i = some x.pool := congrArg (Option.map Member.pool) hi
  have hclient : w.run i (me.obtain notice.listener) = (result, w₁) := hobtain
  have hfor : ∀ client, result = some (.ok client) →
      (w.pool? i).bind (Pool.client? · notice.listener.id) = some client ∨ client.target = notice.listener.target := by
    intro client h
    rw [h] at hobtain
    rw [hpool, Option.bind_some]
    exact client_of_obtain (w := { w with tickets := w.tickets + 1 }) hi hobtain
  unfold TriesOnce
  rw [hclient]
  unfold run Profile.announce
  match result with
  | none => exact ⟨dials, [], _, w₁, Activity.run_bind_never hobtain _, htrace, hdials, rfl, hfor⟩
  | some (.error e) => exact ⟨dials, [], _, w₁, Activity.run_bind hobtain _, htrace, hdials, rfl, hfor⟩
  | some (.ok client) =>
    obtain ⟨w₂, hrun, hcalled⟩ := exists_run_announce_of_client hclient
    refine ⟨dials, _, some (), w₂, hrun, ?_, hdials, rfl, hfor⟩
    rw [hcalled, htrace]
    rfl

/-- With a client for the listener, the announcement is one call of that client. -/
theorem trace_announce_of_client (hi : w.members[i]? = some x) (hx : x.pool.Neat) (me : Profile) {notice : Notice}
    {client : Client} (hclient : x.pool.client? notice.listener.id = some client) :
    (w.run i (me.announce notice)).2.trace =
      (i, .call client.target (.nodeDiscovery ⟨notice.newcomer, me.peer⟩)) :: w.trace := by
  obtain ⟨w₁, -, hobtain, -, -, htrace, -⟩ :=
    exists_run_obtain_of_client (w := { w with tickets := w.tickets + 1 }) hi hx hclient me ⟨w.tickets⟩
  obtain ⟨w₂, hrun, hcalled⟩ := exists_run_announce_of_client (w := w) hobtain
  rw [hrun, hcalled, htrace]

/-- Without one, the listener is dialed once, lazily, and if the dial succeeds the call is made. -/
theorem trace_announce_of_none (hi : w.members[i]? = some x) (hx : x.pool.Neat) (me : Profile) {notice : Notice}
    (hnone : x.pool.client? notice.listener.id = none) :
    (w.run i (me.announce notice)).2.trace =
      (match (Network.awaitDial w.network ⟨w.dialed, notice.listener.target⟩ me.security).1 with
        | some (.ok _) => [(i, .call notice.listener.target (.nodeDiscovery ⟨notice.newcomer, me.peer⟩))]
        | _ => []) ++
      (i, .dial notice.listener.target me.security.isSecure .lazy) :: w.trace := by
  obtain ⟨w₁, -, hobtain, -, -, htrace, -⟩ :=
    exists_run_obtain_of_none (w := { w with tickets := w.tickets + 1 }) hi hx hnone me ⟨w.tickets⟩
  match hdial : (Network.awaitDial w.network ⟨w.dialed, notice.listener.target⟩ me.security).1 with
  | none =>
    rw [hdial] at hobtain
    have hrun : w.run i (me.announce notice) = (none, w₁) := Activity.run_bind_never hobtain _
    rw [hrun]
    exact htrace
  | some (.error e) =>
    rw [hdial] at hobtain
    have hrun : w.run i (me.announce notice) = (some (), w₁) := Activity.run_bind hobtain _
    rw [hrun]
    exact htrace
  | some (.ok channel) =>
    rw [hdial] at hobtain
    obtain ⟨w₂, hrun, hcalled⟩ := exists_run_announce_of_client (w := w) hobtain
    have htarget : channel.target = notice.listener.target := congrArg Channel.target (Network.eq_of_awaitDial hdial)
    rw [hrun, hcalled, htrace, ← htarget]
    rfl

/-- A node with any store serves an attempt to join, on any network. The answer, the store after it and the announcements
that come of it are those that `answerJoin` gives, and nothing else changes. One activity begins for each announcement,
makes one call at most, and tries once. The answer stays the same, however long they go on and whatever becomes of them. -/
theorem join_served (me : Profile) (joiner : Peer) (s : Store) :
    me.Admission joiner s (me.answerJoin joiner s) ∧
    ∀ {σ : Type} [Network σ] (w : World σ) (i : Nat), w.node? i = some (me, s) →
      (∃ w', w.run i (me.serve (.joinMesh joiner)) = (some (.joinMesh (me.answerJoin joiner s).1), w') ∧
        w'.network = w.network ∧ w'.trace = w.trace ∧
        (∀ k, w'.node? k = if k = i then some (me, (me.answerJoin joiner s).2.1) else w.node? k) ∧
        w'.announcements = w.announcements ++ (me.answerJoin joiner s).2.2.map fun notice =>
          (i, (fun _ => (none : Option Response)) <$> me.announce notice)) ∧
      (∀ n, (w.together (n + 1) [(i, me.serve (.joinMesh joiner))]).1 = [some (.joinMesh (me.answerJoin joiner s).1)]) ∧
      ∀ notice ∈ (me.answerJoin joiner s).2.2, (me.announce notice).OneCall (.nodeDiscovery ⟨joiner, me.peer⟩) ∧
        ∀ (v : World σ) store, v.node? i = some (me, store) → v.TriesOnce i me notice := by
  refine ⟨me.admission joiner s, fun w i hi => ?_⟩
  obtain ⟨x, hx, hxs⟩ := Option.map_eq_some_iff.1 hi
  cases hxs
  obtain ⟨w', hdeliver, hnetwork, htrace, hnode, houtbox⟩ :=
    exists_deliver (w := { w with tickets := w.tickets + 1 }) hi (.joinMesh joiner)
  have hrun : w.run i (x.profile.serve (.joinMesh joiner)) =
      (some (.joinMesh (x.profile.answerJoin joiner x.store).1), w') :=
    (run_serve (w := { w with tickets := w.tickets + 1 }) hx (.joinMesh joiner) ⟨w.tickets⟩).trans hdeliver
  refine ⟨⟨w', hrun, hnetwork, htrace, hnode, announcements_append hi hnode houtbox⟩, fun n => ?_, ?_⟩
  · exact together_of_prompt (x.profile.only_prompt_serve _) hrun n
  · intro notice hnotice
    have hnewcomer : notice.newcomer = joiner := x.profile.newcomer_of_mem hnotice
    refine ⟨hnewcomer ▸ x.profile.oneCall_announce notice, fun v store hv => ?_⟩
    obtain ⟨y, hy, -⟩ := Option.map_eq_some_iff.1 hv
    exact v.triesOnce hy x.profile notice

end World

/-- A node that knows itself and two others, on a network that loses every call to one of them. -/
def reception : World ScriptedNetwork where
  members := [{ profile := { name := "m", target := "m:1" },
                store := ((Store.letIn {} ⟨"m", "m:1"⟩).letIn ⟨"o", "ntf:1"⟩).letIn ⟨"b", "b:1"⟩ }]
  network := ScriptedNetwork.setRoute {} "b:1" { calls := ⟨[.now .lost]⟩ }

namespace reception

/-- The joiner has the id of one that is known, and gets its record, with the old target. The third node is dialed once to
be told of it by one call, which is lost. -/
theorem newcomer_served :
    ∃ me s w', reception.node? 0 = some (me, s) ∧
      reception.run 0 (me.serve (.joinMesh ⟨"n", "ajtr:1"⟩)) =
        (some (.joinMesh ⟨true, "m", [⟨"m", "m:1"⟩, ⟨"n", "ntf:1"⟩, ⟨"b", "b:1"⟩]⟩), w') ∧
      (reception.together 8 [(0, me.serve (.joinMesh ⟨"n", "ajtr:1"⟩))]).1 =
        [some (.joinMesh ⟨true, "m", [⟨"m", "m:1"⟩, ⟨"n", "ntf:1"⟩, ⟨"b", "b:1"⟩]⟩)] ∧
      (me.answerJoin ⟨"n", "ajtr:1"⟩ s).2.2 = [⟨⟨"b", "b:1"⟩, ⟨"n", "ajtr:1"⟩⟩] ∧
      w'.TriesOnce 0 me ⟨⟨"b", "b:1"⟩, ⟨"n", "ajtr:1"⟩⟩ ∧
      (w'.run 0 (me.announce ⟨⟨"b", "b:1"⟩, ⟨"n", "ajtr:1"⟩⟩)).2.trace =
        [(0, .call "b:1" (.nodeDiscovery ⟨⟨"n", "ajtr:1"⟩, ⟨"m", "m:1"⟩⟩)), (0, .dial "b:1" false .lazy)] := by
  let me := reception.members[0].profile
  let s := reception.members[0].store
  have hi : reception.node? 0 = some (me, s) := rfl
  have hreply : (me.answerJoin ⟨"n", "ajtr:1"⟩ s).1 =
      ⟨true, "m", [⟨"m", "m:1"⟩, ⟨"n", "ntf:1"⟩, ⟨"b", "b:1"⟩]⟩ := by decide +kernel
  have hnotices : (me.answerJoin ⟨"n", "ajtr:1"⟩ s).2.2 = [⟨⟨"b", "b:1"⟩, ⟨"n", "ajtr:1"⟩⟩] := by decide +kernel
  obtain ⟨-, hserved⟩ := World.join_served me ⟨"n", "ajtr:1"⟩ s
  obtain ⟨⟨w', hrun, -, -, hnode, -⟩, htogether, htold⟩ := hserved reception 0 hi
  obtain ⟨y, hy, hpool, hdial, htrace⟩ : ∃ y, w'.members[0]? = some y ∧ y.pool = ({} : Pool) ∧
      (Network.awaitDial w'.network ⟨w'.dialed, "b:1"⟩ me.security).1 = some (.ok ⟨0, "b:1"⟩) ∧ w'.trace = [] := by
    have hw' : w' = (reception.run 0 (me.serve (.joinMesh ⟨"n", "ajtr:1"⟩))).2 := (congrArg Prod.snd hrun).symm
    rw [hw']
    exact ⟨_, rfl, rfl, rfl, rfl⟩
  rw [hreply] at hrun htogether
  rw [hnotices] at htold
  refine ⟨me, s, w', hi, hrun, htogether 7, hnotices, (htold _ (List.mem_singleton_self _)).2 w' _ (hnode 0), ?_⟩
  rw [World.trace_announce_of_none hy (hpool ▸ Pool.Neat.empty) me (by rw [hpool]; rfl), hdial, htrace]
  rfl

end reception

end PeerMesh
