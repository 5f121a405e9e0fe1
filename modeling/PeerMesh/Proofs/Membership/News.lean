import PeerMesh.Proofs.Identity
import PeerMesh.Proofs.Store.Acquaintance
import PeerMesh.Proofs.Store.Twins

/-!
# News of peers

Pings and announcements tell a node of peers. They come from many nodes at once, and more than once.

* `Request.isNews`, `Request.pings`, `Profile.mentions` : which requests they are, who pings, and whom they tell of;
* `Profile.answerAll` : requests that are answered one after another;
* `Profile.recordAfter`, `Profile.node?_answerAll` : the record of an id after any number of them;
* `Profile.answer_of_familiar` : they change nothing where all their peers are known and those that ping are well;
* `Profile.Informed`, `Profile.news_in_any_order` : what they do to a store, and that but for the names of nodes that were
  not known before the order does not matter.
-/

namespace PeerMesh

namespace Request

/-- Whether a request does no more than to tell of peers. -/
def isNews : Request → Bool
  | ping _ | nodeDiscovery _ => true
  | joinMesh _ | pushSamples _ | rtt => false

def pings (id : NodeId) : Request → Bool
  | ping sender => sender.id = id
  | _ => false

end Request

namespace Node

/-- The record of a node that has just been heard. -/
def heard (now : Int64) (n : Node) : Node :=
  if n.health = .ok then n else { n with health := .ok, changedAt := now }

/-- What is left of a record without its name. -/
def unnamed (n : Node) : Node := { n with name := "" }

@[simp] theorem name_heard (now : Int64) (n : Node) : (n.heard now).name = n.name := by
  unfold heard
  split <;> rfl

@[simp] theorem target_heard (now : Int64) (n : Node) : (n.heard now).target = n.target := by
  unfold heard
  split <;> rfl

@[simp] theorem health_heard (now : Int64) (n : Node) : (n.heard now).health = .ok := by
  unfold heard
  split
  · assumption
  · rfl

theorem heard_of_ok {n : Node} (h : n.health = .ok) (now : Int64) : n.heard now = n := if_pos h

theorem unnamed_ofPeer {p q : Peer} (h : p.target = q.target) (health : Health) :
    (ofPeer p health).unnamed = (ofPeer q health).unnamed := by
  unfold unnamed ofPeer new
  rw [h]

end Node

namespace Store

theorem addNode_of_knows {s : Store} {n : Node} (h : s.Knows n.id) : s.addNode n = (false, s) := by
  unfold addNode
  rw [if_pos (Table.contains_eq_true.2 h)]

theorem hear_of_ok {s : Store} {sender : Peer} {n : Node} (h : s.node? sender.id = some n) (hok : n.health = .ok)
    (now : Int64) : s.hear now sender = s := by
  have hsame : ∀ v, s.nodeTable.get? sender.id = some v →
      (if v.health = .ok then v else { v with health := .ok, changedAt := now }) = v := by
    intro v hv
    cases h.symm.trans hv
    exact if_pos hok
  have hset : s.setHealth sender.id .ok now = (true, s) := by
    unfold setHealth
    rw [Table.contains_eq_true.2 ⟨n, h⟩, Table.modify_eq hsame]
  unfold hear
  rw [hset]

theorem sampleTable_hear (s : Store) (now : Int64) (sender : Peer) : (s.hear now sender).sampleTable = s.sampleTable := by
  unfold hear
  split
  · rename_i t h
    exact congrArg (fun x => x.2.sampleTable) h.symm
  · rename_i t h
    rw [sampleTable_addNode]
    exact congrArg (fun x => x.2.sampleTable) h.symm

end Store

namespace Profile

/-- The peers that a request tells of, in order. In an announcement the node passes over itself. -/
def mentions (me : Profile) : Request → List Peer
  | .ping sender => [sender]
  | .nodeDiscovery word => [word.newcomer, word.announcer].filter fun p => p.id ≠ me.id
  | _ => []

def answerAll (me : Profile) (now : Int64) (requests : List Request) (s : Store) : Store :=
  requests.foldl (fun s request => (me.answer now request s).2.1) s

theorem answerAll_cons (me : Profile) (now : Int64) (request : Request) (requests : List Request) (s : Store) :
    me.answerAll now (request :: requests) s = me.answerAll now requests (me.answer now request s).2.1 := rfl

/-! ## Records -/

/-- What the record of an id turns into: if there is none, then the first peer with that id gets one. Whoever pings is
heard. -/
def recordAfter (me : Profile) (now : Int64) (requests : List Request) (id : NodeId) (old : Option Node) : Option Node :=
  (old.or (((requests.flatMap me.mentions).find? fun p => p.id = id).map (Node.ofPeer · .ok))).map fun n =>
    if requests.any (Request.pings id) then n.heard now else n

theorem recordAfter_some (me : Profile) (now : Int64) (requests : List Request) (id : NodeId) (n : Node) :
    me.recordAfter now requests id (some n) = some (if requests.any (Request.pings id) then n.heard now else n) := rfl

theorem recordAfter_none (me : Profile) (now : Int64) (requests : List Request) (id : NodeId) :
    me.recordAfter now requests id none =
      ((requests.flatMap me.mentions).find? fun p => p.id = id).map (Node.ofPeer · .ok) := by
  unfold recordAfter
  rw [Option.none_or, Option.map_map]
  congr 1
  funext p
  have hok : (Node.ofPeer p .ok).health = .ok := rfl
  simp only [Function.comp_apply, Node.heard_of_ok hok, ite_self]

theorem recordAfter_cons (me : Profile) (now : Int64) (request : Request) (requests : List Request) (id : NodeId)
    (old : Option Node) :
    me.recordAfter now (request :: requests) id old =
      me.recordAfter now requests id (me.recordAfter now [request] id old) := by
  cases old with
  | some n =>
    have htwice : (n.heard now).heard now = n.heard now := Node.heard_of_ok (Node.health_heard now n) now
    by_cases hping : request.pings id = true
    · simp [recordAfter_some, hping, htwice]
    · simp [recordAfter_some, hping]
  | none =>
    simp only [recordAfter_none, List.flatMap_cons, List.flatMap_nil, List.append_nil, List.find?_append]
    cases (me.mentions request).find? fun p => p.id = id with
    | none => simp [recordAfter_none]
    | some p =>
      have hok : (Node.ofPeer p .ok).health = .ok := rfl
      simp [recordAfter_some, Node.heard_of_ok hok]

theorem node?_meet (me : Profile) (peer : Peer) (s : Store) (id : NodeId) :
    (me.meet peer s).node? id =
      (s.node? id).or ((([peer].filter fun p => p.id ≠ me.id).find? fun p => p.id = id).map (Node.ofPeer · .ok)) := by
  have hid : (Node.ofPeer peer .ok).id = peer.id := rfl
  unfold meet
  by_cases hme : peer.id = me.id
  · simp [hme]
  · rw [if_neg hme, Store.node?_addNode, hid]
    by_cases h : peer.id = id
    · subst h
      cases hold : s.node? peer.id <;> simp [hme]
    · simp [hme, h, Ne.symm h]

theorem node?_learn (me : Profile) (word : Announcement) (s : Store) (id : NodeId) :
    (me.learn word s).node? id =
      (s.node? id).or (((me.mentions (.nodeDiscovery word)).find? fun p => p.id = id).map (Node.ofPeer · .ok)) := by
  have hmentions : me.mentions (.nodeDiscovery word) =
      [word.newcomer].filter (fun p => p.id ≠ me.id) ++ [word.announcer].filter fun p => p.id ≠ me.id := by
    rw [← List.filter_append]
    rfl
  rw [learn, node?_meet, node?_meet, hmentions, List.find?_append, Option.map_or, Option.or_assoc]

theorem node?_answer (me : Profile) (now : Int64) {request : Request} (h : request.isNews = true) (s : Store)
    (id : NodeId) : (me.answer now request s).2.1.node? id = me.recordAfter now [request] id (s.node? id) := by
  cases request with
  | ping sender =>
    show (s.hear now sender).node? id = _
    rw [Store.node?_hear]
    by_cases hid : sender.id = id
    · subst hid
      rw [if_pos rfl]
      cases s.node? sender.id with
      | none => simp [recordAfter_none, mentions]
      | some n => simp [recordAfter_some, Request.pings, Node.heard]
    · rw [if_neg (Ne.symm hid)]
      cases s.node? id with
      | none => simp [recordAfter_none, mentions, hid]
      | some n => simp [recordAfter_some, Request.pings, hid]
  | nodeDiscovery word =>
    show (me.learn word s).node? id = _
    rw [node?_learn]
    cases s.node? id with
    | none => simp [recordAfter_none]
    | some n => rfl
  | joinMesh | pushSamples | rtt => cases h

theorem node?_answerAll (me : Profile) (now : Int64) {requests : List Request} (h : ∀ r ∈ requests, r.isNews = true)
    (s : Store) (id : NodeId) :
    (me.answerAll now requests s).node? id = me.recordAfter now requests id (s.node? id) := by
  induction requests generalizing s with
  | nil =>
    show s.node? id = _
    cases s.node? id with
    | none => rfl
    | some n => rfl
  | cons request requests ih =>
    rw [answerAll_cons, ih fun r hr => h r (List.mem_cons_of_mem _ hr), node?_answer me now (h _ List.mem_cons_self),
      ← recordAfter_cons]

theorem exists_recordAfter (me : Profile) (now : Int64) {requests : List Request} {p : Peer}
    (hp : p ∈ requests.flatMap me.mentions) (old : Option Node) : ∃ n, me.recordAfter now requests p.id old = some n := by
  cases old with
  | some n => exact ⟨_, rfl⟩
  | none =>
    obtain ⟨q, hq⟩ := Peer.exists_find?_id hp
    rw [recordAfter_none, hq]
    exact ⟨_, rfl⟩

theorem health_recordAfter {me : Profile} {now : Int64} {requests : List Request} {id : NodeId}
    (hany : requests.any (Request.pings id) = true) {old : Option Node} {n : Node}
    (h : me.recordAfter now requests id old = some n) : n.health = .ok := by
  obtain ⟨m, -, rfl⟩ := Option.map_eq_some_iff.1 h
  rw [if_pos hany]
  exact m.health_heard now

theorem exists_mention_of_pings (me : Profile) {request : Request} {id : NodeId} (h : request.pings id = true) :
    ∃ p ∈ me.mentions request, p.id = id := by
  cases request with
  | ping sender => exact ⟨sender, List.mem_singleton_self sender, of_decide_eq_true h⟩
  | joinMesh | nodeDiscovery | pushSamples | rtt => cases h

/-- But for names, a record depends on who is told of, not on the order in which that happens or how often. -/
theorem unnamed_recordAfter (me : Profile) (now : Int64) {requests others : List Request}
    (hsame : ∀ r, r ∈ requests ↔ r ∈ others) (hapart : DigestsApart ((requests.flatMap me.mentions).map Peer.target))
    (id : NodeId) (old : Option Node) :
    (me.recordAfter now requests id old).map Node.unnamed = (me.recordAfter now others id old).map Node.unnamed := by
  cases old with
  | some n =>
    have hany : requests.any (Request.pings id) = others.any (Request.pings id) := by
      rw [Bool.eq_iff_iff, List.any_eq_true, List.any_eq_true]
      simp only [hsame]
    rw [recordAfter_some, recordAfter_some, hany]
  | none =>
    have hmentions : ∀ p, p ∈ requests.flatMap me.mentions ↔ p ∈ others.flatMap me.mentions := by
      intro p
      simp only [List.mem_flatMap, hsame]
    rw [recordAfter_none, recordAfter_none]
    cases hp : (requests.flatMap me.mentions).find? fun p => p.id = id with
    | none =>
      have hq : ((others.flatMap me.mentions).find? fun p => p.id = id) = none := by
        rw [List.find?_eq_none] at hp ⊢
        exact fun q hq => hp q ((hmentions q).2 hq)
      rw [hq]
    | some p =>
      have hpmem : p ∈ requests.flatMap me.mentions := List.mem_of_find?_eq_some hp
      have hpid : p.id = id := by simpa using List.find?_some hp
      obtain ⟨q, hq⟩ := hpid ▸ Peer.exists_find?_id ((hmentions p).1 hpmem)
      have hqmem : q ∈ requests.flatMap me.mentions := (hmentions q).2 (List.mem_of_find?_eq_some hq)
      have hqid : q.id = id := by simpa using List.find?_some hq
      have htarget : p.target = q.target :=
        hapart.target_eq (List.mem_map_of_mem hpmem) (List.mem_map_of_mem hqmem) (hpid.trans hqid.symm)
      rw [hq, Option.map_some, Option.map_some, Option.map_some, Option.map_some, Node.unnamed_ofPeer htarget]

/-! ## Stores -/

theorem meet_of_familiar {me : Profile} {peer : Peer} {s : Store} (h : peer.id ≠ me.id → s.Knows peer.id) :
    me.meet peer s = s := by
  have hid : (Node.ofPeer peer .ok).id = peer.id := rfl
  unfold meet
  split
  · rfl
  · rename_i hme
    rw [Store.addNode_of_knows (hid ▸ h hme)]

/-- Where all peers are known, and those that ping are well, there is nothing to be done. -/
theorem answer_of_familiar {me : Profile} {request : Request} {s : Store} (hnews : request.isNews = true)
    (hknown : ∀ p ∈ me.mentions request, s.Knows p.id)
    (hok : ∀ id, request.pings id = true → ∃ n, s.node? id = some n ∧ n.health = .ok) (now : Int64) :
    me.answer now request s = (.empty, s, []) := by
  cases request with
  | ping sender =>
    obtain ⟨n, hn, hhealth⟩ := hok sender.id (decide_eq_true rfl)
    show (_, s.hear now sender, _) = _
    rw [Store.hear_of_ok hn hhealth]
  | nodeDiscovery word =>
    have hmeet : ∀ p ∈ [word.newcomer, word.announcer], me.meet p s = s := by
      intro p hp
      exact meet_of_familiar fun hme => hknown p (List.mem_filter.2 ⟨hp, decide_eq_true hme⟩)
    show (_, me.meet word.announcer (me.meet word.newcomer s), _) = _
    rw [hmeet word.newcomer (by simp), hmeet word.announcer (by simp)]
  | joinMesh | pushSamples | rtt => cases hnews

theorem sampleTable_meet (me : Profile) (peer : Peer) (s : Store) : (me.meet peer s).sampleTable = s.sampleTable := by
  unfold meet
  split
  · rfl
  · exact s.sampleTable_addNode _

theorem sampleTable_answerAll (me : Profile) (now : Int64) {requests : List Request}
    (h : ∀ r ∈ requests, r.isNews = true) (s : Store) : (me.answerAll now requests s).sampleTable = s.sampleTable := by
  induction requests generalizing s with
  | nil => rfl
  | cons request requests ih =>
    rw [answerAll_cons, ih fun r hr => h r (List.mem_cons_of_mem _ hr)]
    cases hr : request with
    | ping sender => exact s.sampleTable_hear now sender
    | nodeDiscovery word => exact (sampleTable_meet me word.announcer _).trans (sampleTable_meet me word.newcomer s)
    | joinMesh | pushSamples | rtt => cases hr ▸ h request List.mem_cons_self

/-- What news does to a store. -/
structure Informed (me : Profile) (now : Int64) (requests : List Request) (s t : Store) : Prop where
  /-- Who was known keeps name and target. -/
  known : ∀ id n, s.node? id = some n → ∃ n', t.node? id = some n' ∧ n'.name = n.name ∧ n'.target = n.target
  /-- Who was known and does not ping keeps health and moment as well. -/
  unpinged : ∀ id n, s.node? id = some n → (∀ r ∈ requests, r.pings id = false) → t.node? id = some n
  /-- Who pings is well, and since now if it was known to be otherwise. -/
  pinged : ∀ r ∈ requests, ∀ id, r.pings id = true →
    ∃ n, t.node? id = some n ∧ n.health = .ok ∧ ∀ old, s.node? id = some old → n = old.heard now
  /-- Who was not known is known as it was first told of, if it was. -/
  unknown : ∀ id, s.node? id = none →
    t.node? id = ((requests.flatMap me.mentions).find? fun p => p.id = id).map (Node.ofPeer · .ok)
  samples : t.sampleTable = s.sampleTable
  /-- The same news is none any more, at any moment. -/
  again : ∀ r ∈ requests, ∀ later, me.answer later r t = (.empty, t, [])

theorem informed_answerAll (me : Profile) (now : Int64) {requests : List Request} (h : ∀ r ∈ requests, r.isNews = true)
    (s : Store) : me.Informed now requests s (me.answerAll now requests s) := by
  have hrecord := me.node?_answerAll now h s
  have hpinged : ∀ r ∈ requests, ∀ id, r.pings id = true → ∃ n, (me.answerAll now requests s).node? id = some n ∧
      n.health = .ok ∧ ∀ old, s.node? id = some old → n = old.heard now := by
    intro r hr id hping
    have hany : requests.any (Request.pings id) = true := List.any_eq_true.2 ⟨r, hr, hping⟩
    obtain ⟨p, hp, rfl⟩ := exists_mention_of_pings me hping
    obtain ⟨n, hn⟩ := me.exists_recordAfter now (List.mem_flatMap.2 ⟨r, hr, hp⟩) (s.node? p.id)
    refine ⟨n, (hrecord p.id).trans hn, health_recordAfter hany hn, fun old hold => ?_⟩
    rw [hold, recordAfter_some, if_pos hany] at hn
    exact (Option.some.inj hn).symm
  refine ⟨fun id n hn => ?_, fun id n hn hquiet => ?_, hpinged, fun id hnone => ?_, me.sampleTable_answerAll now h s,
    fun r hr later => ?_⟩
  · rw [hrecord, hn, recordAfter_some]
    refine ⟨_, rfl, ?_, ?_⟩
    · split
      · exact n.name_heard now
      · rfl
    · split
      · exact n.target_heard now
      · rfl
  · have hany : ¬ requests.any (Request.pings id) = true := by
      rw [List.any_eq_true]
      rintro ⟨r, hr, hping⟩
      rw [hquiet r hr] at hping
      cases hping
    rw [hrecord, hn, recordAfter_some, if_neg hany]
  · rw [hrecord, hnone, recordAfter_none]
  · refine answer_of_familiar (h r hr) (fun p hp => ?_) (fun id hping => ?_) later
    · obtain ⟨n, hn⟩ := me.exists_recordAfter now (List.mem_flatMap.2 ⟨r, hr, hp⟩) (s.node? p.id)
      exact ⟨n, (hrecord p.id).trans hn⟩
    · obtain ⟨n, hn, hok, -⟩ := hpinged r hr id hping
      exact ⟨n, hn, hok⟩

/-- Whatever pings and announcements a node is told, and in whatever order. Known peers keep their names and their targets,
and unless they ping their health and its moment. Whoever pings is well. An unknown peer is stored under the first name that
is told. What has been told before is no news. In any other order the same ids come to be known, and all that is stored
under them is the same but for those names, if no two of the targets that are told of have one id. -/
theorem news_in_any_order (me : Profile) (now : Int64) (s : Store) {requests : List Request}
    (h : ∀ r ∈ requests, r.isNews = true) :
    me.Informed now requests s (me.answerAll now requests s) ∧
    ∀ others, requests.Perm others → DigestsApart ((requests.flatMap me.mentions).map Peer.target) →
      ∀ id, ((me.answerAll now requests s).node? id).map Node.unnamed =
        ((me.answerAll now others s).node? id).map Node.unnamed := by
  refine ⟨me.informed_answerAll now h s, fun others hperm hapart id => ?_⟩
  have hothers : ∀ r ∈ others, r.isNews = true := fun r hr => h r (hperm.mem_iff.2 hr)
  rw [node?_answerAll me now h, node?_answerAll me now hothers]
  exact unnamed_recordAfter me now (fun _ => hperm.mem_iff) hapart id (s.node? id)

end Profile

/-- A store with one peer, which was not well at the moment 7. -/
def worried : Store := ((Store.letIn {} ⟨"a", "a:1"⟩).setHealth (.ofTarget "a:1") .warning 7).2

/-- That peer pings under another name. Another is announced, by the node at `m:1` itself, and then pings under another name
too. -/
def tidings : List Request := [.ping ⟨"c", "a:1"⟩, .nodeDiscovery ⟨⟨"b", "b:1"⟩, ⟨"m", "m:1"⟩⟩, .ping ⟨"d", "b:1"⟩]

/-- Told the other way round, the name of the ping is stored for the new peer, and all else is the same. -/
theorem tidings_reversed :
    (Profile.answerAll ⟨"m", "m:1", .ofSeconds 5, .insecure⟩ 9 tidings worried).nodes =
        [⟨.ofTarget "a:1", "a", "a:1", .ok, 9⟩, ⟨.ofTarget "b:1", "b", "b:1", .ok, 0⟩] ∧
      (Profile.answerAll ⟨"m", "m:1", .ofSeconds 5, .insecure⟩ 9 tidings.reverse worried).nodes =
        [⟨.ofTarget "a:1", "a", "a:1", .ok, 9⟩, ⟨.ofTarget "b:1", "d", "b:1", .ok, 0⟩] ∧
      ∀ id, ((Profile.answerAll ⟨"m", "m:1", .ofSeconds 5, .insecure⟩ 9 tidings worried).node? id).map Node.unnamed =
        ((Profile.answerAll ⟨"m", "m:1", .ofSeconds 5, .insecure⟩ 9 tidings.reverse worried).node? id).map Node.unnamed := by
  have hnews : ∀ r ∈ tidings, r.isNews = true := by decide
  refine ⟨by decide +kernel, by decide +kernel, ?_⟩
  exact (Profile.news_in_any_order _ 9 worried hnews).2 tidings.reverse (List.reverse_perm tidings).symm (by decide +kernel)

end PeerMesh
