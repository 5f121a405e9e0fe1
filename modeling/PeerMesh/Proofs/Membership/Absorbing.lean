import PeerMesh.Proofs.Identity
import PeerMesh.Proofs.Membership.Candidates
import PeerMesh.Proofs.Store.Derived
import PeerMesh.Proofs.World.Changes

/-!
# What a node knows once it is let in

Who lets a node in answers with its name and a list of peers. That list is the word of another node: it may tell of one
peer twice and under two names, of the node that asks, or of the one that answers.

* `Store.node?_putPeers` : the record of an id once any number of peers have been put in;
* `Store.Absorbs` : for each id the address that came first and the name that came last, and nothing else is touched
  (`Store.absorbs_putPeers`);
* `Network.Spares`, `World.node?_attempted_of_spares` : attempts to join leave the store alone unless the node calls itself;
* `World.join_absorbs` : the store of a member after an attempt to join that succeeded, on any network.
-/

namespace PeerMesh

/-- A record that has just been put in under a name. -/
def Node.renewed (n : Node) (name : String) : Node := { n with name, health := .ok, changedAt := 0 }

theorem Node.renewed_renewed (n : Node) (name name' : String) : (n.renewed name).renewed name' = n.renewed name' := rfl

namespace Store

/-! ## Peers put in one after another -/

theorem node?_putPeer (s : Store) (p : Peer) (id : NodeId) :
    (s.putNode (.ofPeer p .ok)).node? id =
      if p.id = id then some (Node.renewed ((s.node? id).getD (.ofPeer p .ok)) p.name) else s.node? id := by
  have hid : (Node.ofPeer p .ok).id = p.id := rfl
  rw [node?_putNode, hid]
  by_cases h : p.id = id
  · rw [if_pos h, if_pos h.symm, ← h]
    unfold merged
    rw [hid]
    cases s.node? p.id with
    | none => rfl
    | some old => rfl
  · rw [if_neg h, if_neg (Ne.symm h)]

theorem node?_putPeers_of_ne {peers : List Peer} {id : NodeId} (h : ∀ p ∈ peers, p.id ≠ id) (s : Store) :
    (s.putPeers peers).node? id = s.node? id := by
  induction peers generalizing s with
  | nil => rfl
  | cons p peers ih =>
    rw [putPeers_cons, ih fun q hq => h q (List.mem_cons_of_mem p hq), node?_putPeer, if_neg (h p List.mem_cons_self)]

/-- An id that is told of has the record that it had, or else that of its first peer, under the name of its last. -/
theorem node?_putPeers {peers : List Peer} {id : NodeId} {first last : Peer}
    (hfirst : peers.find? (fun p => p.id = id) = some first)
    (hlast : peers.reverse.find? (fun p => p.id = id) = some last) (s : Store) :
    (s.putPeers peers).node? id = some (Node.renewed ((s.node? id).getD (.ofPeer first .ok)) last.name) := by
  induction peers generalizing s first with
  | nil => cases hfirst
  | cons p peers ih =>
    rw [List.reverse_cons, List.find?_append] at hlast
    rw [putPeers_cons]
    by_cases hp : p.id = id
    · have hpfirst : p = first := by simpa [hp] using hfirst
      have hput : (s.putNode (.ofPeer p .ok)).node? id =
          some (Node.renewed ((s.node? id).getD (.ofPeer first .ok)) p.name) := by
        rw [node?_putPeer, if_pos hp, hpfirst]
      cases hrest : peers.find? fun q => q.id = id with
      | none =>
        have hnone : ∀ q ∈ peers, q.id ≠ id := by simpa using hrest
        have hplast : p = last := by
          have hreverse : peers.reverse.find? (fun q => q.id = id) = none := by simpa using hnone
          simpa [hreverse, hp] using hlast
        rw [node?_putPeers_of_ne hnone, hput, hplast]
      | some next =>
        have hnext : next.id = id := by simpa using List.find?_some hrest
        obtain ⟨last', hlast'⟩ := Peer.exists_find?_id (List.mem_reverse.2 (List.mem_of_find?_eq_some hrest))
        rw [hnext] at hlast'
        rw [hlast', Option.some_or] at hlast
        rw [ih hrest (hlast'.trans hlast), hput, Option.getD_some, Node.renewed_renewed]
    · have hput : (s.putNode (.ofPeer p .ok)).node? id = s.node? id := by rw [node?_putPeer, if_neg hp]
      have hrest : peers.find? (fun q => q.id = id) = some first := by simpa [hp] using hfirst
      have hlast' : peers.reverse.find? (fun q => q.id = id) = some last := by simpa [hp] using hlast
      rw [ih hrest hlast', hput]

theorem sampleTable_putPeers (s : Store) (peers : List Peer) : (s.putPeers peers).sampleTable = s.sampleTable := by
  induction peers generalizing s with
  | nil => rfl
  | cons p peers ih => exact ih (s.putNode (.ofPeer p .ok))

/-- The store after peers have been told of. Each id among theirs has the record that it had, or else that of its first
peer, and is well from then on under the name of its last. Every other record stays as it is, and all samples do. -/
structure Absorbs (s : Store) (peers : List Peer) (t : Store) : Prop where
  record : ∀ p ∈ peers, ∃ first last, (peers.find? fun q => q.id = p.id) = some first ∧
    (peers.reverse.find? fun q => q.id = p.id) = some last ∧
    t.node? p.id = some { (s.node? p.id).getD (.ofPeer first .ok) with name := last.name, health := .ok, changedAt := 0 }
  others : ∀ id, (∀ p ∈ peers, p.id ≠ id) → t.node? id = s.node? id
  remains : ∀ id n, s.node? id = some n → ∃ n', t.node? id = some n' ∧ n'.target = n.target
  samples : t.sampleTable = s.sampleTable

theorem absorbs_putPeers (s : Store) (peers : List Peer) : s.Absorbs peers (s.putPeers peers) where
  record p hp := by
    obtain ⟨first, hfirst⟩ := Peer.exists_find?_id hp
    obtain ⟨last, hlast⟩ := Peer.exists_find?_id (List.mem_reverse.2 hp)
    exact ⟨first, last, hfirst, hlast, node?_putPeers hfirst hlast s⟩
  others id h := node?_putPeers_of_ne h s
  remains := (s.keeps_putPeers peers).target
  samples := s.sampleTable_putPeers peers

end Store

/-! ## Attempts to join -/

theorem Profile.absorbs_adopt (me : Profile) (candidate : String) (reply : JoinReply) (s : Store) :
    s.Absorbs (me.told candidate reply) (me.adopt candidate reply s) :=
  s.absorbs_putPeers (me.told candidate reply)

/-- The network gives no call to the node with the given number. -/
def Network.Spares (σ : Type) [Network σ] (i : Nat) : Prop :=
  ∀ (n : σ) (channel : Channel) (request : Request), (Network.call n channel request).1 ≠ .serve i

namespace World

variable {σ : Type} [Network σ]

theorem node?_perform_of_outward {j : Nat} (hj : Network.Spares σ j) (w : World σ) (i : Nat) (ticket : Ticket) {e : Effect}
    (he : e.Outward) : (w.perform i ticket e).2.node? j = w.node? j := by
  obtain ⟨f, hf, haltered⟩ := w.exists_alters i ticket e j
  cases hf with
  | nothing => exact haltered.trans Option.map_id'
  | own hchange =>
    subst hchange
    exact he.elim
  | served hcall hserve => exact absurd hserve (hj _ _ _)

/-- Whoever is never called by way of the network has the store that it had, however many candidates have been asked. -/
theorem node?_asked {j : Nat} (hj : Network.Spares σ j) (me : Profile) (i : Nat) (ticket : Ticket) (cs : List String)
    (w : World σ) : (me.asked (answer i ticket) cs w).node? j = w.node? j := by
  induction cs generalizing w with
  | nil => rfl
  | cons c cs ih =>
    rw [Profile.asked, ih]
    exact node?_run_of_perform (fun w _ he => w.node?_perform_of_outward hj i ticket he) (me.only_outward_requestJoin c) w

theorem node?_attempted_of_spares {w : World σ} {i : Fin w.members.length} (hi : Network.Spares σ i) (cs : List String)
    (n : Nat) : (w.attempted i cs n).node? i = w.node? i :=
  node?_asked hi _ _ _ _ _

/-- A node that any answer lets in, with any store, puts in who gave the answer and all it tells of, and changes nothing
else. A member that joins does just that to the store it has when the first answer is there, if that answer lets it in. No
attempt before changes that store, unless the network gives the node one of its own calls. -/
theorem join_absorbs (me : Profile) (c : String) (reply : JoinReply) (s : Store) :
    s.Absorbs (me.told c reply) (me.adopt c reply s) ∧
    ∀ {σ : Type} [Network σ] (w : World σ) (i : Fin w.members.length) (cs : List String) (k : Nat) (before : Store),
      w.node? i = some (me, before) → FirstAnswer (w.attempt i cs) k reply → reply.nameUnique = true →
      cs[k]? = some c →
      ((w.attempted i cs (k + 1)).node? i = some (me, s) →
        ∃ w', w.run i (me.join cs) = (some (.joined reply.responder), w') ∧
          ∀ j, w'.node? j = if j = i then some (me, me.adopt c reply s) else (w.attempted i cs (k + 1)).node? j) ∧
      (Network.Spares σ i → (w.attempted i cs (k + 1)).node? i = some (me, before)) := by
  refine ⟨me.absorbs_adopt c reply s, ?_⟩
  intro σ _ w i cs k before hbefore hfirst hin hc
  refine ⟨fun hs => ?_, fun hi => (node?_attempted_of_spares hi cs (k + 1)).trans hbefore⟩
  obtain ⟨x, hx, hxs⟩ := Option.map_eq_some_iff.1 hs
  obtain ⟨hprofile, rfl⟩ := Prod.mk.inj hxs
  have hme : w.members[i].profile = me := by
    have hnode : w.node? i = some (w.members[i].profile, w.members[i].store) := by
      rw [node?, List.getElem?_eq_getElem i.2]
      rfl
    exact congrArg Prod.fst (Option.some.inj (hnode.symm.trans hbefore))
  have hrun := run_join_upto hfirst hc
  rw [hin, if_pos rfl, hme] at hrun
  refine ⟨_, hrun, fun j => ?_⟩
  rw [node?_onStore _ hx, hprofile]

end World

/-- Whoever answers a call on a network by script is not in the world. -/
theorem ScriptedNetwork.spares (i : Nat) : Network.Spares ScriptedNetwork i := by
  intro n channel request h
  simp only [Network.call] at h
  split at h
  · cases h
  · cases h

/-- A node that knows of a peer at `ntf:1`, and has seen it get worse. No other target listens than `ajtr:1`, which has the
same id. -/
def parish : World ScriptedNetwork where
  members := [{ profile := { name := "a", target := "a:1" },
                store := ((Store.letIn {} ⟨"o", "ntf:1"⟩).setHealth (.ofTarget "ntf:1") .warning 7).2 }]
  network := ScriptedNetwork.setRoute {} "ajtr:1" { calls := ⟨[.now (.respond (.joinMesh
    ⟨true, "c", [⟨"a", "a:1"⟩, ⟨"x", "x:1"⟩, ⟨"d", "ajtr:1"⟩, ⟨"y", "x:1"⟩]⟩))]⟩ }

namespace parish

/-- The list tells of the node itself, which is left out, of one peer twice, and of the member that answers. -/
theorem word_taken :
    ∃ me s w', parish.node? 0 = some (me, s) ∧
      parish.run 0 (me.join ["b:1", "ajtr:1"]) = (some (.joined "c"), w') ∧
      (w'.node? 0).map (fun x => x.2.nodes) =
        some [⟨.ofTarget "ajtr:1", "d", "ntf:1", .ok, 0⟩, ⟨.ofTarget "x:1", "y", "x:1", .ok, 0⟩] := by
  let i : Fin parish.members.length := ⟨0, by decide⟩
  have hfirst : FirstAnswer (parish.attempt i ["b:1", "ajtr:1"]) 1
      ⟨true, "c", [⟨"a", "a:1"⟩, ⟨"x", "x:1"⟩, ⟨"d", "ajtr:1"⟩, ⟨"y", "x:1"⟩]⟩ := by
    refine ⟨by rfl, fun p hp => ?_⟩
    cases Nat.lt_one_iff.1 hp
    exact ⟨_, rfl⟩
  obtain ⟨-, hjoin⟩ := World.join_absorbs parish.members[i].profile "ajtr:1" _ parish.members[i].store
  obtain ⟨hrun, hsame⟩ := hjoin parish i _ 1 _ rfl hfirst rfl rfl
  obtain ⟨w', hrun, hnode⟩ := hrun (hsame (ScriptedNetwork.spares i))
  refine ⟨_, _, w', rfl, hrun, ?_⟩
  rw [hnode 0]
  decide +kernel

end parish

end PeerMesh
