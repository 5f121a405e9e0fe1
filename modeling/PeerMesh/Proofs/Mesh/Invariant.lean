import PeerMesh.Proofs.Identity
import PeerMesh.Proofs.Mesh.Basic

/-!
# What holds in every mesh

As long as no two of the targets share a digest, stores and messages tell only of nodes that have been let in,
and tell of them as they are.

* `Mesh.Grows` : a node that was let in stays, with its profile (`Mesh.grows_of_step?`);
* `Mesh.Holds` : a peer is a node that was let in;
* `Mesh.Placed` : every node is at its own address (`Mesh.Placed.step`);
* `Mesh.Seat`, `Mesh.Sound` : what holds of every node and of every announcement (`Mesh.Sound.step`).
-/

namespace PeerMesh.Mesh

variable {T : List String} {m m' : Mesh}

/-! ## Nodes that stay -/

def Grows (m m' : Mesh) : Prop :=
  ∀ t r, m.resident? t = some r → r.standing.accepted = true →
    ∃ r', m'.resident? t = some r' ∧ r'.profile = r.profile ∧ r'.standing.accepted = true ∧
      (r.standing = .member → r'.standing = .member)

def Holds (m : Mesh) (p : Peer) : Prop :=
  ∃ r, m.resident? p.target = some r ∧ r.profile.peer = p ∧ r.standing.accepted = true

theorem Grows.holds (hg : Grows m m') {p : Peer} (hp : m.Holds p) : m'.Holds p := by
  obtain ⟨r, hr, hpeer, hacc⟩ := hp
  obtain ⟨r', hr', hprofile, hacc', -⟩ := hg _ r hr hacc
  exact ⟨r', hr', by rw [hprofile, hpeer], hacc'⟩

theorem Grows.isMember (hg : Grows m m') {t : String} (ht : m.IsMember t) : m'.IsMember t := by
  obtain ⟨r, hr, hm⟩ := ht
  obtain ⟨r', hr', -, -, hm'⟩ := hg t r hr (by rw [hm]; rfl)
  exact ⟨r', hr', hm' hm⟩

theorem Answers.ne_of_accepted {joiner host t : String} {j member r : Resident} (h : m.Answers joiner j host member)
    (hr : m.resident? t = some r) (hacc : r.standing.accepted = true) : t ≠ joiner := by
  rintro rfl
  rw [h.joinerAt] at hr
  cases hr
  rw [h.asking] at hacc
  cases hacc

theorem Receives.ne_of_member {joiner host t : String} {j r : Resident} {reply : JoinReply}
    (h : m.Receives joiner j host reply) (hr : m.resident? t = some r) (hs : r.standing = .member) : t ≠ joiner := by
  rintro rfl
  obtain rfl := Option.some.inj (hr.symm.trans h.joinerAt)
  cases hs.symm.trans h.answered

theorem Hears.resident_before {word : Word} (h : m.Hears word m') {t : String} {r' : Resident}
    (hr' : m'.resident? t = some r') : ∃ r, m.resident? t = some r ∧ r'.standing = r.standing := by
  rw [h.residents] at hr'
  split at hr'
  · obtain ⟨r, hr, rfl⟩ := Option.map_eq_some_iff.1 hr'
    exact ⟨r, hr, rfl⟩
  · exact ⟨r', hr', rfl⟩

theorem grows_of_step? {move : Move} (h : m.step? move = some m') : Grows m m' := by
  refine step?_induction (P := Grows) h ?_ ?_ ?_ ?_ ?_ ?_
  · intro node host _ h t r hr hacc
    refine ⟨r, ?_, rfl, hacc, id⟩
    rw [h.residents, if_neg, hr]
    rintro rfl
    rw [h.fresh] at hr
    cases hr
  · intro joiner j host member h t r hr hacc
    exact ⟨r, by rw [h.residents, if_neg (h.ne_of_accepted hr hacc), hr], rfl, hacc, id⟩
  · intro joiner j host member h t r hr hacc
    rw [h.residents, if_neg (h.ne_of_accepted hr hacc)]
    split
    · rename_i ht
      rw [ht, h.hostAt] at hr
      cases hr
      exact ⟨_, rfl, rfl, hacc, id⟩
    · exact ⟨r, hr, rfl, hacc, id⟩
  · intro joiner j host reply h t r hr hacc
    rw [h.residents]
    split
    · rename_i ht
      rw [ht, h.joinerAt] at hr
      cases hr
      exact ⟨_, rfl, rfl, rfl, fun _ => rfl⟩
    · exact ⟨r, hr, rfl, hacc, id⟩
  · intro joiner j host reply h t r hr hacc
    refine ⟨r, ?_, rfl, hacc, id⟩
    rw [h.residents, if_neg, hr]
    rintro rfl
    rw [h.joinerAt] at hr
    cases hr
    rw [h.answered, Standing.accepted, h.unique] at hacc
    cases hacc
  · intro word h t r hr hacc
    rw [h.residents]
    split
    · rw [hr]
      exact ⟨_, rfl, rfl, hacc, id⟩
    · exact ⟨r, hr, rfl, hacc, id⟩

/-! ## Nodes at their own addresses -/

/-- Every node is at its own address, one of `T`, and no two addresses of `T` share a digest. -/
structure Placed (T : List String) (m : Mesh) : Prop where
  apart : DigestsApart T
  target : ∀ t r, m.resident? t = some r → r.profile.target = t
  listed : ∀ t r, m.resident? t = some r → t ∈ T

theorem Placed.eq_of_id (hm : Placed T m) {p q : Peer} (hp : m.Holds p) (hq : m.Holds q) (hid : q.id = p.id) :
    q = p := by
  obtain ⟨r, hr, rfl, -⟩ := hp
  obtain ⟨r', hr', rfl, -⟩ := hq
  have ht := hm.apart.target_eq (hm.listed _ _ hr') (hm.listed _ _ hr) hid
  rw [ht, hr] at hr'
  cases hr'
  rfl

/-- Only fresh nodes come in, and no profile changes. -/
theorem profile_of_step? {move : Move} (h : m.step? move = some m') {t : String} {r' : Resident}
    (hr' : m'.resident? t = some r') :
    (∃ r, m.resident? t = some r ∧ r'.profile = r.profile) ∨
      (move.fresh? = some r'.profile ∧ r'.profile.target = t ∧ m.resident? t = none) := by
  revert hr'
  refine step?_induction (P := fun m m' => m'.resident? t = some r' →
    (∃ r, m.resident? t = some r ∧ r'.profile = r.profile) ∨
      (move.fresh? = some r'.profile ∧ r'.profile.target = t ∧ m.resident? t = none)) h ?_ ?_ ?_ ?_ ?_ ?_
  · intro node host hmove h hr'
    rw [h.residents] at hr'
    split at hr'
    · rename_i ht
      cases hr'
      exact Or.inr ⟨by rw [hmove]; rfl, ht.symm, ht ▸ h.fresh⟩
    · exact Or.inl ⟨r', hr', rfl⟩
  · intro joiner j host member h hr'
    rw [h.residents] at hr'
    split at hr'
    · rename_i ht
      cases hr'
      exact Or.inl ⟨j, ht ▸ h.joinerAt, rfl⟩
    · exact Or.inl ⟨r', hr', rfl⟩
  · intro joiner j host member h hr'
    rw [h.residents] at hr'
    split at hr'
    · rename_i ht
      cases hr'
      exact Or.inl ⟨j, ht ▸ h.joinerAt, rfl⟩
    · split at hr'
      · rename_i ht
        cases hr'
        exact Or.inl ⟨member, ht ▸ h.hostAt, rfl⟩
      · exact Or.inl ⟨r', hr', rfl⟩
  · intro joiner j host reply h hr'
    rw [h.residents] at hr'
    split at hr'
    · rename_i ht
      cases hr'
      exact Or.inl ⟨j, ht ▸ h.joinerAt, rfl⟩
    · exact Or.inl ⟨r', hr', rfl⟩
  · intro joiner j host reply h hr'
    rw [h.residents] at hr'
    split at hr'
    · cases hr'
    · exact Or.inl ⟨r', hr', rfl⟩
  · intro word h hr'
    rw [h.residents] at hr'
    split at hr'
    · obtain ⟨r, hr, rfl⟩ := Option.map_eq_some_iff.1 hr'
      exact Or.inl ⟨r, hr, rfl⟩
    · exact Or.inl ⟨r', hr', rfl⟩

theorem Placed.step (hm : Placed T m) {move : Move} (h : m.step? move = some m')
    (hT : ∀ node ∈ move.fresh?, node.target ∈ T) : Placed T m' where
  apart := hm.apart
  target t r' hr' := by
    rcases profile_of_step? h hr' with ⟨r, hr, hp⟩ | ⟨-, ht, -⟩
    · rw [hp, hm.target t r hr]
    · exact ht
  listed t r' hr' := by
    rcases profile_of_step? h hr' with ⟨r, hr, -⟩ | ⟨hf, ht, -⟩
    · exact hm.listed t r hr
    · rw [← ht]
      exact hT _ hf

/-! ## What nodes and announcements tell of -/

/-- What holds of the node `r` at the address `t`: it tells of nodes that were let in, and not of itself. -/
structure Seat (m : Mesh) (t : String) (r : Resident) : Prop where
  /-- A node that has not been let in has an empty store. -/
  blank : r.standing.accepted = false → r.store = {}
  host : ∀ host, r.standing.host? = some host → m.IsMember host
  store : r.store.Lists fun p => m.Holds p ∧ p.target ≠ t
  reply : ∀ host reply, r.standing = .answered host reply → reply.nameUnique = true →
    m.Holds ⟨reply.responder, host⟩ ∧ ∀ p ∈ reply.nodes, m.Holds p

structure Addressed (m : Mesh) (w : Word) : Prop where
  listener : ∃ p, m.Holds p ∧ p.target = w.listener
  newcomer : m.Holds w.said.newcomer
  announcer : m.Holds w.said.announcer

structure Sound (T : List String) (m : Mesh) : Prop extends Placed T m where
  seat : ∀ t r, m.resident? t = some r → m.Seat t r
  word : ∀ w ∈ m.words, m.Addressed w

theorem Seat.mono (hg : Grows m m') {t : String} {r : Resident} (hs : m.Seat t r) : m'.Seat t r where
  blank := hs.blank
  host host h := hg.isMember (hs.host host h)
  store := hs.store.mono fun _ hp => ⟨hg.holds hp.1, hp.2⟩
  reply host reply h hu := by
    obtain ⟨hhost, hnodes⟩ := hs.reply host reply h hu
    exact ⟨hg.holds hhost, fun p hp => hg.holds (hnodes p hp)⟩

theorem Addressed.mono (hg : Grows m m') {w : Word} (hw : m.Addressed w) : m'.Addressed w where
  listener := by
    obtain ⟨p, hp, ht⟩ := hw.listener
    exact ⟨p, hg.holds hp, ht⟩
  newcomer := hg.holds hw.newcomer
  announcer := hg.holds hw.announcer

theorem Placed.holds (hm : Placed T m) {t : String} {r : Resident} (hr : m.resident? t = some r)
    (hacc : r.standing.accepted = true) : m.Holds r.profile.peer :=
  ⟨r, by rw [Profile.peer, hm.target t r hr, hr], rfl, hacc⟩

/-- The asked node is a member, and another one than the joiner. -/
theorem Sound.host_standing (hm : Sound T m) {joiner host : String} {j member : Resident}
    (h : m.Answers joiner j host member) : member.standing = .member ∧ host ≠ joiner := by
  obtain ⟨r, hr, hmem⟩ := (hm.seat _ _ h.joinerAt).host host (by rw [h.asking]; rfl)
  rw [h.hostAt] at hr
  cases hr
  exact ⟨hmem, h.ne_of_accepted h.hostAt (by rw [hmem]; rfl)⟩

theorem Accepts.holds_joiner (hm' : Placed T m') {joiner host : String} {j member : Resident}
    (h : m.Accepts joiner j host member m') : m'.Holds j.profile.peer := by
  have hj : m'.resident? joiner = some { j with standing := .answered host (member.welcome j.profile.peer) } := by
    rw [h.residents, if_pos rfl]
  have hheld := hm'.holds hj rfl
  exact hheld

section Step

variable (hm : Sound T m) (hm' : Placed T m') (hg : Grows m m')

include hm hm' hg

theorem Sound.asks {node : Profile} {host : String} (h : m.Asks node host m') : Sound T m' where
  toPlaced := hm'
  seat t r hr := by
    rw [h.residents] at hr
    split at hr
    · cases hr
      exact
        { blank := fun _ => rfl
          host := fun _ hh => by
            cases hh
            exact hg.isMember h.hostIn
          store := .empty
          reply := fun _ _ hh => by cases hh }
    · exact (hm.seat t r hr).mono hg
  word w hw := (hm.word w (h.words ▸ hw)).mono hg

theorem Sound.refuses {joiner host : String} {j member : Resident} (h : m.Refuses joiner j host member m') :
    Sound T m' where
  toPlaced := hm'
  seat t r hr := by
    rw [h.residents] at hr
    split at hr
    · rename_i ht
      subst ht
      cases hr
      have hs := (hm.seat _ _ h.joinerAt).mono hg
      exact
        { blank := fun _ => hs.blank (by rw [h.asking]; rfl)
          host := fun _ hh => hs.host _ (by rw [h.asking]; exact hh)
          store := hs.store
          reply := fun _ _ hh hu => by
            cases hh
            cases hu }
    · exact (hm.seat t r hr).mono hg
  word w hw := (hm.word w (h.words ▸ hw)).mono hg

theorem Sound.lists_letIn {joiner host : String} {j member : Resident} (h : m.Accepts joiner j host member m') :
    (member.store.letIn j.profile.peer).Lists fun p => m'.Holds p ∧ p.target ≠ host := by
  have hjoiner := h.holds_joiner hm'
  have hne : j.profile.peer.target ≠ host := by
    rw [Profile.peer, hm.target _ _ h.joinerAt]
    exact (hm.host_standing h.toAnswers).2.symm
  exact ((hm.seat _ _ h.hostAt).mono hg).store.letIn ⟨hjoiner, hne⟩ fun q hq hid => hm'.eq_of_id hjoiner hq.1 hid

theorem Sound.accepts {joiner host : String} {j member : Resident} (h : m.Accepts joiner j host member m') :
    Sound T m' := by
  have hjoiner := h.holds_joiner hm'
  have hlists := hm.lists_letIn hm' hg h
  obtain ⟨hmem, hne⟩ := hm.host_standing h.toAnswers
  have hmember : m'.Holds member.profile.peer := hg.holds (hm.holds h.hostAt (by rw [hmem]; rfl))
  refine { toPlaced := hm', seat := fun t r hr => ?_, word := fun w hw => ?_ }
  · rw [h.residents] at hr
    split at hr
    · rename_i ht
      subst ht
      cases hr
      have hs := (hm.seat _ _ h.joinerAt).mono hg
      refine
        { blank := fun hacc => by cases hacc
          host := fun _ hh => hs.host _ (by rw [h.asking]; exact hh)
          store := hs.store
          reply := fun _ _ hh _ => ?_ }
      cases hh
      refine ⟨?_, fun p hp => ?_⟩
      · rw [← hm.target _ _ h.hostAt]
        exact hmember
      · obtain ⟨n, hn, rfl⟩ := List.mem_map.1 hp
        obtain ⟨q, hq, rfl⟩ := hlists.of_mem hn
        exact hq.1
    · split at hr
      · rename_i ht
        subst ht
        cases hr
        have hs := (hm.seat _ _ h.hostAt).mono hg
        exact
          { blank := fun hacc => by
              rw [hmem] at hacc
              cases hacc
            host := hs.host
            store := hlists
            reply := hs.reply }
      · exact (hm.seat t r hr).mono hg
  · rw [h.words] at hw
    rcases List.mem_append.1 hw with hw | hw
    · exact (hm.word w hw).mono hg
    · obtain ⟨n, hn, rfl⟩ := List.mem_map.1 hw
      obtain ⟨x, hx, -, -, rfl⟩ := Profile.mem_notices.1 hn
      obtain ⟨p, hp, rfl⟩ := hlists.of_mem hx
      exact ⟨⟨p, hp.1, rfl⟩, hjoiner, hmember⟩

theorem Sound.settles {joiner host : String} {j : Resident} {reply : JoinReply}
    (h : m.Settles joiner j host reply m') : Sound T m' where
  toPlaced := hm'
  seat t r hr := by
    rw [h.residents] at hr
    split at hr
    · rename_i ht
      subst ht
      cases hr
      have hs := (hm.seat _ _ h.joinerAt).mono hg
      obtain ⟨hhost, hnodes⟩ := hs.reply host reply h.answered h.unique
      obtain ⟨r, hr, hmem⟩ := (hm.seat _ _ h.joinerAt).host host (by rw [h.answered]; rfl)
      have hne : host ≠ t := h.ne_of_member hr hmem
      refine
        { blank := fun hacc => by cases hacc
          host := fun _ hh => by cases hh
          store := hs.store.adopt j.profile ⟨hhost, hne⟩ (fun p hp hid => ⟨hnodes p hp, ?_⟩)
            fun p q hp hq => hm'.eq_of_id hp.1 hq.1
          reply := fun _ _ hh => by cases hh }
      rintro rfl
      rw [Profile.id, hm.target _ _ h.joinerAt] at hid
      exact hid rfl
    · exact (hm.seat t r hr).mono hg
  word w hw := (hm.word w (h.words ▸ hw)).mono hg

theorem Sound.leaves {joiner host : String} {j : Resident} {reply : JoinReply}
    (h : m.Leaves joiner j host reply m') : Sound T m' where
  toPlaced := hm'
  seat t r hr := by
    rw [h.residents] at hr
    split at hr
    · cases hr
    · exact (hm.seat t r hr).mono hg
  word w hw := (hm.word w (h.words ▸ hw)).mono hg

theorem Sound.hears {word : Word} (h : m.Hears word m') : Sound T m' where
  toPlaced := hm'
  seat t r hr := by
    rw [h.residents] at hr
    split at hr
    · rename_i ht
      subst ht
      obtain ⟨j, hj, rfl⟩ := Option.map_eq_some_iff.1 hr
      have hs := (hm.seat _ _ hj).mono hg
      have hw := (hm.word word h.underWay).mono hg
      have hother : ∀ p : Peer, p.id ≠ j.profile.id → p.target ≠ word.listener := by
        intro p hid hp
        rw [Profile.id, hm.target _ _ hj, ← hp] at hid
        exact hid rfl
      refine
        { blank := fun hacc => ?_
          host := hs.host
          store := hs.store.learn j.profile (fun hid => ⟨hw.newcomer, hother _ hid⟩)
            fun hid => ⟨hw.announcer, hother _ hid⟩
          reply := hs.reply }
      obtain ⟨p, ⟨r', hr', -, hacc'⟩, hp⟩ := (hm.word word h.underWay).listener
      rw [hp, hj] at hr'
      cases hr'
      exact absurd hacc' (Bool.eq_false_iff.1 hacc)
    · exact (hm.seat t r hr).mono hg
  word w hw := (hm.word w (List.mem_of_mem_erase (h.words ▸ hw))).mono hg

end Step

theorem Sound.step (hm : Sound T m) {move : Move} (h : m.step? move = some m') (hT : ∀ node ∈ move.fresh?, node.target ∈ T) :
    Sound T m' := by
  have hg := grows_of_step? h
  have hm' := hm.toPlaced.step h hT
  revert hg hm'
  refine step?_induction (P := fun _ m' => Grows m m' → Placed T m' → Sound T m') h ?_ ?_ ?_ ?_ ?_ ?_
  · exact fun _ h hg hm' => hm.asks hm' hg h
  · exact fun h hg hm' => hm.refuses hm' hg h
  · exact fun h hg hm' => hm.accepts hm' hg h
  · exact fun h hg hm' => hm.settles hm' hg h
  · exact fun h hg hm' => hm.leaves hm' hg h
  · exact fun h hg hm' => hm.hears hm' hg h

theorem resident?_start (root : Profile) (t : String) :
    (start root).resident? t = if t = root.target then some ⟨root, {}, .member⟩ else none := by
  show (Table.insert {} root.target _).get? t = _
  rw [Table.get?_insert, Table.get?_empty]

theorem Sound.start (hT : DigestsApart T) {root : Profile} (hroot : root.target ∈ T) :
    Sound T (Mesh.start root) := by
  have hres : ∀ t r, (Mesh.start root).resident? t = some r → t = root.target ∧ r = ⟨root, {}, .member⟩ := by
    intro t r hr
    rw [resident?_start] at hr
    split at hr
    · rename_i ht
      cases hr
      exact ⟨ht, rfl⟩
    · cases hr
  refine { apart := hT, target := ?_, listed := ?_, seat := ?_, word := fun w hw => by cases hw }
  · intro t r hr
    obtain ⟨rfl, rfl⟩ := hres t r hr
    rfl
  · intro t r hr
    obtain ⟨rfl, rfl⟩ := hres t r hr
    exact hroot
  · intro t r hr
    obtain ⟨rfl, rfl⟩ := hres t r hr
    exact
      { blank := fun _ => rfl
        host := fun _ hh => by cases hh
        store := .empty
        reply := fun _ _ hh => by cases hh }

end PeerMesh.Mesh
