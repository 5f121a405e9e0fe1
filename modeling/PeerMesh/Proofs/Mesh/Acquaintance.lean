import PeerMesh.Proofs.Mesh.Invariant

/-!
# Who knows whom after joins that overlap

An announcement goes to the nodes that the announcing member knows, and goes no further. So nodes learn of
each other only when one of them is let in by the other, or by a member that knows the other by then.

* `Mesh.Informed` : a node knows another one, or a message that tells it is under way;
* `Mesh.Exact`, `Mesh.Tight` : the informed nodes are those that were introduced (`Tight.step`, `Tight.run`);
* `Mesh.acquainted_iff_introduced` : who knows whom in a quiet mesh;
* `Mesh.strangers_after_joins` : two members that never hear of each other.
-/

namespace PeerMesh

/-- What an answer under way tells its receiver of. -/
def Standing.Tells : Standing → String → Prop
  | answered host reply, target => reply.nameUnique = true ∧ (target = host ∨ ∃ p ∈ reply.nodes, p.target = target)
  | _, _ => False

def Announcement.Names (said : Announcement) (target : String) : Prop :=
  target = said.newcomer.target ∨ target = said.announcer.target

namespace Mesh

variable {T : List String} {m m' : Mesh} {t u : String}

def Awaits (m : Mesh) (target other : String) : Prop :=
  ∃ r, m.resident? target = some r ∧ (r.store.Knows (.ofTarget other) ∨ r.standing.Tells other)

def Announced (m : Mesh) (target other : String) : Prop := ∃ w ∈ m.words, w.listener = target ∧ w.said.Names other

def Informed (m : Mesh) (target other : String) : Prop := m.Awaits target other ∨ m.Announced target other

/-- Nodes are informed of exactly those that they were introduced to. -/
def Exact (T : List String) (m : Mesh) : Prop :=
  ∀ t u, u ∈ T → t ≠ u → (m.Informed t u ↔ m.Introduced t u)

theorem awaits_iff {r : Resident} (hr : m.resident? t = some r) :
    m.Awaits t u ↔ r.store.Knows (.ofTarget u) ∨ r.standing.Tells u := by
  constructor
  · rintro ⟨r', hr', h⟩
    rw [hr] at hr'
    cases hr'
    exact h
  · exact fun h => ⟨r, hr, h⟩

theorem not_awaits (hr : m.resident? t = none) : ¬ m.Awaits t u := by
  rintro ⟨r, hr', -⟩
  rw [hr] at hr'
  cases hr'

theorem awaits_congr (h : m'.resident? t = m.resident? t) : m'.Awaits t u ↔ m.Awaits t u := by
  unfold Awaits
  rw [h]

theorem informed_congr (hw : m'.words = m.words) (ha : m'.Awaits t u ↔ m.Awaits t u) :
    m'.Informed t u ↔ m.Informed t u := by
  unfold Informed Announced
  rw [ha, hw]

theorem introduced_congr (h : m'.introductions = m.introductions) : m'.Introduced t u ↔ m.Introduced t u := by
  unfold Introduced
  rw [h]

theorem Placed.ofTarget_eq_iff (hm : Placed T m) (hu : u ∈ T) {p : Peer} (hp : m.Holds p) :
    NodeId.ofTarget u = p.id ↔ u = p.target := by
  obtain ⟨r, hr, -⟩ := hp
  constructor
  · exact hm.apart.target_eq hu (hm.listed _ _ hr)
  · rintro rfl
    rfl

/-! ## What each move tells whom -/

theorem Asks.awaits {node : Profile} {host : String} (h : m.Asks node host m') : m'.Awaits t u ↔ m.Awaits t u := by
  by_cases ht : t = node.target
  · have hr : m'.resident? t = some ⟨node, {}, .asking host⟩ := by rw [h.residents, if_pos ht]
    rw [awaits_iff hr]
    refine iff_of_false ?_ (not_awaits (ht ▸ h.fresh))
    rintro (hk | htells)
    · exact Store.not_knows_empty _ hk
    · exact htells
  · exact awaits_congr (by rw [h.residents, if_neg ht])

theorem Refuses.awaits {joiner host : String} {j member : Resident} (h : m.Refuses joiner j host member m') :
    m'.Awaits t u ↔ m.Awaits t u := by
  by_cases ht : t = joiner
  · subst ht
    have hr : m'.resident? t = some { j with standing := .answered host member.refusal } := by
      rw [h.residents, if_pos rfl]
    rw [awaits_iff hr, awaits_iff h.joinerAt, h.asking]
    simp [Standing.Tells, Resident.refusal]
  · exact awaits_congr (by rw [h.residents, if_neg ht])

theorem Leaves.awaits (hm : Sound T m) {joiner host : String} {j : Resident} {reply : JoinReply}
    (h : m.Leaves joiner j host reply m') : m'.Awaits t u ↔ m.Awaits t u := by
  by_cases ht : t = joiner
  · subst ht
    have hr : m'.resident? t = none := by rw [h.residents, if_pos rfl]
    have hblank : j.store = {} := (hm.seat _ _ h.joinerAt).blank (by rw [h.answered]; exact h.unique)
    refine iff_of_false (not_awaits hr) ?_
    rw [awaits_iff h.joinerAt, h.answered, hblank]
    rintro (hk | ⟨hu, -⟩)
    · exact Store.not_knows_empty _ hk
    · rw [h.unique] at hu
      cases hu
  · exact awaits_congr (by rw [h.residents, if_neg ht])

theorem Settles.awaits (hm : Sound T m) {joiner host : String} {j : Resident} {reply : JoinReply}
    (h : m.Settles joiner j host reply m') (hu : u ∈ T) (hne : t ≠ u) : m'.Awaits t u ↔ m.Awaits t u := by
  by_cases ht : t = joiner
  · subst ht
    have hr : m'.resident? t = some { j with store := j.profile.adopt host reply j.store, standing := .member } := by
      rw [h.residents, if_pos rfl]
    obtain ⟨hhost, hnodes⟩ := (hm.seat _ _ h.joinerAt).reply host reply h.answered h.unique
    have hself : ∀ p ∈ reply.nodes, (p.id ≠ j.profile.id ∧ NodeId.ofTarget u = p.id) ↔ p.target = u := by
      intro p hp
      rw [hm.ofTarget_eq_iff hu (hnodes p hp)]
      constructor
      · exact fun hp => hp.2.symm
      · rintro rfl
        refine ⟨fun hid => hne ?_, rfl⟩
        rw [Profile.id, hm.target _ _ h.joinerAt] at hid
        exact (hm.apart.target_eq hu (hm.listed _ _ h.joinerAt) hid).symm
    have hnames : (∃ p ∈ reply.nodes, p.id ≠ j.profile.id ∧ NodeId.ofTarget u = p.id) ↔
        ∃ p ∈ reply.nodes, p.target = u :=
      exists_congr fun p => and_congr_right (hself p)
    have hhostId : NodeId.ofTarget u = .ofTarget host ↔ u = host := hm.ofTarget_eq_iff hu hhost
    rw [awaits_iff hr, awaits_iff h.joinerAt, h.answered, Profile.knows_adopt, hnames, hhostId]
    simp only [Standing.Tells, h.unique, true_and, or_false]
    exact or_assoc.symm.trans or_comm
  · exact awaits_congr (by rw [h.residents, if_neg ht])

theorem Hears.awaits (hm : Sound T m) {word : Word} (h : m.Hears word m') (hu : u ∈ T) (hne : t ≠ u) :
    m'.Awaits t u ↔ m.Awaits t u ∨ t = word.listener ∧ word.said.Names u := by
  by_cases ht : t = word.listener
  · subst ht
    have hw := hm.word word h.underWay
    obtain ⟨p, ⟨r, hr, -, -⟩, hp⟩ := hw.listener
    rw [hp] at hr
    have hr' : m'.resident? word.listener = some { r with store := r.profile.learn word.said r.store } := by
      rw [h.residents, if_pos rfl, hr]
      rfl
    have hself : ∀ p, m.Holds p → (NodeId.ofTarget u = p.id ∧ p.id ≠ r.profile.id ↔ u = p.target) := by
      intro p hp
      rw [hm.ofTarget_eq_iff hu hp]
      constructor
      · exact fun h => h.1
      · rintro rfl
        refine ⟨rfl, fun hid => hne ?_⟩
        rw [Profile.id, hm.target _ _ hr] at hid
        exact (hm.apart.target_eq hu (hm.listed _ _ hr) hid).symm
    rw [awaits_iff hr', awaits_iff hr, Profile.knows_learn, hself _ hw.newcomer, hself _ hw.announcer]
    simp only [Announcement.Names, true_and]
    tauto
  · have hsame : m'.resident? t = m.resident? t := by rw [h.residents, if_neg ht]
    rw [awaits_congr hsame]
    simp only [ht, false_and, or_false]

theorem Hears.announced {word : Word} (h : m.Hears word m') :
    m.Announced t u ↔ m'.Announced t u ∨ t = word.listener ∧ word.said.Names u := by
  constructor
  · rintro ⟨w, hw, rfl, hn⟩
    by_cases hww : w = word
    · subst hww
      exact Or.inr ⟨rfl, hn⟩
    · refine Or.inl ⟨w, ?_, rfl, hn⟩
      rw [h.words]
      exact (List.mem_erase_of_ne hww).2 hw
  · rintro (⟨w, hw, hn⟩ | ⟨rfl, hn⟩)
    · rw [h.words] at hw
      exact ⟨w, List.mem_of_mem_erase hw, hn⟩
    · exact ⟨word, h.underWay, rfl, hn⟩

/-! ## What a joiner that is let in tells whom -/

section Accepts

variable {joiner host : String} {j member : Resident}

theorem Accepts.not_knows (hm : Sound T m) (h : m.Accepts joiner j host member m') :
    ¬ member.store.Knows j.profile.peer.id := by
  rintro ⟨n, hn⟩
  obtain ⟨p, ⟨⟨r, hr, -, hacc⟩, -⟩, hid, -⟩ := (hm.seat _ _ h.hostAt).store _ _ hn
  have hj : j.profile.target = joiner := hm.target _ _ h.joinerAt
  refine h.ne_of_accepted hr hacc ?_
  rw [← hj]
  refine hm.apart.target_eq (hm.listed _ _ hr) ?_ hid
  rw [hj]
  exact hm.listed _ _ h.joinerAt

/-- The nodes that the member knows are others than the joiner and the member. -/
theorem Accepts.of_known (hm : Sound T m) (h : m.Accepts joiner j host member m')
    (ht : t ∈ member.store.nodes.map Node.target) :
    t ≠ joiner ∧ t ≠ host ∧ ∃ p, m.Holds p ∧ p.target = t ∧ Node.ofPeer p .ok ∈ member.store.nodes := by
  obtain ⟨n, hn, rfl⟩ := List.mem_map.1 ht
  obtain ⟨p, ⟨⟨r, hr, hpeer, hacc⟩, hne⟩, rfl⟩ := (hm.seat _ _ h.hostAt).store.of_mem hn
  exact ⟨h.ne_of_accepted hr hacc, hne, p, ⟨r, hr, hpeer, hacc⟩, rfl, hn⟩

theorem Accepts.awaits_joiner (hm : Sound T m) (h : m.Accepts joiner j host member m') (hne : joiner ≠ u) :
    m'.Awaits joiner u ↔ m.Awaits joiner u ∨ u = host ∨ u ∈ member.store.nodes.map Node.target := by
  have hjoiner : j.profile.peer.target = joiner := hm.target _ _ h.joinerAt
  have hr : m'.resident? joiner = some { j with standing := .answered host (member.welcome j.profile.peer) } := by
    rw [h.residents, if_pos rfl]
  have hblank : j.store = {} := (hm.seat _ _ h.joinerAt).blank (by rw [h.asking]; rfl)
  have hnew : (∃ p ∈ (member.store.letIn j.profile.peer).nodes.map Node.toPeer, p.target = u) ↔
      u ∈ member.store.nodes.map Node.target := by
    rw [Store.nodes_letIn (h.not_knows hm), List.map_append, List.map_singleton, Node.toPeer_ofPeer]
    simp only [List.mem_append, List.mem_singleton, List.mem_map]
    constructor
    · rintro ⟨p, ⟨n, hn, rfl⟩ | rfl, hp⟩
      · exact ⟨n, hn, hp⟩
      · exact absurd (hjoiner.symm.trans hp) hne
    · rintro ⟨n, hn, hp⟩
      exact ⟨n.toPeer, Or.inl ⟨n, hn, rfl⟩, hp⟩
  rw [awaits_iff hr, awaits_iff h.joinerAt, h.asking, hblank]
  simp only [Standing.Tells, Resident.welcome, hnew, true_and, or_false]

theorem Accepts.awaits_host (hm : Sound T m) (h : m.Accepts joiner j host member m') (hu : u ∈ T) :
    m'.Awaits host u ↔ m.Awaits host u ∨ u = joiner := by
  have hjoiner : j.profile.peer.target = joiner := hm.target _ _ h.joinerAt
  have hr : m'.resident? host = some { member with store := member.store.letIn j.profile.peer } := by
    rw [h.residents, if_neg (hm.host_standing h.toAnswers).2, if_pos rfl]
  have hid : NodeId.ofTarget u = j.profile.peer.id ↔ u = joiner := by
    constructor
    · intro hid
      rw [Peer.id, hjoiner] at hid
      exact hm.apart.target_eq hu (hm.listed _ _ h.joinerAt) hid
    · rintro rfl
      rw [Peer.id, hjoiner]
  rw [awaits_iff hr, awaits_iff h.hostAt, Store.knows_letIn, hid]
  tauto

theorem Accepts.awaits (hm : Sound T m) (h : m.Accepts joiner j host member m') (hu : u ∈ T) (hne : t ≠ u) :
    m'.Awaits t u ↔ m.Awaits t u ∨ (t = joiner ∧ (u = host ∨ u ∈ member.store.nodes.map Node.target)) ∨
      (t = host ∧ u = joiner) := by
  have hhost := (hm.host_standing h.toAnswers).2
  by_cases hj : t = joiner
  · subst hj
    rw [h.awaits_joiner hm hne]
    simp only [true_and, Ne.symm hhost, false_and, or_false]
  · by_cases hh : t = host
    · subst hh
      rw [h.awaits_host hm hu]
      simp only [hj, false_and, true_and, false_or]
    · rw [awaits_congr (show m'.resident? t = m.resident? t by rw [h.residents, if_neg hj, if_neg hh])]
      simp only [hj, hh, false_and, or_false]

theorem Accepts.announced (hm : Sound T m) (h : m.Accepts joiner j host member m') :
    m'.Announced t u ↔
      m.Announced t u ∨ t ∈ member.store.nodes.map Node.target ∧ (u = joiner ∨ u = host) := by
  have hjoiner : j.profile.peer.target = joiner := hm.target _ _ h.joinerAt
  have hmember : member.profile.peer.target = host := hm.target _ _ h.hostAt
  constructor
  · rintro ⟨w, hw, rfl, hn⟩
    rw [h.words] at hw
    rcases List.mem_append.1 hw with hw | hw
    · exact Or.inl ⟨w, hw, rfl, hn⟩
    · obtain ⟨n, hnotice, rfl⟩ := List.mem_map.1 hw
      obtain ⟨x, hx, hxj, -, rfl⟩ := Profile.mem_notices.1 hnotice
      rw [Store.nodes_letIn (h.not_knows hm)] at hx
      rcases List.mem_append.1 hx with hx | hx
      · refine Or.inr ⟨List.mem_map_of_mem hx, ?_⟩
        rw [← hjoiner, ← hmember]
        exact hn
      · rw [List.mem_singleton.1 hx] at hxj
        exact absurd rfl hxj
  · rintro (⟨w, hw, hn⟩ | ⟨ht, hn⟩)
    · refine ⟨w, ?_, hn⟩
      rw [h.words]
      exact List.mem_append_left _ hw
    · obtain ⟨htj, hth, p, hp, rfl, hx⟩ := h.of_known hm ht
      have hnotice : (⟨p, j.profile.peer⟩ : Notice) ∈
          member.profile.notices j.profile.peer (member.store.letIn j.profile.peer) := by
        refine Profile.mem_notices.2 ⟨.ofPeer p .ok, ?_, ?_, ?_, rfl⟩
        · rw [Store.nodes_letIn (h.not_knows hm)]
          exact List.mem_append_left _ hx
        · intro hid
          refine htj ((hm.ofTarget_eq_iff (hm.listed _ _ h.joinerAt) hp).1 ?_).symm
          rw [← hjoiner]
          exact hid.symm
        · intro hid
          refine hth ((hm.ofTarget_eq_iff (hm.listed _ _ h.hostAt) hp).1 ?_).symm
          rw [← hmember]
          exact hid.symm
      refine ⟨.ofNotice member.profile ⟨p, j.profile.peer⟩, ?_, rfl, ?_⟩
      · rw [h.words]
        exact List.mem_append_right _ (List.mem_map_of_mem hnotice)
      · rw [← hjoiner, ← hmember] at hn
        exact hn

theorem Accepts.introduced (h : m.Accepts joiner j host member m') :
    m'.Introduced t u ↔ m.Introduced t u ∨
      (t = joiner ∧ (u = host ∨ u ∈ member.store.nodes.map Node.target)) ∨
      (u = joiner ∧ (t = host ∨ t ∈ member.store.nodes.map Node.target)) := by
  unfold Introduced
  rw [h.introductions]
  simp only [List.mem_cons, exists_eq_or_imp, Introduction.met]
  rw [or_comm, @eq_comm _ joiner t, @eq_comm _ joiner u]

end Accepts

/-! ## Nobody is told more or less -/

theorem Exact.start (root : Profile) : Exact T (start root) := by
  intro t u _ _
  refine iff_of_false ?_ ?_
  · rintro (⟨r, hr, hk⟩ | ⟨w, hw, -⟩)
    · rw [resident?_start] at hr
      split at hr
      · cases hr
        rcases hk with hk | htells
        · exact Store.not_knows_empty _ hk
        · exact htells
      · cases hr
    · cases hw
  · rintro ⟨i, hi, -⟩
    cases hi

theorem Exact.accepts (he : Exact T m) (hm : Sound T m) {joiner host : String} {j member : Resident}
    (h : m.Accepts joiner j host member m') : Exact T m' := by
  intro t u hu hne
  have hknown : ∀ t ∈ member.store.nodes.map Node.target, m.Introduced t host := by
    intro t ht
    obtain ⟨-, hth, p, hp, rfl, hx⟩ := h.of_known hm ht
    obtain ⟨r, hr, -⟩ := hp
    refine ((he host p.target (hm.listed _ _ hr) hth.symm).1 (Or.inl ?_)).symm
    obtain ⟨id, hid⟩ := Store.mem_nodes.1 hx
    obtain ⟨q, -, rfl, hq⟩ := (hm.seat _ _ h.hostAt).store _ _ hid
    rw [awaits_iff h.hostAt]
    have hpq : p = q := congrArg Node.toPeer hq
    rw [hpq]
    exact Or.inl ⟨_, hid⟩
  have hold := he t u hu hne
  unfold Informed at hold ⊢
  rw [h.awaits hm hu hne, h.announced hm, h.introduced]
  constructor
  · rintro ((ha | hjoin | ⟨ht, huj⟩) | ha | ⟨ht, huj | huh⟩)
    · exact Or.inl (hold.1 (Or.inl ha))
    · exact Or.inr (Or.inl hjoin)
    · exact Or.inr (Or.inr ⟨huj, Or.inl ht⟩)
    · exact Or.inl (hold.1 (Or.inr ha))
    · exact Or.inr (Or.inr ⟨huj, Or.inr ht⟩)
    · rw [huh]
      exact Or.inl (hknown t ht)
  · rintro (hi | hjoin | ⟨huj, ht | ht⟩)
    · rcases hold.2 hi with ha | ha
      · exact Or.inl (Or.inl ha)
      · exact Or.inr (Or.inl ha)
    · exact Or.inl (Or.inr (Or.inl hjoin))
    · exact Or.inl (Or.inr (Or.inr ⟨ht, huj⟩))
    · exact Or.inr (Or.inr ⟨ht, Or.inl huj⟩)

theorem Exact.hears (he : Exact T m) (hm : Sound T m) {word : Word} (h : m.Hears word m') : Exact T m' := by
  intro t u hu hne
  rw [introduced_congr h.introductions, ← he t u hu hne]
  unfold Informed
  rw [h.awaits hm hu hne, h.announced]
  tauto

theorem Exact.step (he : Exact T m) (hm : Sound T m) {move : Move} (h : m.step? move = some m') : Exact T m' := by
  refine step?_induction (P := fun _ m' => Exact T m') h ?_ ?_ ?_ ?_ ?_ ?_
  · intro node host _ h t u hu hne
    rw [introduced_congr h.introductions, informed_congr h.words h.awaits]
    exact he t u hu hne
  · intro joiner j host member h t u hu hne
    rw [introduced_congr h.introductions, informed_congr h.words h.awaits]
    exact he t u hu hne
  · exact fun h => he.accepts hm h
  · intro joiner j host reply h t u hu hne
    rw [introduced_congr h.introductions, informed_congr h.words (h.awaits hm hu hne)]
    exact he t u hu hne
  · intro joiner j host reply h t u hu hne
    rw [introduced_congr h.introductions, informed_congr h.words (h.awaits hm)]
    exact he t u hu hne
  · exact fun h => he.hears hm h

structure Tight (T : List String) (m : Mesh) : Prop extends Sound T m where
  exact : Exact T m

theorem Tight.step (hm : Tight T m) {move : Move} (h : m.step? move = some m')
    (hT : ∀ node ∈ move.fresh?, node.target ∈ T) : Tight T m' :=
  ⟨hm.toSound.step h hT, hm.exact.step hm.toSound h⟩

theorem Tight.run (hm : Tight T m) {moves : List Move} (h : run moves m = some m')
    (hT : ∀ node ∈ joiners moves, node.target ∈ T) : Tight T m' := by
  refine run_induction (fun move hmove m m' hm h => hm.step h fun node hnode => ?_) hm h
  exact hT node (List.mem_filterMap.2 ⟨move, hmove, hnode⟩)

theorem tight_of_run {root : Profile} {moves : List Move} (h : Mesh.run moves (start root) = some m)
    (hapart : DigestsApart ((root :: joiners moves).map Profile.target)) :
    Tight ((root :: joiners moves).map Profile.target) m := by
  refine Tight.run ⟨Sound.start hapart List.mem_cons_self, Exact.start root⟩ h fun node hnode => ?_
  exact List.mem_map_of_mem (List.mem_cons_of_mem _ hnode)

/-! ## Quiet meshes -/

theorem Quiet.informed_iff (hq : m.Quiet) : m.Informed t u ↔ m.Knows t u := by
  constructor
  · rintro (⟨r, hr, hk | htells⟩ | ⟨w, hw, -⟩)
    · exact ⟨r, hr, hk⟩
    · rw [hq.isMember hr] at htells
      exact htells.elim
    · rw [hq.1] at hw
      cases hw
  · rintro ⟨r, hr, hk⟩
    exact Or.inl ⟨r, hr, Or.inl hk⟩

/-- However the joins overlapped: of two members, each has the id of the other in its store exactly when one
of them was let in by the other, or by a member that had the other in its store at that moment. -/
theorem acquainted_iff_introduced {root : Profile} {moves : List Move} (h : run moves (start root) = some m)
    (hapart : DigestsApart ((root :: joiners moves).map Profile.target)) (hq : m.Quiet) (ht : m.IsMember t)
    (hu : m.IsMember u) (hne : t ≠ u) :
    (m.Knows t u ↔ m.Introduced t u) ∧ (m.Knows u t ↔ m.Introduced t u) := by
  have hm := tight_of_run h hapart
  obtain ⟨r, hr, -⟩ := ht
  obtain ⟨r', hr', -⟩ := hu
  constructor
  · rw [← hq.informed_iff]
    exact hm.exact t u (hm.listed _ _ hr') hne
  · rw [← hq.informed_iff, hm.exact u t (hm.listed _ _ hr) hne.symm]
    exact ⟨Introduced.symm, Introduced.symm⟩

/-- Two nodes that joined one after the other through the same member know each other. -/
theorem acquainted_through_root :
    ∃ m, run
        [.ask { name := "b", target := "b:1" } "a:1", .answer "b:1", .settle "b:1",
          .ask { name := "c", target := "c:1" } "a:1", .answer "c:1", .settle "c:1",
          .hear ⟨"b:1", ⟨"c", "c:1"⟩, ⟨"a", "a:1"⟩⟩] (start { name := "a", target := "a:1" }) = some m ∧
      m.Quiet ∧ m.Knows "b:1" "c:1" := by
  refine ⟨_, (Option.some_get (by decide +kernel)).symm, by decide +kernel, ?_⟩
  refine (acquainted_iff_introduced (u := "c:1") (Option.some_get (by decide +kernel)).symm ?_ ?_ ?_ ?_ ?_).1.2 ?_
  all_goals decide +kernel

/-- After `b` has joined through `a`, the node `c` joins through `a` while `d` joins through `b`. Both
announcements arrive, but `a` and `b` keep them to themselves. -/
theorem strangers_after_joins :
    ∃ (root : Profile) (moves : List Move) (m : Mesh) (t u : String), run moves (start root) = some m ∧
      DigestsApart ((root :: joiners moves).map Profile.target) ∧
      ((root :: joiners moves).map Profile.name).Nodup ∧ m.Quiet ∧ m.IsMember t ∧ m.IsMember u ∧ t ≠ u ∧
      ¬ m.Knows t u ∧ ¬ m.Knows u t := by
  refine ⟨{ name := "a", target := "a:1" },
    [.ask { name := "b", target := "b:1" } "a:1", .answer "b:1", .settle "b:1",
      .ask { name := "c", target := "c:1" } "a:1", .ask { name := "d", target := "d:1" } "b:1",
      .answer "c:1", .answer "d:1", .settle "c:1", .settle "d:1",
      .hear ⟨"b:1", ⟨"c", "c:1"⟩, ⟨"a", "a:1"⟩⟩, .hear ⟨"a:1", ⟨"d", "d:1"⟩, ⟨"b", "b:1"⟩⟩],
    _, "c:1", "d:1", (Option.some_get (by decide +kernel)).symm, ?_⟩
  refine ⟨by decide +kernel, by decide +kernel, by decide +kernel, by decide +kernel, by decide +kernel,
    by decide +kernel, by decide +kernel, by decide +kernel⟩

end Mesh

end PeerMesh
