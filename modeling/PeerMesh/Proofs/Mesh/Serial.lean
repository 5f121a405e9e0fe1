import PeerMesh.Proofs.Membership.NameCheck
import PeerMesh.Proofs.Mesh.Acquaintance

/-!
# Joins one after the other

When a node asks only after all that came of the last join is done, every member knows every other one, and
the check at a single member speaks for the whole mesh.

* `Mesh.Completes`, `Mesh.Serial` : one join with everything that comes of it, and one such join after another;
* `Mesh.IsFull`, `Mesh.NamesApart` : every store lists exactly the other members, and no two members have one
  name;
* `Mesh.Rested` : what holds between two joins (`Rested.isFull`), `Mesh.Welcomed` : what holds while the
  announcements of a joiner are under way;
* `Mesh.serial_join` : who is refused, and what a join does to the mesh.
-/

namespace PeerMesh.Mesh

variable {T : List String} {m m' : Mesh} {t u : String}

/-- `node` asks the node at `host`, and all that comes of it is done before another node asks. -/
def Completes (m : Mesh) (node : Profile) (host : String) (m' : Mesh) : Prop :=
  ∃ rest, joiners rest = [] ∧ run (.ask node host :: rest) m = some m' ∧ m'.Quiet

/-- Meshes of nodes that have asked one after the other, the latest first. -/
inductive Serial (root : Profile) : List Profile → Mesh → Prop where
  | start : Serial root [] (start root)
  | join {nodes : List Profile} {m m' : Mesh} {node : Profile} {host : String} (hs : Serial root nodes m)
      (hc : m.Completes node host m') : Serial root (node :: nodes) m'

def profile? (m : Mesh) (target : String) : Option Profile := (m.resident? target).map Resident.profile

/-- Every node is a member, and its store consists of the records of all other members: healthy, with no
change of health, and under the names and targets they have themselves. -/
def IsFull (m : Mesh) : Prop :=
  ∀ t r, m.resident? t = some r → r.standing = .member ∧
    ∀ id n, r.store.node? id = some n ↔ ∃ u p, u ≠ t ∧ m.profile? u = some p ∧ id = p.id ∧
      n = { id := p.id, name := p.name, target := p.target, health := .ok, changedAt := 0 }

def NamesApart (m : Mesh) : Prop :=
  ∀ t u p q, m.profile? t = some p → m.profile? u = some q → p.name = q.name → t = u

def Refused (m : Mesh) (node : Profile) (host : String) (m' : Mesh) : Prop :=
  m'.outcomes = (node.peer, .nameConflict host) :: m.outcomes

def Joined (m : Mesh) (node : Profile) (m' : Mesh) : Prop :=
  (∃ responder, m'.outcomes = (node.peer, .joined responder) :: m.outcomes) ∧
    ∀ t, m'.profile? t = if t = node.target then some node else m.profile? t

/-! ## Between two joins -/

/-- What holds between two joins. -/
structure Rested (T : List String) (m : Mesh) : Prop extends Tight T m where
  quiet : m.Quiet
  introduced : ∀ t u, (m.profile? t).isSome → (m.profile? u).isSome → t ≠ u → m.Introduced t u
  names : m.NamesApart

theorem profile?_eq_some {p : Profile} : m.profile? t = some p ↔ ∃ r, m.resident? t = some r ∧ r.profile = p :=
  Option.map_eq_some_iff

theorem Rested.isFull (hm : Rested T m) : m.IsFull := by
  intro t r hr
  refine ⟨hm.quiet.isMember hr, fun id n => ⟨fun hn => ?_, ?_⟩⟩
  · obtain ⟨p, ⟨⟨r', hr', rfl, -⟩, hne⟩, rfl, rfl⟩ := (hm.seat t r hr).store id n hn
    exact ⟨_, r'.profile, hne, profile?_eq_some.2 ⟨r', hr', rfl⟩, rfl, rfl⟩
  · rintro ⟨u, p, hne, hp, rfl, rfl⟩
    obtain ⟨r', hr', rfl⟩ := profile?_eq_some.1 hp
    have hu : r'.profile.target = u := hm.target u r' hr'
    have hut := hm.listed u r' hr'
    have hi : m.Introduced t u := hm.introduced t u (by simp [profile?, hr]) (by simp [hp]) hne.symm
    have hk : m.Knows t u := hm.quiet.informed_iff.1 ((hm.exact t u hut hne.symm).2 hi)
    obtain ⟨r₀, hr₀, n, hn⟩ := hk
    rw [hr] at hr₀
    cases hr₀
    obtain ⟨q, ⟨hq, -⟩, hid, rfl⟩ := (hm.seat t r hr).store _ n hn
    have huq := (hm.ofTarget_eq_iff hut hq).1 hid.symm
    obtain ⟨r₁, hr₁, rfl, -⟩ := hq
    rw [← huq, hr'] at hr₁
    cases hr₁
    rw [Profile.id, hu]
    exact hn.trans (by rw [← hu]; rfl)

/-- In a full mesh a name is taken at one member exactly when some member has it. -/
theorem Rested.nameTaken_iff (hm : Rested T m) {host : String} {member : Resident}
    (hhost : m.resident? host = some member) {node : Profile} (hT : node.target ∈ T)
    (hfresh : m.resident? node.target = none) :
    member.profile.nameTaken node.peer member.store = true ↔ ∃ t p, m.profile? t = some p ∧ p.name = node.name := by
  have hid : ∀ t p, m.profile? t = some p → node.peer.id ≠ p.id := by
    intro t p hp hid
    obtain ⟨r, hr, rfl⟩ := profile?_eq_some.1 hp
    have ht : node.target = t := by
      rw [← hm.target t r hr]
      refine hm.apart.target_eq hT ?_ hid
      rw [hm.target t r hr]
      exact hm.listed t r hr
    rw [ht, hr] at hfresh
    cases hfresh
  have hstore := (hm.isFull host member hhost).2
  rw [Profile.nameTaken_iff]
  constructor
  · rintro (⟨hname, -⟩ | ⟨⟨n, hn, -, hname⟩, -⟩)
    · exact ⟨host, _, profile?_eq_some.2 ⟨member, hhost, rfl⟩, hname.symm⟩
    · obtain ⟨id, hn⟩ := Store.mem_nodes.1 hn
      obtain ⟨u, p, -, hp, -, rfl⟩ := (hstore id n).1 hn
      exact ⟨u, p, hp, hname⟩
  · rintro ⟨t, p, hp, hname⟩
    by_cases ht : t = host
    · subst ht
      obtain ⟨r, hr, rfl⟩ := profile?_eq_some.1 hp
      rw [hhost] at hr
      cases hr
      exact Or.inl ⟨hname.symm, hid _ _ hp⟩
    · refine Or.inr ⟨⟨_, Store.mem_nodes.2 ⟨p.id, (hstore _ _).2 ⟨t, p, ht, hp, rfl, rfl⟩⟩, ?_, hname⟩, ?_⟩
      · exact (hid t p hp).symm
      · rintro ⟨before, own, after, hl, -, hown, -⟩
        have hmem : own ∈ member.store.nodes := by
          rw [hl]
          exact List.mem_append_right _ List.mem_cons_self
        obtain ⟨id, hn⟩ := Store.mem_nodes.1 hmem
        obtain ⟨u, q, -, hq, -, rfl⟩ := (hstore id own).1 hn
        exact hid u q hq hown.symm

/-! ## From the question to the answer -/

/-- No announcement is under way, and every node but the one at `t` is a member. -/
structure Alone (m : Mesh) (t : String) : Prop where
  words : m.words = []
  others : ∀ u r, m.resident? u = some r → u ≠ t → r.standing = .member

theorem Quiet.alone (hq : m.Quiet) (t : String) : m.Alone t := ⟨hq.1, fun _ _ hr _ => hq.isMember hr⟩

theorem Alone.step? (ha : m.Alone t) {move : Move} (hmove : move.fresh? = none) (h : m.step? move = some m') :
    (∃ r host member, m.Answers t r host member ∧ (m.Refuses t r host member m' ∨ m.Accepts t r host member m')) ∨
      ∃ r host reply, m.Receives t r host reply ∧ (m.Settles t r host reply m' ∨ m.Leaves t r host reply m') := by
  have hanswers : ∀ {u r host member}, m.Answers u r host member → u = t := by
    intro u r host member h
    by_contra hu
    have hs := ha.others u r h.joinerAt hu
    rw [h.asking] at hs
    cases hs
  have hreceives : ∀ {u r host reply}, m.Receives u r host reply → u = t := by
    intro u r host reply h
    by_contra hu
    have hs := ha.others u r h.joinerAt hu
    rw [h.answered] at hs
    cases hs
  refine step?_induction (P := fun m m' =>
    (∃ r host member, m.Answers t r host member ∧ (m.Refuses t r host member m' ∨ m.Accepts t r host member m')) ∨
      ∃ r host reply, m.Receives t r host reply ∧ (m.Settles t r host reply m' ∨ m.Leaves t r host reply m'))
    h ?_ ?_ ?_ ?_ ?_ ?_
  · intro node host hask _
    rw [hask] at hmove
    cases hmove
  · intro joiner j host member h
    obtain rfl := hanswers h.toAnswers
    exact Or.inl ⟨j, host, member, h.toAnswers, Or.inl h⟩
  · intro joiner j host member h
    obtain rfl := hanswers h.toAnswers
    exact Or.inl ⟨j, host, member, h.toAnswers, Or.inr h⟩
  · intro joiner j host reply h
    obtain rfl := hreceives h.toReceives
    exact Or.inr ⟨j, host, reply, h.toReceives, Or.inl h⟩
  · intro joiner j host reply h
    obtain rfl := hreceives h.toReceives
    exact Or.inr ⟨j, host, reply, h.toReceives, Or.inr h⟩
  · intro word h
    have hmem := h.underWay
    rw [ha.words] at hmem
    cases hmem

theorem Alone.asking (ha : m.Alone t) {r : Resident} (hr : m.resident? t = some r) {host : String}
    (hs : r.standing = .asking host) {move : Move} (hmove : move.fresh? = none) (h : m.step? move = some m') :
    ∃ member, m.Refuses t r host member m' ∨ m.Accepts t r host member m' := by
  rcases ha.step? hmove h with ⟨j, host', member, hj, h⟩ | ⟨j, host', reply, hj, -⟩
  · obtain rfl : r = j := Option.some.inj (hr.symm.trans hj.joinerAt)
    obtain rfl : host = host' := Standing.asking.inj (hs.symm.trans hj.asking)
    exact ⟨member, h⟩
  · obtain rfl : r = j := Option.some.inj (hr.symm.trans hj.joinerAt)
    cases hs.symm.trans hj.answered

theorem Alone.answered (ha : m.Alone t) {r : Resident} (hr : m.resident? t = some r) {host : String}
    {reply : JoinReply} (hs : r.standing = .answered host reply) {move : Move} (hmove : move.fresh? = none)
    (h : m.step? move = some m') : m.Settles t r host reply m' ∨ m.Leaves t r host reply m' := by
  rcases ha.step? hmove h with ⟨j, host', member, hj, -⟩ | ⟨j, host', reply', hj, h⟩
  · obtain rfl : r = j := Option.some.inj (hr.symm.trans hj.joinerAt)
    cases hs.symm.trans hj.asking
  · obtain rfl : r = j := Option.some.inj (hr.symm.trans hj.joinerAt)
    obtain ⟨rfl, rfl⟩ := Standing.answered.inj (hs.symm.trans hj.answered)
    exact h

/-- A quiet mesh rests until a node asks. -/
theorem Quiet.step?_ne_some (hq : m.Quiet) {move : Move} (hmove : move.fresh? = none) : m.step? move ≠ some m' := by
  intro h
  -- Every node is a member, so any address can play the one that is left out.
  rcases (hq.alone "").step? hmove h with ⟨j, host, member, hj, -⟩ | ⟨j, host, reply, hj, -⟩
  · cases (hq.isMember hj.joinerAt).symm.trans hj.asking
  · cases (hq.isMember hj.joinerAt).symm.trans hj.answered

theorem joiners_cons_eq_nil {move : Move} {moves : List Move} :
    joiners (move :: moves) = [] ↔ move.fresh? = none ∧ joiners moves = [] := by
  simp only [joiners, List.filterMap_eq_nil_iff, List.forall_mem_cons]

theorem Quiet.run_eq (hq : m.Quiet) {moves : List Move} (hmoves : joiners moves = []) (h : run moves m = some m') :
    m' = m := by
  cases moves with
  | nil =>
    cases h
    rfl
  | cons move moves =>
    obtain ⟨m₁, h₁, -⟩ := Option.bind_eq_some_iff.1 h
    exact absurd h₁ (hq.step?_ne_some (joiners_cons_eq_nil.1 hmoves).1)

theorem run_to_quiet {moves : List Move} (hmoves : joiners moves = []) (h : run moves m = some m') (hq : m'.Quiet)
    {r : Resident} (hr : m.resident? t = some r) (hs : r.standing ≠ .member) :
    ∃ move m₁ rest, move.fresh? = none ∧ joiners rest = [] ∧ m.step? move = some m₁ ∧ run rest m₁ = some m' := by
  cases moves with
  | nil =>
    cases h
    exact absurd (hq.isMember hr) hs
  | cons move rest =>
    obtain ⟨hmove, hrest⟩ := joiners_cons_eq_nil.1 hmoves
    obtain ⟨m₁, h₁, h⟩ := Option.bind_eq_some_iff.1 h
    exact ⟨move, m₁, rest, hmove, hrest, h₁, h⟩

theorem Refuses.leaves {r member : Resident} {host : String} {m₁ : Mesh} (h : m.Refuses t r host member m₁)
    (ha : m.Alone t) {moves : List Move} (hmoves : joiners moves = []) (hrun : run moves m₁ = some m')
    (hq : m'.Quiet) :
    m₁.Leaves t { r with standing := .answered host member.refusal } host member.refusal m' := by
  have ht : m₁.resident? t = some { r with standing := .answered host member.refusal } := by
    rw [h.residents, if_pos rfl]
  have ha₁ : m₁.Alone t := by
    refine ⟨h.words.trans ha.words, fun u r hr hu => ?_⟩
    rw [h.residents, if_neg hu] at hr
    exact ha.others u r hr hu
  obtain ⟨move, m₂, rest, hmove, hrest, h₂, hrun⟩ := run_to_quiet hmoves hrun hq ht (by simp)
  rcases ha₁.answered ht rfl hmove h₂ with h₂ | h₂
  · have hu := h₂.unique
    cases hu
  · have hq₂ : m₂.Quiet := by
      refine quiet_iff.2 ⟨h₂.words.trans ha₁.words, fun u r hr => ?_⟩
      rw [h₂.residents] at hr
      split at hr
      · cases hr
      · rename_i hu
        exact ha₁.others u r hr hu
    rw [hq₂.run_eq hrest hrun]
    exact h₂

/-- A join in a quiet mesh: the node is refused and leaves, or it is let in, and the rest follows. -/
theorem Completes.cases (hq : m.Quiet) {node : Profile} {host : String} (hc : m.Completes node host m') :
    ∃ m₁ move m₂ member, m.step? (.ask node host) = some m₁ ∧ move.fresh? = none ∧ m₁.step? move = some m₂ ∧
      m.resident? host = some member ∧
      (m₁.Refuses node.target ⟨node, {}, .asking host⟩ host member m₂ ∧
          m₂.Leaves node.target ⟨node, {}, .answered host member.refusal⟩ host member.refusal m' ∨
        m₁.Accepts node.target ⟨node, {}, .asking host⟩ host member m₂ ∧
          ∃ rest, joiners rest = [] ∧ run rest m₂ = some m' ∧ m'.Quiet) := by
  obtain ⟨rest, hrest, hrun, hq'⟩ := hc
  obtain ⟨m₁, hask, hrun⟩ := Option.bind_eq_some_iff.1 hrun
  have hasks := ask_cases hask
  have hnode : m₁.resident? node.target = some ⟨node, {}, .asking host⟩ := by rw [hasks.residents, if_pos rfl]
  have halone : m₁.Alone node.target := by
    refine ⟨hasks.words.trans hq.1, fun u r hr hu => ?_⟩
    rw [hasks.residents, if_neg hu] at hr
    exact hq.isMember hr
  obtain ⟨move, m₂, rest, hmove, hrest, hstep, hrun⟩ := run_to_quiet hrest hrun hq' hnode (by simp)
  obtain ⟨member, h₂⟩ := halone.asking hnode rfl hmove hstep
  have hhost : m₁.resident? host = some member := h₂.elim (fun h => h.hostAt) fun h => h.hostAt
  have hne : host ≠ node.target := by
    rintro rfl
    obtain ⟨r, hr, -⟩ := hasks.hostIn
    rw [hasks.fresh] at hr
    cases hr
  rw [hasks.residents, if_neg hne] at hhost
  refine ⟨m₁, move, m₂, member, hask, hmove, hstep, hhost, ?_⟩
  rcases h₂ with h₂ | h₂
  · exact Or.inl ⟨h₂, h₂.leaves halone hrest hrun hq'⟩
  · exact Or.inr ⟨h₂, rest, hrest, hrun, hq'⟩

/-! ## From the answer to the last announcement -/

/-- What holds from the moment on at which `node` is let in to the mesh `m₀`. -/
structure Welcomed (T : List String) (m₀ : Mesh) (node : Profile) (m : Mesh) : Prop extends Tight T m where
  introduced : ∀ t u, (m.profile? t).isSome → (m.profile? u).isSome → t ≠ u → m.Introduced t u
  profiles : ∀ t, m.profile? t = if t = node.target then some node else m₀.profile? t
  others : ∀ t r, m.resident? t = some r → t ≠ node.target → r.standing = .member
  joiner : ∃ r, m.resident? node.target = some r ∧
    ((∃ host reply, r.standing = .answered host reply ∧ reply.nameUnique = true ∧ m.outcomes = m₀.outcomes) ∨
      r.standing = .member ∧ ∃ responder, m.outcomes = (node.peer, .joined responder) :: m₀.outcomes)

section Profiles

variable {node : Profile} {joiner host : String} {j member : Resident} {reply : JoinReply} {word : Word}

theorem Asks.profile?_eq (h : m.Asks node host m') :
    m'.profile? t = if t = node.target then some node else m.profile? t := by
  unfold profile?
  rw [h.residents, apply_ite (Option.map Resident.profile)]
  rfl

theorem Accepts.profile?_eq (h : m.Accepts joiner j host member m') : m'.profile? t = m.profile? t := by
  unfold profile?
  rw [h.residents]
  split
  · rename_i ht
    rw [ht, h.joinerAt]
    rfl
  · split
    · rename_i ht
      rw [ht, h.hostAt]
      rfl
    · rfl

theorem Settles.profile?_eq (h : m.Settles joiner j host reply m') : m'.profile? t = m.profile? t := by
  unfold profile?
  rw [h.residents]
  split
  · rename_i ht
    rw [ht, h.joinerAt]
    rfl
  · rfl

theorem Hears.profile?_eq (h : m.Hears word m') : m'.profile? t = m.profile? t := by
  unfold profile?
  rw [h.residents]
  split
  · rw [Option.map_map]
    rfl
  · rfl

end Profiles

section Welcomed

variable {m₀ : Mesh} {node : Profile}

theorem Welcomed.settles (hw : Welcomed T m₀ node m) (hm' : Tight T m') {joiner host : String}
    {j : Resident} {reply : JoinReply} (h : m.Settles joiner j host reply m') : Welcomed T m₀ node m' := by
  have hjoiner : joiner = node.target := by
    by_contra hne
    cases (hw.others joiner j h.joinerAt hne).symm.trans h.answered
  subst hjoiner
  obtain ⟨r, hr, hphase⟩ := hw.joiner
  obtain rfl : r = j := Option.some.inj (hr.symm.trans h.joinerAt)
  have hprofile : r.profile = node := by
    have hp := hw.profiles node.target
    rw [if_pos rfl, profile?, hr] at hp
    exact Option.some.inj hp
  refine { toTight := hm', introduced := ?_, profiles := ?_, others := ?_, joiner := ?_ }
  · intro t u ht hu hne
    rw [h.profile?_eq] at ht hu
    rw [introduced_congr h.introductions]
    exact hw.introduced t u ht hu hne
  · intro t
    rw [h.profile?_eq]
    exact hw.profiles t
  · intro t r hr hne
    rw [h.residents, if_neg hne] at hr
    exact hw.others t r hr hne
  · refine ⟨_, by rw [h.residents, if_pos rfl], Or.inr ⟨rfl, reply.responder, ?_⟩⟩
    rcases hphase with ⟨host', reply', -, -, ho⟩ | ⟨hs, -⟩
    · rw [h.outcomes, ho, hprofile]
    · cases hs.symm.trans h.answered

theorem Welcomed.hears (hw : Welcomed T m₀ node m) (hm' : Tight T m') {word : Word}
    (h : m.Hears word m') : Welcomed T m₀ node m' := by
  refine { toTight := hm', introduced := ?_, profiles := ?_, others := ?_, joiner := ?_ }
  · intro t u ht hu hne
    rw [h.profile?_eq] at ht hu
    rw [introduced_congr h.introductions]
    exact hw.introduced t u ht hu hne
  · intro t
    rw [h.profile?_eq]
    exact hw.profiles t
  · intro t r' hr' hne
    obtain ⟨r, hr, hs⟩ := h.resident_before hr'
    rw [hs]
    exact hw.others t r hr hne
  · obtain ⟨r, hr, hphase⟩ := hw.joiner
    obtain ⟨r', hr'⟩ : ∃ r', m'.resident? node.target = some r' := by
      have hp : (m'.profile? node.target).isSome := by rw [h.profile?_eq, profile?, hr]; rfl
      rw [profile?, Option.isSome_map] at hp
      exact Option.isSome_iff_exists.1 hp
    obtain ⟨r₀, hr₀, hs⟩ := h.resident_before hr'
    obtain rfl : r = r₀ := Option.some.inj (hr.symm.trans hr₀)
    rw [h.outcomes]
    exact ⟨r', hr', by rw [hs]; exact hphase⟩

theorem Welcomed.step (hw : Welcomed T m₀ node m) {move : Move} (hmove : move.fresh? = none)
    (h : m.step? move = some m') : Welcomed T m₀ node m' := by
  have hm' := hw.toTight.step h (by rw [hmove]; intro node hnode; cases hnode)
  have hanswers : ∀ {joiner j host member}, ¬ m.Answers joiner j host member := by
    intro joiner j host member h
    by_cases hne : joiner = node.target
    · obtain ⟨r, hr, hphase⟩ := hw.joiner
      rw [← hne, h.joinerAt] at hr
      cases hr
      rcases hphase with ⟨host', reply', hs, -⟩ | ⟨hs, -⟩
      · cases hs.symm.trans h.asking
      · cases hs.symm.trans h.asking
    · cases (hw.others joiner j h.joinerAt hne).symm.trans h.asking
  revert hm'
  refine step?_induction (P := fun _ m' => Tight T m' → Welcomed T m₀ node m') h ?_ ?_ ?_ ?_ ?_ ?_
  · intro node host hask _
    rw [hask] at hmove
    cases hmove
  · exact fun h => absurd h.toAnswers hanswers
  · exact fun h => absurd h.toAnswers hanswers
  · exact fun h hm' => hw.settles hm' h
  · intro joiner j host reply h
    by_cases hne : joiner = node.target
    · obtain ⟨r, hr, hphase⟩ := hw.joiner
      rw [← hne, h.joinerAt] at hr
      cases hr
      rcases hphase with ⟨host', reply', hs, hu, -⟩ | ⟨hs, -⟩
      · obtain ⟨-, rfl⟩ := Standing.answered.inj (hs.symm.trans h.answered)
        cases hu.symm.trans h.unique
      · cases hs.symm.trans h.answered
    · cases (hw.others joiner j h.joinerAt hne).symm.trans h.answered
  · exact fun h hm' => hw.hears hm' h

end Welcomed

/-- In a full mesh a node that is let in is introduced to every member. -/
theorem Rested.welcomed (hm : Rested T m) {node : Profile} {host : String} {member : Resident} {m₁ m₂ : Mesh}
    (hask : m.Asks node host m₁) (hhost : m.resident? host = some member)
    (h : m₁.Accepts node.target ⟨node, {}, .asking host⟩ host member m₂) (hm₂ : Tight T m₂) :
    Welcomed T m node m₂ := by
  have hprofile : ∀ t, m₂.profile? t = if t = node.target then some node else m.profile? t := by
    intro t
    rw [h.profile?_eq, hask.profile?_eq]
  have hnew : ∀ u, (m.profile? u).isSome → m₂.Introduced node.target u := by
    intro u hu
    obtain ⟨p, hp⟩ := Option.isSome_iff_exists.1 hu
    refine h.introduced.2 (Or.inr (Or.inl ⟨rfl, ?_⟩))
    by_cases huh : u = host
    · exact Or.inl huh
    · obtain ⟨r, hr, rfl⟩ := profile?_eq_some.1 hp
      have hn := ((hm.isFull host member hhost).2 _ _).2 ⟨u, _, huh, hp, rfl, rfl⟩
      have hmem := List.mem_map_of_mem (f := Node.target) (Store.mem_nodes.2 ⟨_, hn⟩)
      rw [hm.target u r hr] at hmem
      exact Or.inr hmem
  refine { toTight := hm₂, introduced := ?_, profiles := hprofile, others := ?_, joiner := ?_ }
  · intro t u ht hu hne
    rw [hprofile] at ht hu
    split at ht
    · rename_i htn
      rw [if_neg (by rw [← htn]; exact hne.symm)] at hu
      rw [htn]
      exact hnew u hu
    · split at hu
      · rename_i hun
        rw [hun]
        exact (hnew t ht).symm
      · refine h.introduced.2 (Or.inl ((introduced_congr hask.introductions).2 ?_))
        exact hm.introduced t u ht hu hne
  · intro t r hr hne
    rw [h.residents, if_neg hne] at hr
    split at hr
    · cases hr
      have hs := hm.quiet.isMember hhost
      exact hs
    · rw [hask.residents, if_neg hne] at hr
      exact hm.quiet.isMember hr
  · refine ⟨_, by rw [h.residents, if_pos rfl], Or.inl ⟨host, _, rfl, rfl, ?_⟩⟩
    rw [h.outcomes, hask.outcomes]

theorem Welcomed.run {m₀ : Mesh} {node : Profile} (hw : Welcomed T m₀ node m) {moves : List Move}
    (hmoves : joiners moves = []) (h : run moves m = some m') : Welcomed T m₀ node m' := by
  refine run_induction (fun move hmove m m' hw h => hw.step ?_ h) hw h
  exact List.filterMap_eq_nil_iff.1 hmoves move hmove

/-! ## One join after another -/

theorem residents_of_refusal {node : Profile} {host : String} {j r member : Resident} {reply : JoinReply}
    {m₁ m₂ : Mesh} (hask : m.Asks node host m₁) (h : m₁.Refuses node.target j host member m₂)
    (hleave : m₂.Leaves node.target r host reply m') (t : String) : m'.resident? t = m.resident? t := by
  rw [hleave.residents]
  split
  · rename_i ht
    rw [ht, hask.fresh]
  · rename_i ht
    rw [h.residents, if_neg ht, hask.residents, if_neg ht]

theorem Rested.completes (hm : Rested T m) {node : Profile} {host : String} (hc : m.Completes node host m')
    (hT : node.target ∈ T) :
    Rested T m' ∧
      ((∃ t p, m.profile? t = some p ∧ p.name = node.name) ∧ m.Refused node host m' ∧
          (∀ t, m'.resident? t = m.resident? t) ∨
        (¬ ∃ t p, m.profile? t = some p ∧ p.name = node.name) ∧ ¬ m.Refused node host m' ∧ m.Joined node m') := by
  have hm' : Tight T m' := by
    obtain ⟨rest, hrest, hrun, -⟩ := hc
    refine hm.toTight.run hrun fun p hp => ?_
    rw [joiners, List.filterMap_cons_some (by rfl)] at hp
    rcases List.mem_cons.1 hp with rfl | hp
    · exact hT
    · rw [← joiners, hrest] at hp
      cases hp
  obtain ⟨m₁, move, m₂, member, hask, hmove, h₂, hhost, h⟩ := hc.cases hm.quiet
  have hasks := ask_cases hask
  have htaken := hm.nameTaken_iff hhost hT hasks.fresh
  rcases h with ⟨hrefuses, hleaves⟩ | ⟨haccepts, rest, hrest, hrun, hq⟩
  · have hres := residents_of_refusal hasks hrefuses hleaves
    have hintro : m'.introductions = m.introductions := by
      rw [hleaves.introductions, hrefuses.introductions, hasks.introductions]
    have hprofile : ∀ t, m'.profile? t = m.profile? t := fun t => by rw [profile?, hres, profile?]
    refine ⟨{ toTight := hm', quiet := ?_, introduced := ?_, names := ?_ }, Or.inl ⟨?_, ?_, hres⟩⟩
    · refine quiet_iff.2 ⟨?_, fun t r hr => ?_⟩
      · rw [hleaves.words, hrefuses.words, hasks.words, hm.quiet.1]
      · rw [hres] at hr
        exact hm.quiet.isMember hr
    · intro t u ht hu hne
      rw [hprofile] at ht hu
      rw [introduced_congr hintro]
      exact hm.introduced t u ht hu hne
    · intro t u p q hp hq
      rw [hprofile] at hp hq
      exact hm.names t u p q hp hq
    · exact htaken.1 hrefuses.taken
    · rw [Refused, hleaves.outcomes, hrefuses.outcomes, hasks.outcomes]
  · have hm₁ := hm.toTight.step hask (by rintro p ⟨⟩; exact hT)
    have hm₂ := hm₁.step h₂ (by rw [hmove]; rintro p ⟨⟩)
    have hw := (hm.welcomed hasks hhost haccepts hm₂).run hrest hrun
    have hfree : ¬ ∃ t p, m.profile? t = some p ∧ p.name = node.name := by
      rw [← htaken]
      exact Bool.eq_false_iff.1 haccepts.free
    have houtcome : ∃ responder, m'.outcomes = (node.peer, .joined responder) :: m.outcomes := by
      obtain ⟨r, hr, ⟨host', reply, hs, -⟩ | ⟨-, ho⟩⟩ := hw.joiner
      · cases (hq.isMember hr).symm.trans hs
      · exact ho
    refine ⟨{ toTight := hm', quiet := hq, introduced := hw.introduced, names := ?_ }, Or.inr ⟨hfree, ?_, ?_, ?_⟩⟩
    · intro t u p q hp hq hname
      rw [hw.profiles] at hp hq
      split at hp
      · rename_i ht
        cases hp
        split at hq
        · rename_i hu
          rw [ht, hu]
        · exact absurd ⟨u, q, hq, hname.symm⟩ hfree
      · split at hq
        · cases hq
          exact absurd ⟨t, p, hp, hname⟩ hfree
        · exact hm.names t u p q hp hq hname
    · obtain ⟨responder, ho⟩ := houtcome
      rw [Refused, ho]
      simp
    · exact houtcome
    · exact hw.profiles

theorem Rested.start (hT : DigestsApart T) {root : Profile} (hroot : root.target ∈ T) :
    Rested T (start root) := by
  have hone : ∀ t, ((Mesh.start root).profile? t).isSome → t = root.target := by
    intro t ht
    by_contra hne
    rw [profile?, resident?_start, if_neg hne] at ht
    cases ht
  refine
    { toTight := ⟨Sound.start hT hroot, Exact.start root⟩
      quiet := quiet_iff.2 ⟨rfl, fun t r hr => ?_⟩
      introduced := fun t u ht hu hne => absurd ((hone t ht).trans (hone u hu).symm) hne
      names := fun t u p q hp hq _ => ?_ }
  · rw [resident?_start] at hr
    split at hr
    · cases hr
      rfl
    · cases hr
  · exact (hone t (by rw [hp]; rfl)).trans (hone u (by rw [hq]; rfl)).symm

theorem Serial.rested {root : Profile} {nodes : List Profile} (hs : Serial root nodes m) (hT : DigestsApart T)
    (hsub : ∀ p ∈ root :: nodes, p.target ∈ T) : Rested T m := by
  induction hs with
  | start => exact Rested.start hT (hsub root List.mem_cons_self)
  | join hs hc ih =>
    have hprev := ih fun p hp => hsub p ?_
    · exact (hprev.completes hc (hsub _ (List.mem_cons_of_mem _ List.mem_cons_self))).1
    · rcases List.mem_cons.1 hp with rfl | hp
      · exact List.mem_cons_self
      · exact List.mem_cons_of_mem _ (List.mem_cons_of_mem _ hp)

/-- When nodes join one after the other, each through any member, a node is refused exactly when a member of
the mesh has its name, and then nothing has changed. Otherwise it is a member from then on. Either way every
store consists of the records of all other members, and no two members have one name. -/
theorem serial_join {root : Profile} {nodes : List Profile} {node : Profile} {host : String}
    (hs : Serial root nodes m) (hc : m.Completes node host m')
    (hapart : DigestsApart ((root :: node :: nodes).map Profile.target)) :
    (m.Refused node host m' ↔ ∃ t p, m.profile? t = some p ∧ p.name = node.name) ∧
      (m.Refused node host m' → ∀ t, m'.resident? t = m.resident? t) ∧
      (¬ m.Refused node host m' → m.Joined node m') ∧ m'.IsFull ∧ m'.NamesApart := by
  have hrested : Rested _ m := hs.rested hapart fun p hp => by
    refine List.mem_map_of_mem ?_
    rcases List.mem_cons.1 hp with rfl | hp
    · exact List.mem_cons_self
    · exact List.mem_cons_of_mem _ (List.mem_cons_of_mem _ hp)
  have hT : node.target ∈ (root :: node :: nodes).map Profile.target :=
    List.mem_map_of_mem (List.mem_cons_of_mem _ List.mem_cons_self)
  obtain ⟨hm', ⟨htaken, hr, hsame⟩ | ⟨hfree, hr, hj⟩⟩ := hrested.completes hc hT
  · refine ⟨iff_of_true hr htaken, fun _ => hsame, fun hno => absurd hr hno, hm'.isFull, hm'.names⟩
  · refine ⟨iff_of_false hr hfree, fun hyes => absurd hyes hr, fun _ => hj, hm'.isFull, hm'.names⟩

/-- After `b` has joined through `a`, the node `c` joins through `b`. -/
theorem serial_join_third :
    ∃ m m', Serial { name := "a", target := "a:1" } [{ name := "b", target := "b:1" }] m ∧
      m.Completes { name := "c", target := "c:1" } "b:1" m' ∧ m'.IsFull := by
  have hb : Completes (start { name := "a", target := "a:1" }) { name := "b", target := "b:1" } "a:1" _ :=
    ⟨[.answer "b:1", .settle "b:1"], rfl, (Option.some_get (by decide +kernel)).symm, by decide +kernel⟩
  have hs := Serial.join .start hb
  suffices hc : ∃ m', Completes _ { name := "c", target := "c:1" } "b:1" m' from
    hc.elim fun m' hc => ⟨_, m', hs, hc, (serial_join hs hc (by decide)).2.2.2.1⟩
  exact ⟨_, [.answer "c:1", .settle "c:1", .hear ⟨"a:1", ⟨"c", "c:1"⟩, ⟨"b", "b:1"⟩⟩], rfl,
    (Option.some_get (by decide +kernel)).symm, by decide +kernel⟩

/-! ## Joins that come to an end -/

/-- Where every node is a member, the announcements under way can be heard one after the other. -/
theorem exists_run_of_members (hm : ∀ t r, m.resident? t = some r → r.standing = .member) :
    ∃ moves m', joiners moves = [] ∧ run moves m = some m' ∧ m'.Quiet := by
  generalize hw : m.words = words
  induction words generalizing m with
  | nil => exact ⟨[], m, rfl, rfl, quiet_iff.2 ⟨hw, hm⟩⟩
  | cons word words ih =>
    obtain ⟨m₁, h₁⟩ := exists_hear (show word ∈ m.words by rw [hw]; exact List.mem_cons_self)
    have hears := hear_cases h₁
    have hm₁ : ∀ t r, m₁.resident? t = some r → r.standing = .member := by
      intro t r hr
      obtain ⟨j, hj, hs⟩ := hears.resident_before hr
      rw [hs]
      exact hm t j hj
    obtain ⟨moves, m', hmoves, hrun, hq⟩ := ih hm₁ (by rw [hears.words, hw, List.erase_cons_head])
    refine ⟨.hear word :: moves, m', joiners_cons_eq_nil.2 ⟨rfl, hmoves⟩, ?_, hq⟩
    exact Option.bind_eq_some_iff.2 ⟨m₁, h₁, hrun⟩

/-- In a quiet mesh a fresh node can ask any member, and its join comes to an end. -/
theorem Quiet.exists_completes (hq : m.Quiet) {node : Profile} {host : String} (hhost : m.IsMember host)
    (hfresh : m.resident? node.target = none) : ∃ m', m.Completes node host m' := by
  obtain ⟨h, hh, hmember⟩ := hhost
  obtain ⟨m₁, hrun₁, -, -, hresidents⟩ := exists_run_attempt hh hmember hfresh rfl
  have hmembers : ∀ t r, m₁.resident? t = some r → r.standing = .member := by
    intro t r hr
    rw [hresidents] at hr
    split at hr
    · split at hr
      · cases hr
        rfl
      · cases hr
    · split at hr
      · cases hr
        exact hmember
      · exact hq.isMember hr
  obtain ⟨moves, m', hmoves, hrun, hq'⟩ := exists_run_of_members hmembers
  refine ⟨m', .answer node.target :: .settle node.target :: moves, ?_, ?_, hq'⟩
  · exact joiners_cons_eq_nil.2 ⟨rfl, joiners_cons_eq_nil.2 ⟨rfl, hmoves⟩⟩
  · exact (run_append _ moves m).trans (Option.bind_eq_some_iff.2 ⟨m₁, hrun₁, hrun⟩)

end PeerMesh.Mesh
