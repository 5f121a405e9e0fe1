import PeerMesh.Membership.Joining
import PeerMesh.Proofs.Store.Acquaintance

/-!
# Meshes of nodes that join

Any number of nodes that join through one another, over a network that delivers every message at some time
and in any order.

* `Resident`, `Word`, `Mesh` : a node with its store, an announcement under way, and all of them together.
  `Introduction` and `JoinOutcome` keep, for statements only, who was let in and how the attempts ended;
* `Move`, `Mesh.step?` : one node asks, answers, takes an answer in or hears an announcement;
* `Mesh.run`, `Mesh.start`, `Mesh.Quiet` : many moves, the mesh of one node, and a mesh with nothing left to
  do;
* `Asks`, `Refuses`, `Accepts`, `Settles`, `Leaves`, `Hears` : what each move does (`Mesh.step?_induction`).
-/

namespace PeerMesh

/-- Where a node stands on its way into the mesh. -/
inductive Standing where
  /-- Its question is under way to `host`. -/
  | asking (host : String)
  /-- The answer of `host` is under way to it. -/
  | answered (host : String) (reply : JoinReply)
  | member
  deriving DecidableEq, Repr

namespace Standing

def host? : Standing → Option String
  | asking host => some host
  | answered host _ => some host
  | member => none

/-- Whether the node has been let in, even if it does not know yet. -/
def accepted : Standing → Bool
  | asking _ => false
  | answered _ reply => reply.nameUnique
  | member => true

end Standing

structure Resident where
  profile : Profile
  store : Store
  standing : Standing

namespace Resident

def welcome (h : Resident) (joiner : Peer) : JoinReply :=
  { nameUnique := true, responder := h.profile.name, nodes := (h.store.letIn joiner).nodes.map Node.toPeer }

def refusal (h : Resident) : JoinReply := { nameUnique := false, responder := h.profile.name, nodes := [] }

end Resident

structure Word where
  listener : String
  said : Announcement
  deriving DecidableEq, Repr

def Word.ofNotice (host : Profile) (notice : Notice) : Word :=
  ⟨notice.listener.target, ⟨notice.newcomer, host.peer⟩⟩

/-- What is remembered of a node that was let in. -/
structure Introduction where
  newcomer : String
  /-- The member that let it in. -/
  host : String
  /-- The addresses in the store of that member, at that moment. -/
  known : List String
  deriving DecidableEq, Repr

/-- The nodes the newcomer was introduced to: the member that let it in, and those known to that member. -/
def Introduction.met (i : Introduction) : List String := i.host :: i.known

structure Mesh where
  /-- The nodes, by address. -/
  residents : Table String Resident := {}
  words : List Word := []
  /-- Who was let in, the latest first. -/
  introductions : List Introduction := []
  /-- How the attempts to join ended, the latest first. -/
  outcomes : List (Peer × JoinOutcome) := []

inductive Move where
  /-- A fresh node asks a member. -/
  | ask (node : Profile) (host : String)
  /-- The member that was asked answers the joiner at an address. -/
  | answer (joiner : String)
  /-- The joiner takes the answer in. -/
  | settle (joiner : String)
  /-- An announcement reaches its listener. -/
  | hear (word : Word)

def Move.fresh? : Move → Option Profile
  | ask node _ => some node
  | _ => none

namespace Mesh

/-! ## The moves -/

def start (root : Profile) : Mesh := { residents := Table.insert {} root.target ⟨root, {}, .member⟩ }

def resident? (m : Mesh) (target : String) : Option Resident := m.residents.get? target

def ask (m : Mesh) (node : Profile) (host : String) : Option Mesh :=
  match m.resident? host, m.resident? node.target with
  | some { standing := .member, .. }, none =>
    some { m with residents := m.residents.insert node.target ⟨node, {}, .asking host⟩ }
  | _, _ => none

def answer (m : Mesh) (joiner : String) : Option Mesh :=
  match m.resident? joiner with
  | some { profile, store, standing := .asking host } =>
    (m.resident? host).map fun h =>
      let (reply, after, notices) := h.profile.answerJoin profile.peer h.store
      { m with
        residents := (m.residents.insert host { h with store := after }).insert joiner
          ⟨profile, store, .answered host reply⟩
        words := m.words ++ notices.map (.ofNotice h.profile)
        introductions :=
          if reply.nameUnique then ⟨joiner, host, h.store.nodes.map Node.target⟩ :: m.introductions
          else m.introductions }
  | _ => none

def settle (m : Mesh) (joiner : String) : Option Mesh :=
  match m.resident? joiner with
  | some { profile, store, standing := .answered host reply } =>
    if reply.nameUnique then
      some { m with
        residents := m.residents.insert joiner ⟨profile, profile.adopt host reply store, .member⟩
        outcomes := (profile.peer, .joined reply.responder) :: m.outcomes }
    else
      some { m with
        residents := m.residents.erase joiner
        outcomes := (profile.peer, .nameConflict host) :: m.outcomes }
  | _ => none

def hear (m : Mesh) (word : Word) : Option Mesh :=
  if word ∈ m.words then
    some { m with
      residents := m.residents.modify word.listener fun r =>
        { r with store := r.profile.learn word.said r.store }
      words := m.words.erase word }
  else none

def step? (m : Mesh) : Move → Option Mesh
  | .ask node host => m.ask node host
  | .answer joiner => m.answer joiner
  | .settle joiner => m.settle joiner
  | .hear word => m.hear word

def run : List Move → Mesh → Option Mesh
  | [], m => some m
  | move :: moves, m => (m.step? move).bind (run moves)

def joiners (moves : List Move) : List Profile := moves.filterMap Move.fresh?

def Quiet (m : Mesh) : Prop := m.words = [] ∧ ∀ r ∈ m.residents.values, r.standing = .member

def IsMember (m : Mesh) (target : String) : Prop := ∃ r, m.resident? target = some r ∧ r.standing = .member

def Knows (m : Mesh) (target other : String) : Prop :=
  ∃ r, m.resident? target = some r ∧ r.store.Knows (.ofTarget other)

/-- One of the two was let in when the other was the member that did it, or was known to that member. -/
def Introduced (m : Mesh) (target other : String) : Prop :=
  ∃ i ∈ m.introductions, (i.newcomer = target ∧ other ∈ i.met) ∨ (i.newcomer = other ∧ target ∈ i.met)

instance (m : Mesh) : Decidable m.Quiet := inferInstanceAs (Decidable (_ ∧ _))

instance (m : Mesh) (target : String) : Decidable (m.IsMember target) :=
  inferInstanceAs (Decidable (∃ r ∈ m.resident? target, _))

instance (m : Mesh) (target other : String) : Decidable (m.Knows target other) :=
  inferInstanceAs (Decidable (∃ r ∈ m.resident? target, _))

instance (m : Mesh) (target other : String) : Decidable (m.Introduced target other) :=
  inferInstanceAs (Decidable (∃ i ∈ m.introductions, _))

theorem Introduced.symm {m : Mesh} {t u : String} (h : m.Introduced t u) : m.Introduced u t := by
  obtain ⟨i, hi, h⟩ := h
  exact ⟨i, hi, h.symm⟩

theorem quiet_iff {m : Mesh} :
    m.Quiet ↔ m.words = [] ∧ ∀ t r, m.resident? t = some r → r.standing = .member := by
  unfold Quiet
  simp only [Table.mem_values, forall_exists_index]
  rw [forall_comm]
  rfl

theorem Quiet.isMember {m : Mesh} (hm : m.Quiet) {t : String} {r : Resident} (hr : m.resident? t = some r) :
    r.standing = .member :=
  (quiet_iff.1 hm).2 t r hr

/-! ## What each move does -/

structure Asks (m : Mesh) (node : Profile) (host : String) (m' : Mesh) : Prop where
  hostIn : m.IsMember host
  fresh : m.resident? node.target = none
  residents : ∀ u, m'.resident? u = if u = node.target then some ⟨node, {}, .asking host⟩ else m.resident? u
  words : m'.words = m.words
  introductions : m'.introductions = m.introductions
  outcomes : m'.outcomes = m.outcomes

/-- The node `h` is at the turn to answer the joiner `r`. -/
structure Answers (m : Mesh) (joiner : String) (r : Resident) (host : String) (h : Resident) : Prop where
  joinerAt : m.resident? joiner = some r
  asking : r.standing = .asking host
  hostAt : m.resident? host = some h

structure Refuses (m : Mesh) (joiner : String) (r : Resident) (host : String) (h : Resident) (m' : Mesh) : Prop
    extends Answers m joiner r host h where
  taken : h.profile.nameTaken r.profile.peer h.store = true
  residents : ∀ u, m'.resident? u =
    if u = joiner then some { r with standing := .answered host h.refusal } else m.resident? u
  words : m'.words = m.words
  introductions : m'.introductions = m.introductions
  outcomes : m'.outcomes = m.outcomes

structure Accepts (m : Mesh) (joiner : String) (r : Resident) (host : String) (h : Resident) (m' : Mesh) : Prop
    extends Answers m joiner r host h where
  free : h.profile.nameTaken r.profile.peer h.store = false
  residents : ∀ u, m'.resident? u =
    if u = joiner then some { r with standing := .answered host (h.welcome r.profile.peer) }
    else if u = host then some { h with store := h.store.letIn r.profile.peer }
    else m.resident? u
  words : m'.words =
    m.words ++ (h.profile.notices r.profile.peer (h.store.letIn r.profile.peer)).map (.ofNotice h.profile)
  introductions : m'.introductions = ⟨joiner, host, h.store.nodes.map Node.target⟩ :: m.introductions
  outcomes : m'.outcomes = m.outcomes

/-- The answer to the joiner `r` has come. -/
structure Receives (m : Mesh) (joiner : String) (r : Resident) (host : String) (reply : JoinReply) : Prop where
  joinerAt : m.resident? joiner = some r
  answered : r.standing = .answered host reply

structure Settles (m : Mesh) (joiner : String) (r : Resident) (host : String) (reply : JoinReply) (m' : Mesh) :
    Prop extends Receives m joiner r host reply where
  unique : reply.nameUnique = true
  residents : ∀ u, m'.resident? u =
    if u = joiner then some { r with store := r.profile.adopt host reply r.store, standing := .member }
    else m.resident? u
  words : m'.words = m.words
  introductions : m'.introductions = m.introductions
  outcomes : m'.outcomes = (r.profile.peer, .joined reply.responder) :: m.outcomes

structure Leaves (m : Mesh) (joiner : String) (r : Resident) (host : String) (reply : JoinReply) (m' : Mesh) :
    Prop extends Receives m joiner r host reply where
  unique : reply.nameUnique = false
  residents : ∀ u, m'.resident? u = if u = joiner then none else m.resident? u
  words : m'.words = m.words
  introductions : m'.introductions = m.introductions
  outcomes : m'.outcomes = (r.profile.peer, .nameConflict host) :: m.outcomes

structure Hears (m : Mesh) (word : Word) (m' : Mesh) : Prop where
  underWay : word ∈ m.words
  residents : ∀ u, m'.resident? u =
    if u = word.listener then
      (m.resident? u).map fun r => { r with store := r.profile.learn word.said r.store }
    else m.resident? u
  words : m'.words = m.words.erase word
  introductions : m'.introductions = m.introductions
  outcomes : m'.outcomes = m.outcomes

variable {m m' : Mesh}

theorem ask_cases {node : Profile} {host : String} (h : m.ask node host = some m') : m.Asks node host m' := by
  unfold ask at h
  split at h
  · rename_i profile store hhost hfresh
    cases h
    exact
      { hostIn := ⟨_, hhost, rfl⟩
        fresh := hfresh
        residents := fun u => Table.get?_insert _ _ _ _
        words := rfl
        introductions := rfl
        outcomes := rfl }
  · cases h

theorem answer_cases {joiner : String} (h : m.answer joiner = some m') :
    ∃ r host member, m.Refuses joiner r host member m' ∨ m.Accepts joiner r host member m' := by
  unfold answer at h
  split at h
  · rename_i profile store host hjoiner
    obtain ⟨member, hhost, rfl⟩ := Option.map_eq_some_iff.1 h
    have hturn : m.Answers joiner ⟨profile, store, .asking host⟩ host member := ⟨hjoiner, rfl, hhost⟩
    refine ⟨⟨profile, store, .asking host⟩, host, member, ?_⟩
    unfold Profile.answerJoin
    cases ht : member.profile.nameTaken profile.peer member.store with
    | true =>
      refine Or.inl
        { hturn with
          taken := ht
          residents := fun u => ?_
          words := ?_
          introductions := rfl
          outcomes := rfl }
      · show ((m.residents.insert host member).insert joiner _).get? u = _
        rw [Table.get?_insert, Table.get?_insert]
        split
        · rfl
        · split
          · rename_i hu
            rw [hu, hhost]
          · rfl
      · exact List.append_nil _
    | false =>
      refine Or.inr
        { hturn with
          free := ht
          residents := fun u => ?_
          words := rfl
          introductions := rfl
          outcomes := rfl }
      show (Table.insert (Table.insert m.residents host _) joiner _).get? u = _
      rw [Table.get?_insert, Table.get?_insert]
      rfl
  · cases h

theorem settle_cases {joiner : String} (h : m.settle joiner = some m') :
    ∃ r host reply, m.Settles joiner r host reply m' ∨ m.Leaves joiner r host reply m' := by
  unfold settle at h
  split at h
  · rename_i profile store host reply hjoiner
    refine ⟨⟨profile, store, .answered host reply⟩, host, reply, ?_⟩
    split at h
    · rename_i hu
      cases h
      exact Or.inl
        { joinerAt := hjoiner
          answered := rfl
          unique := hu
          residents := fun u => Table.get?_insert _ _ _ _
          words := rfl
          introductions := rfl
          outcomes := rfl }
    · rename_i hu
      cases h
      exact Or.inr
        { joinerAt := hjoiner
          answered := rfl
          unique := by simpa using hu
          residents := fun u => Table.get?_erase _ _ _
          words := rfl
          introductions := rfl
          outcomes := rfl }
  · cases h

theorem hear_cases {word : Word} (h : m.hear word = some m') : m.Hears word m' := by
  unfold hear at h
  split at h
  · rename_i hw
    cases h
    exact
      { underWay := hw
        residents := fun u => Table.get?_modify _ _ _ _
        words := rfl
        introductions := rfl
        outcomes := rfl }
  · cases h

/-! ## When a move can be made -/

theorem exists_ask {node : Profile} {host : String} (hhost : m.IsMember host) (hfresh : m.resident? node.target = none) :
    ∃ m', m.ask node host = some m' := by
  obtain ⟨⟨profile, store, standing⟩, hr, rfl⟩ := hhost
  unfold ask
  rw [hr, hfresh]
  exact ⟨_, rfl⟩

theorem Answers.exists_answer {joiner host : String} {r h : Resident} (hm : m.Answers joiner r host h)
    {reply : JoinReply} {after : Store} {notices : List Notice}
    (hanswer : h.profile.answerJoin r.profile.peer h.store = (reply, after, notices)) :
    ∃ m', m.answer joiner = some m' ∧ m'.words = m.words ++ notices.map (.ofNotice h.profile) ∧
      m'.outcomes = m.outcomes ∧
      ∀ u, m'.resident? u =
        if u = joiner then some { r with standing := .answered host reply }
        else if u = host then some { h with store := after }
        else m.resident? u := by
  obtain ⟨profile, store, standing⟩ := r
  obtain rfl : standing = .asking host := hm.asking
  unfold answer
  rw [hm.joinerAt]
  simp only [hm.hostAt, Option.map_some, hanswer]
  refine ⟨_, rfl, rfl, rfl, fun u => ?_⟩
  exact (Table.get?_insert _ _ _ _).trans (congrArg _ (Table.get?_insert _ _ _ _))

theorem Receives.exists_settle {joiner host : String} {r : Resident} {reply : JoinReply}
    (h : m.Receives joiner r host reply) :
    ∃ m', m.settle joiner = some m' ∧ m'.words = m.words ∧
      m'.outcomes =
        (r.profile.peer, if reply.nameUnique then .joined reply.responder else .nameConflict host) :: m.outcomes ∧
      ∀ u, m'.resident? u =
        if u = joiner then
          if reply.nameUnique then some { r with store := r.profile.adopt host reply r.store, standing := .member }
          else none
        else m.resident? u := by
  obtain ⟨profile, store, standing⟩ := r
  obtain rfl : standing = .answered host reply := h.answered
  unfold settle
  rw [h.joinerAt]
  cases hu : reply.nameUnique with
  | true =>
    simp only [hu, if_true]
    exact ⟨_, rfl, rfl, rfl, fun u => Table.get?_insert _ _ _ _⟩
  | false =>
    simp only [hu, Bool.false_eq_true, if_false]
    exact ⟨_, rfl, rfl, rfl, fun u => Table.get?_erase _ _ _⟩

theorem exists_hear {word : Word} (h : word ∈ m.words) : ∃ m', m.hear word = some m' := by
  unfold hear
  rw [if_pos h]
  exact ⟨_, rfl⟩

/-! ## Moves and runs -/

theorem step?_induction {P : Mesh → Mesh → Prop} {move : Move} (h : m.step? move = some m')
    (asks : ∀ {node host}, move = .ask node host → m.Asks node host m' → P m m')
    (refuses : ∀ {joiner r host h}, m.Refuses joiner r host h m' → P m m')
    (accepts : ∀ {joiner r host h}, m.Accepts joiner r host h m' → P m m')
    (settles : ∀ {joiner r host reply}, m.Settles joiner r host reply m' → P m m')
    (leaves : ∀ {joiner r host reply}, m.Leaves joiner r host reply m' → P m m')
    (hears : ∀ {word}, m.Hears word m' → P m m') : P m m' := by
  cases move with
  | ask node host => exact asks rfl (ask_cases h)
  | answer joiner =>
    obtain ⟨r, host, member, h | h⟩ := answer_cases h
    · exact refuses h
    · exact accepts h
  | settle joiner =>
    obtain ⟨r, host, reply, h | h⟩ := settle_cases h
    · exact settles h
    · exact leaves h
  | hear word => exact hears (hear_cases h)

theorem run_induction {P : Mesh → Prop} {moves : List Move}
    (hstep : ∀ move ∈ moves, ∀ m m', P m → m.step? move = some m' → P m') (hm : P m)
    (h : run moves m = some m') : P m' := by
  induction moves generalizing m with
  | nil =>
    cases h
    exact hm
  | cons move moves ih =>
    obtain ⟨m₁, h₁, h⟩ := Option.bind_eq_some_iff.1 h
    refine ih (fun mv hmv => hstep mv (List.mem_cons_of_mem _ hmv)) ?_ h
    exact hstep move List.mem_cons_self m m₁ hm h₁

theorem run_append (moves others : List Move) (m : Mesh) : run (moves ++ others) m = (run moves m).bind (run others) := by
  induction moves generalizing m with
  | nil => rfl
  | cons move moves ih =>
    simp only [List.cons_append, run, Option.bind_assoc]
    exact congrArg _ (funext ih)

/-- The three moves of an attempt to join, when nothing comes between them. -/
theorem exists_run_attempt {node : Profile} {host : String} {h : Resident} (hhost : m.resident? host = some h)
    (hmember : h.standing = .member) (hfresh : m.resident? node.target = none) {reply : JoinReply} {after : Store}
    {notices : List Notice} (hanswer : h.profile.answerJoin node.peer h.store = (reply, after, notices)) :
    ∃ m', run [.ask node host, .answer node.target, .settle node.target] m = some m' ∧
      m'.words = m.words ++ notices.map (.ofNotice h.profile) ∧
      m'.outcomes = (node.peer, if reply.nameUnique then .joined reply.responder else .nameConflict host) :: m.outcomes ∧
      ∀ u, m'.resident? u =
        if u = node.target then
          if reply.nameUnique then some ⟨node, node.adopt host reply {}, .member⟩ else none
        else if u = host then some { h with store := after }
        else m.resident? u := by
  have hne : host ≠ node.target := by
    rintro rfl
    cases hhost.symm.trans hfresh
  obtain ⟨m₁, hask⟩ := exists_ask ⟨h, hhost, hmember⟩ hfresh
  have h₁ := ask_cases hask
  have hturn : m₁.Answers node.target ⟨node, {}, .asking host⟩ host h :=
    ⟨by rw [h₁.residents, if_pos rfl], rfl, by rw [h₁.residents, if_neg hne, hhost]⟩
  obtain ⟨m₂, hanswers, hwords₂, houtcomes₂, hresidents₂⟩ := hturn.exists_answer hanswer
  have hcame : m₂.Receives node.target ⟨node, {}, .answered host reply⟩ host reply :=
    ⟨(hresidents₂ _).trans (if_pos rfl), rfl⟩
  obtain ⟨m₃, hsettles, hwords₃, houtcomes₃, hresidents₃⟩ := hcame.exists_settle
  refine ⟨m₃, ?_, ?_, ?_, fun u => ?_⟩
  · simp only [run, step?, hask, hanswers, hsettles, Option.bind_some]
  · rw [hwords₃, hwords₂, h₁.words]
  · rw [houtcomes₃, houtcomes₂, h₁.outcomes]
  · rw [hresidents₃]
    split
    · rfl
    · rename_i hu
      rw [hresidents₂, if_neg hu, h₁.residents, if_neg hu]

end Mesh

end PeerMesh
