import PeerMesh.Proofs.Connection.Dials
import PeerMesh.World.Scripted

/-!
# One dial for all who ask

Any number of callers ask for the client of one id at the same time, and nobody disconnects it.

* `Crowd.Dialing`, `Crowd.Answered` : a call that dials, and the answer of a call;
* `Crowd.SharesDial` : one dial at a time, none after one that succeeded, one client for all, and errors for those
  alone who dialed;
* `Calls.Shared`, `Calls.Shared.step` : the invariant, kept by every step of every call;
* `Crowd.sharesDial_of_run` : calls share a dial in every order of their effects.
-/

namespace PeerMesh

def Deed.channel? (d : Deed) : Option Channel := d.dial?.bind Dial.channel?

/-- If a deed is a dial, it has come to an end with an error. -/
def Deed.Failed (d : Deed) : Prop := ∀ x, d.dial? = some x → ∃ error, x.result = some (.error error)

theorem Deed.Failed.channel?_eq_none {d : Deed} (h : d.Failed) : d.channel? = none := by
  unfold channel?
  cases hd : d.dial? with
  | none => rfl
  | some x =>
    obtain ⟨error, hx⟩ := h x hd
    rw [Option.bind_some, Option.eq_none_iff_forall_ne_some]
    intro channel hchannel
    rw [Dial.channel?_eq_some.1 hchannel] at hx
    cases hx

namespace Crowd

variable {σ : Type}

/-- A task dials: it has done nothing since. -/
def Dialing (s : Crowd σ PoolAnswer) (k : Nat) : Prop :=
  ∃ d x, s.deeds.find? (fun d => d.task = k) = some d ∧ d.dial? = some x

/-- Calls that share one dial. -/
structure SharesDial (s : Crowd σ PoolAnswer) : Prop where
  /-- One of them dials at a time. -/
  alone : ∀ j k, s.Dialing j → s.Dialing k → j = k
  /-- Whatever was dialed before a dial has failed. -/
  failed : s.deeds.Pairwise fun d e => d.dial? ≠ none → e.Failed
  /-- One dial succeeds at most. -/
  once : (s.deeds.filterMap Deed.channel?).length ≤ 1
  /-- All get the same client. -/
  same : ∀ j k client other, s.Answered j (.client (.ok client)) → s.Answered k (.client (.ok other)) → client = other
  /-- An error is that of the one dial of the caller. -/
  own : ∀ k e, s.Answered k (.client (.error e)) →
    ∃ target error, e = .dial target error ∧ Deed.dialsOf k s.deeds = [⟨target, some (.error error)⟩]

end Crowd

/-! ## The invariant -/

/-- A call that asks for the client of an id. -/
def PoolCall.Obtains (id : NodeId) (call : PoolCall) : Prop := ∃ peer, call = .obtain peer ∧ peer.id = id

theorem PoolCall.Obtains.id? {id : NodeId} {call : PoolCall} (h : call.Obtains id) : call.id? = some id := by
  obtain ⟨peer, rfl, rfl⟩ := h
  rfl

namespace Turn

variable {me : Profile} {k n n' : Nat} {ticket : Ticket} {p p' : Pool} {stage stage' : Stage} {deeds : List Deed}
  {id : NodeId}

theorem ne_first (h : Turn me k ticket n p stage p' stage' n' deeds) (call : PoolCall) : stage' ≠ .first call := by
  cases h <;> nofun

theorem get?_of_obtains (h : Turn me k ticket n p stage p' stage' n' deeds)
    (hfirst : ∀ call, stage = .first call → call.Obtains id) {slot : Nat} (hid : p.table.get? id = some slot) :
    p'.table.get? id = some slot := by
  have hnot : ∀ peer, stage ≠ .first (.disconnect peer) := by
    intro peer hstage
    obtain ⟨peer', hcall, -⟩ := hfirst _ hstage
    cases hcall
  cases h with
  | enter => exact Pool.get?_enter_of_some hid
  | miss => exact absurd rfl (hnot _)
  | evict => exact absurd rfl (hnot _)
  | served => exact hid
  | chosen => exact hid
  | blocked => exact hid
  | dial => exact hid
  | hang => exact hid
  | settle => exact hid
  | close => exact hid

theorem get?_of_slot? (h : Turn me k ticket n p stage p' stage' n' deeds)
    (hfirst : ∀ call, stage = .first call → call.Obtains id)
    (hp : ∀ slot, stage.slot? = some slot → p.table.get? id = some slot) {slot : Nat}
    (hslot : stage'.slot? = some slot) : p'.table.get? id = some slot := by
  cases h with
  | @enter peer =>
    cases hslot
    obtain ⟨peer', hcall, rfl⟩ := hfirst _ rfl
    cases hcall
    exact p.get?_enter peer.id
  | chosen =>
    cases hslot
    exact hp _ rfl
  | blocked =>
    cases hslot
    exact hp _ rfl
  | dial =>
    cases hslot
    exact hp _ rfl
  | hang =>
    cases hslot
    exact hp _ rfl
  | _ => cases hslot

theorem client?_of_obtains (h : Turn me k ticket n p stage p' stage' n' deeds) (hplaced : p.Placed)
    (hfirst : ∀ call, stage = .first call → call.Obtains id)
    (hp : ∀ slot, stage.dialing? = some slot → p.DialedBy slot ticket) {client : Client}
    (hclient : p.client? id = some client) : p'.client? id = some client := by
  have hnot : ∀ peer, stage ≠ .first (.disconnect peer) := by
    intro peer hstage
    obtain ⟨peer', hcall, -⟩ := hfirst _ hstage
    cases hcall
  cases h with
  | enter => rw [hplaced.client?_enter, hclient]
  | miss => exact absurd rfl (hnot _)
  | evict => exact absurd rfl (hnot _)
  | served => rw [Pool.client?_claim, hclient]
  | chosen => rw [Pool.client?_claim, hclient]
  | blocked => rw [Pool.client?_claim, hclient]
  | dial => exact hclient
  | hang => exact hclient
  | settle =>
    rcases (hp _ rfl).client?_settle hplaced _ id with hsame | ⟨hnone, -⟩
    · rw [hsame, hclient]
    · rw [hnone] at hclient
      cases hclient
  | close => exact hclient

/-- A call that obtains a client gets the one of the table. -/
theorem client?_of_ended (h : Turn me k ticket n p stage p' stage' n' deeds) (hplaced : p.Placed)
    (hp : ∀ slot, stage.slot? = some slot → p.table.get? id = some slot) {client : Client}
    (hended : stage' = .ended (.client (.ok client))) : p'.client? id = some client := by
  cases h with
  | @served _ slot _ _ _ hverdict =>
    cases hended
    obtain ⟨x, hx, hclient⟩ := Pool.client_of_verdict hverdict
    have hid : (p.claim slot ticket).table.get? id = some slot := hp slot rfl
    unfold Pool.client?
    rw [hid, Option.bind_some, hx, Option.bind_some, hclient]
  | @settle peer slot _ result =>
    have hid := hp slot rfl
    rw [Pool.client?_settle hid (hplaced id slot hid)]
    injection hended with hanswer
    injection hanswer with hresult
    rw [hresult]
    rfl
  | _ => cases hended

theorem dialing_of_find? (h : Turn me k ticket n p stage p' stage' n' deeds) {earlier : List Deed} {d : Deed} {x : Dial}
    (hlast : ∀ d x, earlier.find? (fun d => d.task = k) = some d → d.dial? = some x → stage.dialing? ≠ none)
    (hd : (deeds ++ earlier).find? (fun d => d.task = k) = some d) (hx : d.dial? = some x) :
    stage'.dialing? ≠ none := by
  rcases h.deeds_cases with ⟨rfl, rfl, -⟩ | ⟨e, rfl, htask, hnone⟩ | ⟨peer, slot, result, -, -, hdialing, -⟩
  · exact hlast d x hd hx
  · rw [List.singleton_append, List.find?_cons_of_pos (by simpa using htask)] at hd
    cases hd
    rw [hnone] at hx
    cases hx
  · simp [hdialing]

/-- Only a call whose turn it is dials. -/
theorem chosen_of_dial (h : Turn me k ticket n p stage p' stage' n' deeds) {d : Deed} (hd : d ∈ deeds)
    (hx : d.dial? ≠ none) : ∃ peer slot, stage = .chosen peer slot := by
  rcases h.deeds_cases with ⟨rfl, -⟩ | ⟨e, rfl, -, hnone⟩ | ⟨peer, slot, result, -, hstage, -⟩
  · cases hd
  · rw [List.mem_singleton.1 hd] at hx
    exact absurd hnone hx
  · exact ⟨peer, slot, hstage⟩

end Turn

namespace Calls

/-- What holds of calls that obtain the client of an id, at any time. -/
structure Shared (me : Profile) (id : NodeId) (c : Calls) : Prop extends c.Sound me where
  first : ∀ (k : Nat) a call, c.callers[k]? = some a → a.stage = .first call → call.Obtains id
  table : ∀ (k : Nat) a slot, c.callers[k]? = some a → a.stage.slot? = some slot → c.pool.table.get? id = some slot
  kept : ∀ (k : Nat) a client, c.callers[k]? = some a → a.stage = .ended (.client (.ok client)) →
    c.pool.client? id = some client
  last : ∀ (k : Nat) a d x, c.callers[k]? = some a → c.deeds.find? (fun d => d.task = k) = some d → d.dial? = some x →
    a.stage.dialing? ≠ none
  failed : c.deeds.Pairwise fun d e => d.dial? ≠ none → e.Failed

variable {me : Profile} {id : NodeId} {c : Calls}

theorem Shared.empty (me : Profile) (id : NodeId) {p : Pool} (hp : p.Placed) (tickets dialed : Nat) :
    Shared me id { pool := p, tickets, dialed } where
  toSound := .first me hp tickets dialed
  first k a call h := by simp at h
  table k a slot h := by simp at h
  kept k a client h := by simp at h
  last k a d x h := by simp at h
  failed := .nil

theorem Shared.alone (hc : c.Shared me id) {j k : Nat} {a b : Caller} (ha : c.callers[j]? = some a)
    (hb : c.callers[k]? = some b) (hdials : a.stage.dialing? ≠ none) (hdials' : b.stage.dialing? ≠ none) : j = k := by
  obtain ⟨slot, hslot⟩ := Option.ne_none_iff_exists'.1 hdials
  obtain ⟨slot', hslot'⟩ := Option.ne_none_iff_exists'.1 hdials'
  have hid := hc.table j a slot ha (Stage.slot?_of_dialing? hslot)
  have hid' := hc.table k b slot' hb (Stage.slot?_of_dialing? hslot')
  cases hid.symm.trans hid'
  have hticket := (hc.dialing j a slot ha hslot).unique (hc.dialing k b slot hb hslot')
  exact hc.apart j k a b ha hb hticket

theorem Shared.failed_of_chosen (hc : c.Shared me id) {k : Nat} {a : Caller} (ha : c.callers[k]? = some a) {peer : Peer}
    {slot : Nat} (hstage : a.stage = .chosen peer slot) {e : Deed} (he : e ∈ c.deeds) : e.Failed := by
  intro x hx
  have hdials : a.stage.dialing? = some slot := by
    rw [hstage]
    rfl
  obtain ⟨b, hb, ⟨slot', hslot', hchosen⟩ | ⟨peer', result, hended, rfl⟩⟩ := hc.exists_caller he hx
  · have hk : e.task = k := hc.alone hb ha (by simp [hslot']) (by simp [hdials])
    rw [hk, ha] at hb
    cases hb
    rw [hdials] at hslot'
    cases hslot'
    exact absurd hstage (hchosen peer)
  · cases result with
    | error error => exact ⟨error, rfl⟩
    | ok channel =>
      -- a client would be in the table, where its slot has none
      have hclient := hc.kept _ b ⟨channel, me.limit⟩ hb hended
      have hnone := (hc.dialing k a slot ha hdials).client?_eq_none
        (hc.table k a slot ha (Stage.slot?_of_dialing? hdials))
      rw [hclient] at hnone
      cases hnone

theorem Shared.start (hc : c.Shared me id) {call : PoolCall} (hcall : call.Obtains id) :
    Shared me id { c with callers := c.callers ++ [⟨⟨c.tickets⟩, .first call⟩], tickets := c.tickets + 1 } where
  toSound := hc.toSound.start call
  first k a call' ha hfirst := by
    rcases getElem?_concat_cases ha with ha | ⟨-, rfl⟩
    · exact hc.first k a call' ha hfirst
    · cases hfirst
      exact hcall
  table k a slot ha hslot := by
    rcases getElem?_concat_cases ha with ha | ⟨-, rfl⟩
    · exact hc.table k a slot ha hslot
    · cases hslot
  kept k a client ha hended := by
    rcases getElem?_concat_cases ha with ha | ⟨-, rfl⟩
    · exact hc.kept k a client ha hended
    · cases hended
  last k a d x ha hd hx := by
    rcases getElem?_concat_cases ha with ha | ⟨rfl, -⟩
    · exact hc.last k a d x ha hd hx
    · have htask := List.find?_some hd
      have hlt := hc.tasks d (List.mem_of_find?_eq_some hd)
      simp only [decide_eq_true_eq] at htask
      omega
  failed := hc.failed

theorem Shared.turn (hc : c.Shared me id) {k n : Nat} {a : Caller} {p : Pool} {stage : Stage} {deeds : List Deed}
    (ha : c.callers[k]? = some a) (h : Turn me k a.ticket c.dialed c.pool a.stage p stage n deeds) :
    Shared me id
      { c with pool := p, callers := c.callers.set k ⟨a.ticket, stage⟩, dialed := n, deeds := deeds ++ c.deeds } := by
  have hfirst : ∀ call, a.stage = .first call → call.Obtains id := fun call => hc.first k a call ha
  have hdialing : ∀ slot, a.stage.dialing? = some slot → c.pool.DialedBy slot a.ticket :=
    fun slot => hc.dialing k a slot ha
  have hslot : ∀ slot, a.stage.slot? = some slot → c.pool.table.get? id = some slot := fun slot => hc.table k a slot ha
  refine ⟨hc.toSound.turn ha h, fun j b call hb hcall => ?_, fun j b slot hb hb' => ?_, fun j b client hb hended => ?_,
    fun j b d x hb hd hx => ?_, ?_⟩
  · rcases getElem?_set_cases ha hb with ⟨-, rfl⟩ | ⟨-, hb⟩
    · exact absurd hcall (h.ne_first call)
    · exact hc.first j b call hb hcall
  · rcases getElem?_set_cases ha hb with ⟨-, rfl⟩ | ⟨-, hb⟩
    · exact h.get?_of_slot? hfirst hslot hb'
    · exact h.get?_of_obtains hfirst (hc.table j b slot hb hb')
  · rcases getElem?_set_cases ha hb with ⟨-, rfl⟩ | ⟨-, hb⟩
    · exact h.client?_of_ended hc.placed hslot hended
    · exact h.client?_of_obtains hc.placed hfirst hdialing (hc.kept j b client hb hended)
  · rcases getElem?_set_cases ha hb with ⟨rfl, rfl⟩ | ⟨hj, hb⟩
    · exact h.dialing_of_find? (fun d x => hc.last j a d x ha) hd hx
    · have hother : deeds.find? (fun d => d.task = j) = none := by
        rw [List.find?_eq_none]
        intro e he
        rw [h.task_eq e he]
        simpa using hj
      rw [List.find?_append, hother, Option.none_or] at hd
      exact hc.last j b d x hb hd hx
  · refine List.pairwise_append.2 ⟨h.pairwise _, hc.failed, fun d hd e he hdial => ?_⟩
    · obtain ⟨peer, slot, hstage⟩ := h.chosen_of_dial hd hdial
      exact hc.failed_of_chosen ha hstage he

theorem Shared.step {c' : Calls} (hc : c.Shared me id) (h : c.Step me (PoolCall.Obtains id) c') : c'.Shared me id := by
  cases h with
  | start hcall => exact hc.start hcall
  | turn ha hturn => exact hc.turn ha hturn
  | wait => exact hc

end Calls

/-! ## Every run -/

namespace Crowd

variable {σ : Type} {s s' : Crowd σ PoolAnswer} {me : Profile} {i : Nat} {id : NodeId} {c : Calls}

theorem Shows.exists_of_answered (hs : s.Shows me i id c) {k : Nat} {answer : PoolAnswer} (h : s.Answered k answer) :
    ∃ a, c.callers[k]? = some a ∧ a.stage = .ended answer := by
  obtain ⟨t, ht, hdone⟩ := h
  have hk : k < c.callers.length := hs.length ▸ (List.getElem?_eq_some_iff.1 ht).1
  have ha := List.getElem?_eq_getElem hk
  have hrest := (hs.calls k t _ ht ha).rest
  rw [hdone] at hrest
  exact ⟨_, ha, Stage.eq_ended_of_rest hrest.symm⟩

theorem Shows.sharesDial (hs : s.Shows me i id c) (hc : c.Shared me id) : s.SharesDial := by
  have hcaller : ∀ k, s.Dialing k → ∃ a, c.callers[k]? = some a ∧ a.stage.dialing? ≠ none := by
    rintro k ⟨d, x, hd, hx⟩
    rw [hs.deeds] at hd
    have htask : d.task = k := by simpa using List.find?_some hd
    have hk := hc.tasks d (List.mem_of_find?_eq_some hd)
    rw [htask] at hk
    have ha := List.getElem?_eq_getElem hk
    exact ⟨_, ha, hc.last k _ d x ha hd hx⟩
  refine ⟨fun j k hj hk => ?_, ?_, ?_, fun j k client other hj hk => ?_, fun k e hk => ?_⟩
  · obtain ⟨a, ha, hdials⟩ := hcaller j hj
    obtain ⟨b, hb, hdials'⟩ := hcaller k hk
    exact hc.alone ha hb hdials hdials'
  · rw [hs.deeds]
    exact hc.failed
  · have hnone : (s.deeds.filterMap Deed.channel?).Pairwise fun _ _ => False := by
      rw [hs.deeds, List.pairwise_filterMap]
      refine hc.failed.imp fun {d e} hfailed channel hd other he => ?_
      have hdial : d.dial? ≠ none := by
        intro hdial
        simp [Deed.channel?, hdial] at hd
      rw [(hfailed hdial).channel?_eq_none] at he
      cases he
    match s.deeds.filterMap Deed.channel?, hnone with
    | [], _ => exact Nat.zero_le 1
    | [_], _ => exact Nat.le_refl 1
    | a :: b :: _, hnone => exact (List.rel_of_pairwise_cons hnone List.mem_cons_self).elim
  · obtain ⟨a, ha, hended⟩ := hs.exists_of_answered hj
    obtain ⟨b, hb, hended'⟩ := hs.exists_of_answered hk
    have hclient := hc.kept j a client ha hended
    rw [hc.kept k b other hb hended'] at hclient
    exact (Option.some.inj hclient).symm
  · obtain ⟨a, ha, hended⟩ := hs.exists_of_answered hk
    have hdid := hc.did k a ha
    rw [hended] at hdid
    rw [hs.deeds]
    generalize Deed.dialsOf k c.deeds = dials at hdid
    generalize hanswer : PoolAnswer.client (.error e) = answer at hdid
    cases hdid with
    | served => cases hanswer
    | closed => cases hanswer
    | @settled peer result =>
      cases result with
      | ok channel => cases hanswer
      | error error =>
        cases hanswer
        exact ⟨peer.target, error, rfl, rfl⟩

variable [Network σ]

/-- Calls that obtain the client of one id share a dial, in every order of their effects and whatever comes of their
dials. -/
theorem sharesDial_of_run {p : Pool} (hp : s.world.pool? i = some p) (hplaced : p.Placed) (htasks : s.tasks = [])
    (hdeeds : s.deeds = []) {moves : List (Move PoolAnswer)}
    (hmoves : ∀ m ∈ moves, PoolMove me i (PoolCall.Obtains id) m) (hrun : s.run moves = some s') : s'.SharesDial := by
  have hfirst := Shows.first hp htasks hdeeds me id
  have hshared := Calls.Shared.empty me id hplaced s.world.tickets s.world.dialed
  obtain ⟨c, hs, hc⟩ := hfirst.run (fun call => PoolCall.Obtains.id?) (fun c c' => Calls.Shared.step) hshared hmoves hrun
  exact hs.sharesDial hc

end Crowd

/-- A node on a network with one target, which takes five milliseconds to refuse the first dial and five more to accept
the next. -/
def hesitant : World ScriptedNetwork where
  members := [{ profile := { name := "a", target := "a:1" } }]
  network := ScriptedNetwork.setRoute {} "b:1"
    { dials := ⟨[⟨some (.ofMillis 5), .error (ScriptedNetwork.refused "b:1")⟩, ⟨some (.ofMillis 5), .ok ()⟩]⟩ }

/-- Three callers, of which the second takes over when the dial of the first fails. -/
def takeover : List (Crowd.Move PoolAnswer) :=
  let call := (PoolCall.obtain ⟨"b", "b:1"⟩).activity { name := "a", target := "a:1" }
  [.start 0 call, .start 0 call, .start 0 call, .go 0, .go 1, .go 2, .go 0, .go 1, .go 2, .go 0, .wait 5000000 0, .go 0,
    .go 2, .go 1, .go 1, .go 2, .wait 10000000 0, .go 1, .go 2]

theorem hesitant_takeover :
    ∃ s', Crowd.run takeover { world := hesitant } = some s' ∧
      s'.Answered 0 (.client (.error (.dial "b:1" (ScriptedNetwork.refused "b:1")))) ∧
      s'.Answered 1 (.client (.ok ⟨⟨1, "b:1"⟩, .ofSeconds 5⟩)) ∧
      s'.Answered 2 (.client (.ok ⟨⟨1, "b:1"⟩, .ofSeconds 5⟩)) ∧ s'.SharesDial := by
  have hcall : ∀ m ∈ takeover, Crowd.PoolMove { name := "a", target := "a:1" } 0 (PoolCall.Obtains (.ofTarget "b:1")) m := by
    have hstart : Crowd.PoolMove { name := "a", target := "a:1" } 0 (PoolCall.Obtains (.ofTarget "b:1"))
        (.start 0 ((PoolCall.obtain ⟨"b", "b:1"⟩).activity { name := "a", target := "a:1" })) :=
      .start ⟨⟨"b", "b:1"⟩, rfl, rfl⟩
    simp only [takeover, List.forall_mem_cons]
    simp [hstart, Crowd.PoolMove.go, Crowd.PoolMove.wait]
  obtain ⟨s', hrun, h0, h1, h2⟩ : ∃ s', Crowd.run takeover { world := hesitant } = some s' ∧
      s'.Answered 0 (.client (.error (.dial "b:1" (ScriptedNetwork.refused "b:1")))) ∧
      s'.Answered 1 (.client (.ok ⟨⟨1, "b:1"⟩, .ofSeconds 5⟩)) ∧
      s'.Answered 2 (.client (.ok ⟨⟨1, "b:1"⟩, .ofSeconds 5⟩)) :=
    ⟨_, rfl, ⟨_, rfl, rfl⟩, ⟨_, rfl, rfl⟩, ⟨_, rfl, rfl⟩⟩
  exact ⟨s', hrun, h0, h1, h2, Crowd.sharesDial_of_run rfl Pool.Neat.empty.placed rfl rfl hcall hrun⟩

end PeerMesh
