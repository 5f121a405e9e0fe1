import PeerMesh.Proofs.Connection.Stages

/-!
# Who dials

What holds of the calls of a pool in every order of their effects: a slot has one caller that dials for it, and a call
that dials has done so once.

* `Deed.dialsOf`, `Deed.Gave` : the dials of a task, and a channel that one of them gave;
* `Pool.DialedBy` : a slot without a client, with the caller that dials for it;
* `Stage.Did` : the dials that a call has made when it is at some stage;
* `Calls.Sound`, `Calls.Sound.step` : the invariant of the calls of one id, kept by every step.
-/

namespace PeerMesh

/-! ## The dials of a task -/

namespace Deed

/-- The dials of a task, the last first. -/
def dialsOf (k : Nat) (deeds : List Deed) : List Dial := (deeds.filter fun d => d.task = k).filterMap dial?

theorem dialsOf_append (k : Nat) (deeds earlier : List Deed) :
    dialsOf k (deeds ++ earlier) = dialsOf k deeds ++ dialsOf k earlier := by
  unfold dialsOf
  rw [List.filter_append, List.filterMap_append]

theorem dialsOf_of_ne {k : Nat} {deeds : List Deed} (h : ∀ d ∈ deeds, d.task ≠ k) : dialsOf k deeds = [] := by
  have hnone : deeds.filter (fun d => d.task = k) = [] := by
    rw [List.filter_eq_nil_iff]
    simpa using h
  unfold dialsOf
  rw [hnone, List.filterMap_nil]

theorem dialsOf_singleton (k : Nat) (d : Deed) : dialsOf k [d] = if d.task = k then d.dial?.toList else [] := by
  by_cases hk : d.task = k
  · rw [if_pos hk]
    cases hd : d.dial? with
    | none => simp [dialsOf, hk, hd]
    | some x => simp [dialsOf, hk, hd]
  · simp [dialsOf, hk]

theorem Plain.dialsOf_eq_nil {d : Deed} {k : Nat} (hd : d.Plain k) (j : Nat) : dialsOf j [d] = [] := by
  rw [dialsOf_singleton, hd.dial?]
  exact ite_self _

theorem mem_dialsOf {k : Nat} {deeds : List Deed} {x : Dial} :
    x ∈ dialsOf k deeds ↔ ∃ d ∈ deeds, d.task = k ∧ d.dial? = some x := by
  simp [dialsOf, and_assoc]

/-- A dial of a task gave a channel, or will give it once it comes to an end. -/
def Gave (deeds : List Deed) (k : Nat) (channel : Channel) : Prop :=
  ∃ x ∈ dialsOf k deeds, x.result = some (.ok channel)

theorem gave_append {deeds earlier : List Deed} {k : Nat} {channel : Channel} :
    Gave (deeds ++ earlier) k channel ↔ Gave deeds k channel ∨ Gave earlier k channel := by
  unfold Gave
  rw [dialsOf_append]
  simp [or_and_right, exists_or]

end Deed

/-! ## The caller that dials for a slot -/

/-- A slot has no client yet, and the caller with the ticket dials for it. -/
def Pool.DialedBy (p : Pool) (slot : Nat) (ticket : Ticket) : Prop :=
  ∃ x, p.slots[slot]? = some x ∧ x.client = none ∧ x.dialer = some ticket

namespace Pool

variable {p : Pool} {slot : Nat} {ticket other : Ticket}

theorem DialedBy.unique (h : p.DialedBy slot ticket) (h' : p.DialedBy slot other) : ticket = other := by
  obtain ⟨x, hx, -, hdialer⟩ := h
  obtain ⟨y, hy, -, hdialer'⟩ := h'
  cases hx.symm.trans hy
  exact Option.some.inj (hdialer.symm.trans hdialer')

theorem DialedBy.client?_eq_none (h : p.DialedBy slot ticket) {id : NodeId} (hid : p.table.get? id = some slot) :
    p.client? id = none := by
  obtain ⟨x, hx, hclient, -⟩ := h
  unfold client?
  rw [hid, Option.bind_some, hx, Option.bind_some, hclient]

/-- A caller that is told to dial is the one that dials for the slot. -/
theorem dialedBy_of_verdict (h : p.verdict slot ticket = some none) : p.DialedBy slot ticket := by
  obtain ⟨x, hx, hverdict⟩ := Option.bind_eq_some_iff.1 h
  refine ⟨x, hx, ?_⟩
  unfold Slot.verdict at hverdict
  cases hclient : x.client with
  | some client => simp [hclient] at hverdict
  | none => simpa [hclient] using hverdict

theorem client_of_verdict {client : Client} (h : p.verdict slot ticket = some (some client)) :
    ∃ x, p.slots[slot]? = some x ∧ x.client = some client := by
  obtain ⟨x, hx, hverdict⟩ := Option.bind_eq_some_iff.1 h
  refine ⟨x, hx, ?_⟩
  unfold Slot.verdict at hverdict
  cases hclient : x.client with
  | some c => simpa [hclient] using hverdict
  | none => simp [hclient] at hverdict

theorem DialedBy.claim (h : p.DialedBy slot ticket) (n : Nat) (other : Ticket) :
    (p.claim n other).DialedBy slot ticket := by
  obtain ⟨x, hx, hclient, hdialer⟩ := h
  unfold DialedBy Pool.claim onSlot
  rw [List.getElem?_modify, hx]
  by_cases hn : n = slot
  · refine ⟨x.claim other, by simp [hn], ?_⟩
    unfold Slot.claim
    split
    · exact ⟨hclient, hdialer⟩
    · rw [hdialer]
      exact ⟨hclient, rfl⟩
  · exact ⟨x, by simp [hn], hclient, hdialer⟩

theorem DialedBy.enter (h : p.DialedBy slot ticket) (id : NodeId) : (p.enter id).2.DialedBy slot ticket := by
  obtain ⟨x, hx, hslot⟩ := h
  refine ⟨x, ?_, hslot⟩
  unfold Pool.enter
  cases p.table.get? id with
  | some n => exact hx
  | none => exact List.getElem?_append_left (List.getElem?_eq_some_iff.1 hx).1 ▸ hx

theorem DialedBy.settle (h : p.DialedBy slot ticket) {n : Nat} (hn : p.DialedBy n other) (hne : ticket ≠ other)
    (result : Option Client) : (p.settle n result).DialedBy slot ticket := by
  have hslot : n ≠ slot := by
    rintro rfl
    exact hne (h.unique hn)
  obtain ⟨x, hx, hx'⟩ := h
  refine ⟨x, ?_, hx'⟩
  unfold Pool.settle onSlot
  rw [List.getElem?_modify, hx]
  simp [hslot]

@[simp] theorem length_slots_claim (p : Pool) (n : Nat) (ticket : Ticket) :
    (p.claim n ticket).slots.length = p.slots.length := List.length_modify _ _ _

@[simp] theorem length_slots_settle (p : Pool) (n : Nat) (result : Option Client) :
    (p.settle n result).slots.length = p.slots.length := List.length_modify _ _ _

theorem Placed.enter (hp : p.Placed) (id : NodeId) : (p.enter id).2.Placed := by
  intro k n hn
  unfold Pool.enter at hn ⊢
  cases hid : p.table.get? id with
  | some m =>
    rw [hid] at hn
    exact hp k n hn
  | none =>
    simp only [hid, Table.get?_insert] at hn
    simp only [List.length_append, List.length_singleton]
    split at hn
    · cases hn
      omega
    · have := hp k n hn
      omega

theorem Placed.evict (hp : p.Placed) (id : NodeId) : (p.evict id).2.Placed := by
  intro k n hn
  simp only [Pool.evict, Table.get?_erase] at hn
  split at hn
  · cases hn
  · exact hp k n hn

theorem Placed.claim (hp : p.Placed) (n : Nat) (ticket : Ticket) : (p.claim n ticket).Placed := by
  intro k m hm
  rw [length_slots_claim]
  exact hp k m hm

theorem Placed.settle (hp : p.Placed) (n : Nat) (result : Option Client) : (p.settle n result).Placed := by
  intro k m hm
  rw [length_slots_settle]
  exact hp k m hm

theorem client?_settle {id : NodeId} (hid : p.table.get? id = some slot) (hslot : slot < p.slots.length)
    (result : Option Client) : (p.settle slot result).client? id = result := by
  have htable : (p.settle slot result).table.get? id = some slot := hid
  unfold client?
  rw [htable, Option.bind_some]
  unfold Pool.settle onSlot
  rw [List.getElem?_modify, List.getElem?_eq_getElem hslot]
  cases result with
  | some client => simp [Slot.settle]
  | none => simp [Slot.settle]

theorem client?_settle_of_ne {id : NodeId} (hid : p.table.get? id ≠ some slot) (result : Option Client) :
    (p.settle slot result).client? id = p.client? id := by
  unfold client?
  show (p.table.get? id).bind _ = _
  cases hother : p.table.get? id with
  | none => rfl
  | some n =>
    have hn : slot ≠ n := by
      rintro rfl
      exact hid hother
    have hslots : (p.settle slot result).slots[n]? = p.slots[n]? := by
      simp [Pool.settle, onSlot, hn]
    rw [Option.bind_some, Option.bind_some, hslots]

/-- The end of a dial fills the slot of an id, unless that has been taken out of the table. -/
theorem DialedBy.client?_settle (h : p.DialedBy slot ticket) (hp : p.Placed) (result : Option Client) (id : NodeId) :
    (p.settle slot result).client? id = p.client? id ∨
      p.client? id = none ∧ (p.settle slot result).client? id = result := by
  by_cases hid : p.table.get? id = some slot
  · exact Or.inr ⟨h.client?_eq_none hid, Pool.client?_settle hid (hp id slot hid) result⟩
  · exact Or.inl (client?_settle_of_ne hid result)

theorem get?_enter_of_some {id k : NodeId} (h : p.table.get? k = some slot) :
    (p.enter id).2.table.get? k = some slot := by
  unfold enter
  cases hid : p.table.get? id with
  | some n => exact h
  | none =>
    rw [Table.get?_insert]
    split
    · rename_i hk
      rw [hk, hid] at h
      cases h
    · exact h

end Pool

/-! ## What a turn preserves -/

/-- The dials that a call has made when it is at some stage: one at most, for the client that it answers with. -/
inductive Stage.Did (me : Profile) : Stage → List Dial → Prop where
  | first {call : PoolCall} : Did me (.first call) []
  | entered {peer : Peer} {slot : Nat} : Did me (.entered peer slot) []
  | chosen {peer : Peer} {slot : Nat} : Did me (.chosen peer slot) []
  | dialed {peer : Peer} {slot : Nat} {result : Except DialError Channel} :
      Did me (.dialed peer slot result) [⟨peer.target, some result⟩]
  | hung {peer : Peer} {slot : Nat} : Did me (.hung peer slot) [⟨peer.target, none⟩]
  | closing {peer : Peer} {client : Client} : Did me (.closing peer client) []
  | served {client : Client} : Did me (.ended (.client (.ok client))) []
  | settled {peer : Peer} {result : Except DialError Channel} :
      Did me (.ended (.client (me.clientOf peer.target result))) [⟨peer.target, some result⟩]
  | closed {answer : Except PeerError Unit} : Did me (.ended (.closed answer)) []

/-- Until a call has ended, it has been given the channel of the dial that is under way and no other. -/
theorem Stage.Did.gave_iff {me : Profile} {stage : Stage} {k : Nat} {deeds : List Deed}
    (h : stage.Did me (Deed.dialsOf k deeds)) (hended : ∀ answer, stage ≠ .ended answer) (channel : Channel) :
    Deed.Gave deeds k channel ↔ ∃ peer slot, stage = .dialed peer slot (.ok channel) := by
  unfold Deed.Gave
  generalize Deed.dialsOf k deeds = dials at h
  cases h with
  | served => exact absurd rfl (hended _)
  | settled => exact absurd rfl (hended _)
  | closed => exact absurd rfl (hended _)
  | _ => simp

namespace Turn

variable {me : Profile} {k n n' : Nat} {ticket : Ticket} {p p' : Pool} {stage stage' : Stage} {deeds : List Deed}

/-- A turn is no deed, one that is not a dial, or the dial of a call whose turn it is to dial. -/
theorem deeds_cases (h : Turn me k ticket n p stage p' stage' n' deeds) :
    (deeds = [] ∧ stage' = stage ∧ ∃ peer slot, stage = .entered peer slot) ∨
      (∃ d, deeds = [d] ∧ d.task = k ∧ d.dial? = none) ∨
      ∃ peer slot result, deeds = [⟨k, .dial peer.target me.security .lazy none, result⟩] ∧
        stage = .chosen peer slot ∧ stage'.dialing? = some slot ∧ n' = n + 1 ∧
        ∀ channel, result = some (.ok channel) → channel.number = n := by
  have hplain : ∀ d : Deed, d.Plain k → ∃ e, [d] = [e] ∧ e.task = k ∧ e.dial? = none :=
    fun d hd => ⟨d, rfl, hd.task, hd.dial?⟩
  cases h with
  | enter hd => exact Or.inr (Or.inl (hplain _ hd))
  | miss hd => exact Or.inr (Or.inl (hplain _ hd))
  | evict hd => exact Or.inr (Or.inl (hplain _ hd))
  | served hd => exact Or.inr (Or.inl (hplain _ hd))
  | chosen hd => exact Or.inr (Or.inl (hplain _ hd))
  | blocked => exact Or.inl ⟨rfl, rfl, _, _, rfl⟩
  | dial hnumber =>
    exact Or.inr (Or.inr ⟨_, _, _, rfl, rfl, rfl, rfl, fun channel h => hnumber channel (Option.some.inj h)⟩)
  | hang => exact Or.inr (Or.inr ⟨_, _, _, rfl, rfl, rfl, rfl, nofun⟩)
  | settle hd => exact Or.inr (Or.inl (hplain _ hd))
  | close => exact Or.inr (Or.inl ⟨_, rfl, rfl, rfl⟩)

theorem task_eq (h : Turn me k ticket n p stage p' stage' n' deeds) : ∀ d ∈ deeds, d.task = k := by
  rcases h.deeds_cases with ⟨rfl, -⟩ | ⟨d, rfl, htask, -⟩ | ⟨peer, slot, result, rfl, -⟩
  · simp
  · simpa using htask
  · simp

theorem pairwise (h : Turn me k ticket n p stage p' stage' n' deeds) (R : Deed → Deed → Prop) : deeds.Pairwise R := by
  rcases h.deeds_cases with ⟨rfl, -⟩ | ⟨d, rfl, -⟩ | ⟨peer, slot, result, rfl, -⟩
  · exact .nil
  · exact List.pairwise_singleton R d
  · exact List.pairwise_singleton R _

/-- A channel that a turn gives bears the number of the dial. -/
theorem gave (h : Turn me k ticket n p stage p' stage' n' deeds) {j : Nat} {channel : Channel}
    (hgave : Deed.Gave deeds j channel) : j = k ∧ channel.number = n ∧ n' = n + 1 := by
  obtain ⟨x, hx, hresult⟩ := hgave
  obtain ⟨d, hd, rfl, hdial⟩ := Deed.mem_dialsOf.1 hx
  refine ⟨h.task_eq d hd, ?_⟩
  rcases h.deeds_cases with ⟨rfl, -⟩ | ⟨e, rfl, -, hnone⟩ | ⟨peer, slot, result, rfl, -, -, hn, hnumber⟩
  · cases hd
  · rw [List.mem_singleton.1 hd, hnone] at hdial
    cases hdial
  · cases List.mem_singleton.1 hd
    cases hdial
    exact ⟨hnumber channel hresult, hn⟩

theorem ne_ended (h : Turn me k ticket n p stage p' stage' n' deeds) (answer : PoolAnswer) : stage ≠ .ended answer := by
  cases h <;> nofun

theorem placed (h : Turn me k ticket n p stage p' stage' n' deeds) (hp : p.Placed) : p'.Placed := by
  cases h with
  | enter => exact hp.enter _
  | miss => exact hp.evict _
  | evict => exact hp.evict _
  | served => exact hp.claim _ _
  | chosen => exact hp.claim _ _
  | blocked => exact hp.claim _ _
  | dial => exact hp
  | hang => exact hp
  | settle => exact hp.settle _ _
  | close => exact hp

theorem dialedBy (h : Turn me k ticket n p stage p' stage' n' deeds)
    (hp : ∀ slot, stage.dialing? = some slot → p.DialedBy slot ticket) {slot : Nat}
    (hslot : stage'.dialing? = some slot) : p'.DialedBy slot ticket := by
  cases h with
  | chosen _ hverdict =>
    cases hslot
    exact Pool.dialedBy_of_verdict hverdict
  | dial =>
    cases hslot
    exact hp _ rfl
  | hang =>
    cases hslot
    exact hp _ rfl
  | _ => cases hslot

theorem dialedBy_of_ne (h : Turn me k ticket n p stage p' stage' n' deeds)
    (hp : ∀ slot, stage.dialing? = some slot → p.DialedBy slot ticket) {slot : Nat} {other : Ticket}
    (hne : other ≠ ticket) (hslot : p.DialedBy slot other) : p'.DialedBy slot other := by
  cases h with
  | enter => exact hslot.enter _
  | miss => exact hslot
  | evict => exact hslot
  | served => exact hslot.claim _ _
  | chosen => exact hslot.claim _ _
  | blocked => exact hslot.claim _ _
  | dial => exact hslot
  | hang => exact hslot
  | settle => exact hslot.settle (hp _ rfl) hne _
  | close => exact hslot

theorem did (h : Turn me k ticket n p stage p' stage' n' deeds) {dials : List Dial} (hdid : stage.Did me dials) :
    stage'.Did me (Deed.dialsOf k deeds ++ dials) := by
  cases h with
  | enter hd =>
    cases hdid
    rw [hd.dialsOf_eq_nil]
    exact .entered
  | miss hd =>
    cases hdid
    rw [hd.dialsOf_eq_nil]
    exact .closed
  | evict hd =>
    cases hdid
    rw [hd.dialsOf_eq_nil]
    exact .closing
  | served hd =>
    cases hdid
    rw [hd.dialsOf_eq_nil]
    exact .served
  | chosen hd =>
    cases hdid
    rw [hd.dialsOf_eq_nil]
    exact .chosen
  | blocked =>
    cases hdid
    exact .entered
  | dial =>
    cases hdid
    rw [Deed.dialsOf_singleton, if_pos rfl]
    exact .dialed
  | hang =>
    cases hdid
    rw [Deed.dialsOf_singleton, if_pos rfl]
    exact .hung
  | settle hd =>
    cases hdid
    rw [hd.dialsOf_eq_nil]
    exact .settled
  | close =>
    cases hdid
    rw [Deed.dialsOf_singleton, if_pos rfl]
    exact .closed

theorem dialed_le (h : Turn me k ticket n p stage p' stage' n' deeds) : n ≤ n' := by
  cases h with
  | dial => exact Nat.le_succ n
  | hang => exact Nat.le_succ n
  | _ => exact Nat.le_refl n

end Turn

/-! ## What every step preserves -/

namespace Calls

/-- What holds of the calls of a pool at any time. -/
structure Sound (me : Profile) (c : Calls) : Prop where
  placed : c.pool.Placed
  tickets : ∀ (k : Nat) a, c.callers[k]? = some a → a.ticket.number < c.tickets
  apart : ∀ (j k : Nat) a b, c.callers[j]? = some a → c.callers[k]? = some b → a.ticket = b.ticket → j = k
  dialing : ∀ (k : Nat) a slot, c.callers[k]? = some a → a.stage.dialing? = some slot → c.pool.DialedBy slot a.ticket
  did : ∀ (k : Nat) a, c.callers[k]? = some a → a.stage.Did me (Deed.dialsOf k c.deeds)
  tasks : ∀ d ∈ c.deeds, d.task < c.callers.length
  numbers : ∀ k channel, Deed.Gave c.deeds k channel → channel.number < c.dialed
  own : ∀ j k a b, Deed.Gave c.deeds j a → Deed.Gave c.deeds k b → a.number = b.number → j = k

variable {me : Profile} {c : Calls}

theorem Sound.first (me : Profile) {p : Pool} (hp : p.Placed) (tickets dialed : Nat) :
    Sound me { pool := p, tickets, dialed } where
  placed := hp
  tickets k a h := by simp at h
  apart j k a b h := by simp at h
  dialing k a slot h := by simp at h
  did k a h := by simp at h
  tasks d h := by simp at h
  numbers k channel h := by
    obtain ⟨x, hx, -⟩ := h
    cases hx
  own j k a b h := by
    obtain ⟨x, hx, -⟩ := h
    cases hx

theorem Sound.start (hc : c.Sound me) (call : PoolCall) :
    Sound me { c with callers := c.callers ++ [⟨⟨c.tickets⟩, .first call⟩], tickets := c.tickets + 1 } where
  placed := hc.placed
  tickets k a ha := by
    rcases getElem?_concat_cases ha with ha | ⟨-, rfl⟩
    · exact Nat.lt_succ_of_lt (hc.tickets k a ha)
    · exact Nat.lt_succ_self _
  apart j k a b ha hb hab := by
    rcases getElem?_concat_cases ha with ha | ⟨hj, rfl⟩
    · rcases getElem?_concat_cases hb with hb | ⟨-, rfl⟩
      · exact hc.apart j k a b ha hb hab
      · have hlt := hc.tickets j a ha
        rw [hab] at hlt
        exact absurd hlt (Nat.lt_irrefl _)
    · rcases getElem?_concat_cases hb with hb | ⟨hk, -⟩
      · have hlt := hc.tickets k b hb
        rw [← hab] at hlt
        exact absurd hlt (Nat.lt_irrefl _)
      · exact hj.trans hk.symm
  dialing k a slot ha hslot := by
    rcases getElem?_concat_cases ha with ha | ⟨-, rfl⟩
    · exact hc.dialing k a slot ha hslot
    · cases hslot
  did k a ha := by
    rcases getElem?_concat_cases ha with ha | ⟨rfl, rfl⟩
    · exact hc.did k a ha
    · rw [Deed.dialsOf_of_ne fun d hd => Nat.ne_of_lt (hc.tasks d hd)]
      exact .first
  tasks d hd := by
    have := hc.tasks d hd
    rw [List.length_append]
    omega
  numbers := hc.numbers
  own := hc.own

theorem Sound.turn (hc : c.Sound me) {k n : Nat} {a : Caller} {p : Pool} {stage : Stage} {deeds : List Deed}
    (ha : c.callers[k]? = some a) (h : Turn me k a.ticket c.dialed c.pool a.stage p stage n deeds) :
    Sound me
      { c with pool := p, callers := c.callers.set k ⟨a.ticket, stage⟩, dialed := n, deeds := deeds ++ c.deeds } where
  placed := h.placed hc.placed
  tickets j b hb := by
    rcases getElem?_set_cases ha hb with ⟨-, rfl⟩ | ⟨-, hb⟩
    · exact hc.tickets k a ha
    · exact hc.tickets j b hb
  apart i j b b' hb hb' hbb := by
    rcases getElem?_set_cases ha hb with ⟨rfl, rfl⟩ | ⟨-, hi⟩
    · rcases getElem?_set_cases ha hb' with ⟨rfl, -⟩ | ⟨-, hj⟩
      · rfl
      · exact hc.apart i j a b' ha hj hbb
    · rcases getElem?_set_cases ha hb' with ⟨rfl, rfl⟩ | ⟨-, hj⟩
      · exact hc.apart i j b a hi ha hbb
      · exact hc.apart i j b b' hi hj hbb
  dialing j b slot hb hslot := by
    have hown : ∀ slot, a.stage.dialing? = some slot → c.pool.DialedBy slot a.ticket :=
      fun slot => hc.dialing k a slot ha
    rcases getElem?_set_cases ha hb with ⟨-, rfl⟩ | ⟨hj, hb⟩
    · exact h.dialedBy hown hslot
    · apply h.dialedBy_of_ne hown _ (hc.dialing j b slot hb hslot)
      exact fun hticket => hj (hc.apart j k b a hb ha hticket).symm
  did j b hb := by
    rcases getElem?_set_cases ha hb with ⟨rfl, rfl⟩ | ⟨hj, hb⟩
    · rw [Deed.dialsOf_append]
      exact h.did (hc.did j a ha)
    · have hother : ∀ d ∈ deeds, d.task ≠ j := by
        intro d hd
        rw [h.task_eq d hd]
        exact hj
      rw [Deed.dialsOf_append, Deed.dialsOf_of_ne hother, List.nil_append]
      exact hc.did j b hb
  tasks d hd := by
    rw [List.length_set]
    rcases List.mem_append.1 hd with hd | hd
    · rw [h.task_eq d hd]
      exact (List.getElem?_eq_some_iff.1 ha).1
    · exact hc.tasks d hd
  numbers j channel hgave := by
    rcases Deed.gave_append.1 hgave with hgave | hgave
    · obtain ⟨-, hnumber, rfl⟩ := h.gave hgave
      exact hnumber ▸ Nat.lt_succ_self _
    · exact Nat.lt_of_lt_of_le (hc.numbers j channel hgave) h.dialed_le
  own i j b b' hb hb' hbb := by
    rcases Deed.gave_append.1 hb with hb | hb
    · obtain ⟨hi, hnumber, -⟩ := h.gave hb
      rcases Deed.gave_append.1 hb' with hb' | hb'
      · obtain ⟨hj, -⟩ := h.gave hb'
        exact hi.trans hj.symm
      · have := hc.numbers j b' hb'
        omega
    · rcases Deed.gave_append.1 hb' with hb' | hb'
      · obtain ⟨-, hnumber, -⟩ := h.gave hb'
        have := hc.numbers i b hb
        omega
      · exact hc.own i j b b' hb hb' hbb

/-- Whoever has dialed is dialing, or is done with what came of it. -/
theorem Sound.exists_caller (hc : c.Sound me) {e : Deed} (he : e ∈ c.deeds) {x : Dial} (hx : e.dial? = some x) :
    ∃ a, c.callers[e.task]? = some a ∧ ((∃ slot, a.stage.dialing? = some slot ∧ ∀ peer, a.stage ≠ .chosen peer slot) ∨
      ∃ (peer : Peer) (result : _), a.stage = .ended (.client (me.clientOf peer.target result)) ∧
        x = ⟨peer.target, some result⟩) := by
  have htask := hc.tasks e he
  have ha := List.getElem?_eq_getElem htask
  have hmem : x ∈ Deed.dialsOf e.task c.deeds := Deed.mem_dialsOf.2 ⟨e, he, rfl, hx⟩
  have hdid := hc.did e.task _ ha
  refine ⟨_, ha, ?_⟩
  generalize Deed.dialsOf e.task c.deeds = dials at hmem hdid
  generalize c.callers[e.task].stage = stage at hdid ⊢
  cases hdid with
  | @dialed peer slot => exact Or.inl ⟨slot, rfl, nofun⟩
  | @hung peer slot => exact Or.inl ⟨slot, rfl, nofun⟩
  | @settled peer result => exact Or.inr ⟨peer, result, rfl, List.mem_singleton.1 hmem⟩
  | _ => cases hmem

theorem Sound.step {c' : Calls} {may : PoolCall → Prop} (hc : c.Sound me) (h : c.Step me may c') : c'.Sound me := by
  cases h with
  | start _ => exact hc.start _
  | turn ha hturn => exact hc.turn ha hturn
  | wait => exact hc

end Calls

end PeerMesh
