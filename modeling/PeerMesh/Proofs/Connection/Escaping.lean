import PeerMesh.Proofs.Connection.Dials
import PeerMesh.World.Scripted

/-!
# Channels that escape a pool

Any number of calls obtain and disconnect the client of one id at the same time. A channel escapes if it is live and
nothing in the pool leads to it any more.

* `Ledger` : the channel in the table, those about to be closed, and those that are live;
* `Ledger.Change` : all that one effect of a call can do to it;
* `Ledger.Fair`, `Ledger.Held`, `Ledger.Stray` : what is always so, what is so when nothing has escaped, and a channel
  that has;
* `Calls.Tracked` : the calls of a pool do to their ledger what `Ledger.Change` says;
* `Crowd.tight_iff_catches` : nothing escapes exactly if every channel is in the table when it comes up, and no other is
  about to be closed then.
-/

namespace PeerMesh

/-! ## Ledgers -/

/-- Where the channels of one id are. -/
structure Ledger where
  /-- The channel in the table. -/
  kept : Option Channel
  /-- The channel that each call has taken out of the table and is about to close. -/
  closing : Nat → Option Channel
  /-- Dialed with success, and not closed. -/
  live : Channel → Prop

namespace Ledger

/-- All that one effect of a call can do to a ledger. -/
inductive Change (l l' : Ledger) : Prop where
  | quiet (hkept : l'.kept = l.kept) (hclosing : ∀ j, l'.closing j = l.closing j) (hlive : ∀ x, l'.live x ↔ l.live x)
  /-- A call takes the channel out of the table. -/
  | evict {k : Nat} {channel : Channel} (hk : l.closing k = none) (h : l.kept = some channel) (hkept : l'.kept = none)
      (hclosing : ∀ j, l'.closing j = if j = k then some channel else l.closing j) (hlive : ∀ x, l'.live x ↔ l.live x)
  /-- A dial ends with a channel, for a slot that is in the table or no longer is. -/
  | come {channel : Channel} (hnew : ¬l.live channel)
      (hkept : l'.kept = l.kept ∨ l.kept = none ∧ l'.kept = some channel) (hclosing : ∀ j, l'.closing j = l.closing j)
      (hlive : ∀ x, l'.live x ↔ l.live x ∨ x = channel)
  | close {k : Nat} {channel : Channel} (h : l.closing k = some channel) (hkept : l'.kept = l.kept)
      (hclosing : ∀ j, l'.closing j = if j = k then none else l.closing j)
      (hlive : ∀ x, l'.live x ↔ l.live x ∧ x ≠ channel)

/-- What is always so: the channel in the table and those about to be closed are live, and no two are the same. -/
structure Fair (l : Ledger) : Prop where
  kept : ∀ channel, l.kept = some channel → l.live channel
  closing : ∀ k channel, l.closing k = some channel → l.live channel
  once : ∀ j k channel, l.closing j = some channel → l.closing k = some channel → j = k
  apart : ∀ k channel, l.closing k = some channel → l.kept ≠ some channel

/-- One channel is live at most, and it is in the table or about to be closed. -/
structure Held (l : Ledger) : Prop where
  one : ∀ a b, l.live a → l.live b → a = b
  somewhere : ∀ a, l.live a → l.kept = some a ∨ ∃ k, l.closing k = some a

/-- A live channel to which nothing leads. -/
structure Stray (l : Ledger) (channel : Channel) : Prop where
  live : l.live channel
  kept : l.kept ≠ some channel
  closing : ∀ k, l.closing k ≠ some channel

/-- A channel that comes up between two ledgers is in the table, and no other is about to be closed. -/
def Catches (l l' : Ledger) : Prop :=
  ∀ channel, ¬l.live channel → l'.live channel → l'.kept = some channel ∧ ∀ k, l'.closing k = none

variable {l l' : Ledger}

theorem Fair.change (hl : l.Fair) (h : l.Change l') : l'.Fair := by
  cases h with
  | quiet hkept hclosing hlive =>
    refine ⟨fun a ha => ?_, fun k a ha => ?_, fun j k a hj hk => ?_, fun k a ha => ?_⟩
    · rw [hkept] at ha
      exact (hlive a).2 (hl.kept a ha)
    · rw [hclosing] at ha
      exact (hlive a).2 (hl.closing k a ha)
    · rw [hclosing] at hj hk
      exact hl.once j k a hj hk
    · rw [hclosing] at ha
      rw [hkept]
      exact hl.apart k a ha
  | @evict k channel hnone h hkept hclosing hlive =>
    have hother : ∀ j a, l'.closing j = some a → j = k ∧ a = channel ∨ j ≠ k ∧ l.closing j = some a := by
      intro j a ha
      rw [hclosing] at ha
      split at ha
      · rename_i hj
        exact Or.inl ⟨hj, (Option.some.inj ha).symm⟩
      · rename_i hj
        exact Or.inr ⟨hj, ha⟩
    refine ⟨fun a ha => ?_, fun j a ha => ?_, fun i j a hi hj => ?_, fun j a ha => ?_⟩
    · rw [hkept] at ha
      cases ha
    · rw [hlive]
      rcases hother j a ha with ⟨-, rfl⟩ | ⟨-, ha⟩
      · exact hl.kept a h
      · exact hl.closing j a ha
    · rcases hother i a hi with ⟨rfl, rfl⟩ | ⟨-, hi⟩
      · rcases hother j a hj with ⟨rfl, -⟩ | ⟨-, hj⟩
        · rfl
        · exact absurd h (hl.apart j a hj)
      · rcases hother j a hj with ⟨rfl, rfl⟩ | ⟨-, hj⟩
        · exact absurd h (hl.apart i a hi)
        · exact hl.once i j a hi hj
    · rw [hkept]
      nofun
  | @come channel hnew hkept hclosing hlive =>
    refine ⟨fun a ha => ?_, fun k a ha => ?_, fun j k a hj hk => ?_, fun k a ha => ?_⟩
    · rw [hlive]
      rcases hkept with hkept | ⟨-, hkept⟩
      · rw [hkept] at ha
        exact Or.inl (hl.kept a ha)
      · rw [hkept] at ha
        exact Or.inr (Option.some.inj ha).symm
    · rw [hclosing] at ha
      exact (hlive a).2 (Or.inl (hl.closing k a ha))
    · rw [hclosing] at hj hk
      exact hl.once j k a hj hk
    · rw [hclosing] at ha
      rcases hkept with hkept | ⟨-, hkept⟩
      · rw [hkept]
        exact hl.apart k a ha
      · rw [hkept]
        rintro ⟨⟩
        exact hnew (hl.closing k channel ha)
  | @close k channel h hkept hclosing hlive =>
    have hother : ∀ j a, l'.closing j = some a → j ≠ k ∧ l.closing j = some a := by
      intro j a ha
      rw [hclosing] at ha
      split at ha
      · cases ha
      · rename_i hj
        exact ⟨hj, ha⟩
    refine ⟨fun a ha => ?_, fun j a ha => ?_, fun i j a hi hj => ?_, fun j a ha => ?_⟩
    · rw [hkept] at ha
      refine (hlive a).2 ⟨hl.kept a ha, ?_⟩
      rintro rfl
      exact hl.apart k a h ha
    · obtain ⟨hj, ha⟩ := hother j a ha
      refine (hlive a).2 ⟨hl.closing j a ha, ?_⟩
      rintro rfl
      exact hj (hl.once j k a ha h)
    · exact hl.once i j a (hother i a hi).2 (hother j a hj).2
    · rw [hkept]
      exact hl.apart j a (hother j a ha).2

/-- If each channel is caught as it comes up, nothing escapes. -/
theorem Held.change (hl : l.Held) (h : l.Change l') (hcatches : l.Catches l') : l'.Held := by
  cases h with
  | quiet hkept hclosing hlive =>
    refine ⟨fun a b ha hb => hl.one a b ((hlive a).1 ha) ((hlive b).1 hb), fun a ha => ?_⟩
    rw [hkept]
    simp only [hclosing]
    exact hl.somewhere a ((hlive a).1 ha)
  | @evict k channel hnone h hkept hclosing hlive =>
    refine ⟨fun a b ha hb => hl.one a b ((hlive a).1 ha) ((hlive b).1 hb), fun a ha => Or.inr ?_⟩
    rcases hl.somewhere a ((hlive a).1 ha) with ha | ⟨j, ha⟩
    · rw [h] at ha
      exact ⟨k, by rw [hclosing, if_pos rfl, ha]⟩
    · have hj : j ≠ k := by
        rintro rfl
        rw [hnone] at ha
        cases ha
      exact ⟨j, by rw [hclosing, if_neg hj, ha]⟩
  | @come channel hnew hkept hclosing hlive =>
    obtain ⟨hcaught, hnone⟩ := hcatches channel hnew ((hlive channel).2 (Or.inr rfl))
    have hold : ∀ a, l'.live a → a = channel := by
      intro a ha
      rcases (hlive a).1 ha with ha | rfl
      · rcases hl.somewhere a ha with ha' | ⟨k, ha'⟩
        · rcases hkept with hkept | ⟨hempty, -⟩
          · rw [hkept, ha'] at hcaught
            exact Option.some.inj hcaught
          · rw [hempty] at ha'
            cases ha'
        · rw [← hclosing, hnone] at ha'
          cases ha'
      · rfl
    refine ⟨fun a b ha hb => (hold a ha).trans (hold b hb).symm, fun a ha => Or.inl ?_⟩
    rw [hold a ha]
    exact hcaught
  | @close k channel h hkept hclosing hlive =>
    refine ⟨fun a b ha hb => hl.one a b ((hlive a).1 ha).1 ((hlive b).1 hb).1, fun a ha => ?_⟩
    obtain ⟨ha, hne⟩ := (hlive a).1 ha
    rcases hl.somewhere a ha with ha | ⟨j, ha⟩
    · exact Or.inl (hkept.trans ha)
    · refine Or.inr ⟨j, ?_⟩
      have hj : j ≠ k := by
        rintro rfl
        rw [h] at ha
        exact hne (Option.some.inj ha).symm
      rw [hclosing, if_neg hj, ha]

/-- A channel that has escaped is never found again. -/
theorem Stray.change {channel : Channel} (hl : l.Stray channel) (h : l.Change l') : l'.Stray channel := by
  cases h with
  | quiet hkept hclosing hlive =>
    refine ⟨(hlive channel).2 hl.live, ?_, fun k => ?_⟩
    · rw [hkept]
      exact hl.kept
    · rw [hclosing]
      exact hl.closing k
  | @evict k other hnone h hkept hclosing hlive =>
    refine ⟨(hlive channel).2 hl.live, ?_, fun j => ?_⟩
    · rw [hkept]
      nofun
    · rw [hclosing]
      split
      · rw [← h]
        exact hl.kept
      · exact hl.closing j
  | @come other hnew hkept hclosing hlive =>
    refine ⟨(hlive channel).2 (Or.inl hl.live), ?_, fun k => ?_⟩
    · rcases hkept with hkept | ⟨-, hkept⟩
      · rw [hkept]
        exact hl.kept
      · rw [hkept]
        rintro ⟨⟩
        exact hnew hl.live
    · rw [hclosing]
      exact hl.closing k
  | @close k other h hkept hclosing hlive =>
    refine ⟨(hlive channel).2 ⟨hl.live, ?_⟩, ?_, fun j => ?_⟩
    · rintro rfl
      exact hl.closing k h
    · rw [hkept]
      exact hl.kept
    · rw [hclosing]
      split
      · nofun
      · exact hl.closing j

/-- A channel that is not caught is astray, or else two are live. -/
theorem Fair.catches (hl : l.Fair) (h : l.Change l') (hone : ∀ a b, l'.live a → l'.live b → a = b)
    (hstray : ∀ channel, ¬l'.Stray channel) : l.Catches l' := by
  intro channel hdead hlive
  have hsame : ∀ k, l'.closing k = l.closing k := by
    cases h with
    | quiet _ _ hlive' => exact absurd ((hlive' channel).1 hlive) hdead
    | evict _ _ _ _ hlive' => exact absurd ((hlive' channel).1 hlive) hdead
    | come _ _ hclosing _ => exact hclosing
    | close _ _ _ hlive' => exact absurd ((hlive' channel).1 hlive).1 hdead
  have hfree : ∀ k, l'.closing k ≠ some channel := by
    intro k hk
    rw [hsame] at hk
    exact hdead (hl.closing k channel hk)
  refine ⟨?_, fun k => ?_⟩
  · by_cases hkept : l'.kept = some channel
    · exact hkept
    · exact absurd ⟨hlive, hkept, hfree⟩ (hstray channel)
  · cases hk : l'.closing k with
    | none => rfl
    | some other =>
      have hother := (hl.change h).closing k other hk
      rw [hone other channel hother hlive] at hk
      exact absurd hk (hfree k)

end Ledger

/-! ## The ledger of a pool and its calls -/

namespace Deed

/-- The channels that a dial gave to a task that has gone on since, the last first. -/
def openings : List Deed → List Channel
  | [] => []
  | d :: deeds => (dialsOf d.task deeds).filterMap Dial.channel? ++ openings deeds

def Opened (channel : Channel) (deeds : List Deed) : Prop := channel ∈ openings deeds

def Closed (channel : Channel) (deeds : List Deed) : Prop := channel ∈ deeds.filterMap close?

theorem opened_cons {channel : Channel} {d : Deed} {deeds : List Deed} :
    Opened channel (d :: deeds) ↔ Opened channel deeds ∨ Gave deeds d.task channel := by
  have hgave : channel ∈ (dialsOf d.task deeds).filterMap Dial.channel? ↔ Gave deeds d.task channel := by
    simp only [List.mem_filterMap, Dial.channel?_eq_some]
    exact Iff.rfl
  unfold Opened
  rw [openings, List.mem_append, hgave]
  exact Or.comm

end Deed

def Calls.ledger (c : Calls) (id : NodeId) : Ledger where
  kept := (c.pool.client? id).map Client.channel
  closing k := c.callers[k]?.bind fun a => a.stage.closing?
  live channel := Deed.Opened channel c.deeds ∧ ¬Deed.Closed channel c.deeds

namespace Turn

variable {me : Profile} {k n n' : Nat} {ticket : Ticket} {p p' : Pool} {stage stage' : Stage} {deeds earlier : List Deed}
  {id : NodeId}

theorem opened_append (h : Turn me k ticket n p stage p' stage' n' deeds)
    (hdid : stage.Did me (Deed.dialsOf k earlier)) (channel : Channel) :
    Deed.Opened channel (deeds ++ earlier) ↔
      Deed.Opened channel earlier ∨ ∃ peer slot, stage = .dialed peer slot (.ok channel) := by
  have hone : ∀ d : Deed, d.task = k →
      (Deed.Opened channel ([d] ++ earlier) ↔
        Deed.Opened channel earlier ∨ ∃ peer slot, stage = .dialed peer slot (.ok channel)) := by
    rintro d rfl
    rw [← hdid.gave_iff h.ne_ended]
    exact Deed.opened_cons
  rcases h.deeds_cases with ⟨rfl, -, peer, slot, rfl⟩ | ⟨d, rfl, htask, -⟩ | ⟨peer, slot, result, rfl, -⟩
  · simp
  · exact hone d htask
  · exact hone _ rfl

theorem ended_of_dialed (h : Turn me k ticket n p stage p' stage' n' deeds) {peer : Peer} {slot : Nat}
    {result : Except DialError Channel} (hstage : stage = .dialed peer slot result) :
    ∃ answer, stage' = .ended answer := by
  cases h with
  | settle => exact ⟨_, rfl⟩
  | _ => cases hstage

theorem closed_append (h : Turn me k ticket n p stage p' stage' n' deeds) (channel : Channel) :
    Deed.Closed channel (deeds ++ earlier) ↔ Deed.Closed channel earlier ∨ stage.closing? = some channel := by
  have hdeeds : Deed.Closed channel deeds ↔ stage.closing? = some channel := by
    unfold Deed.Closed
    cases h with
    | enter hd => simp [hd.close?, Stage.closing?]
    | miss hd => simp [hd.close?, Stage.closing?]
    | evict hd => simp [hd.close?, Stage.closing?]
    | served hd => simp [hd.close?, Stage.closing?]
    | chosen hd => simp [hd.close?, Stage.closing?]
    | blocked => simp [Stage.closing?]
    | dial => simp [Deed.close?, Stage.closing?]
    | hang => simp [Deed.close?, Stage.closing?]
    | settle hd => simp [hd.close?, Stage.closing?]
    | close => simp [Deed.close?, Stage.closing?, eq_comm]
  rw [← hdeeds]
  unfold Deed.Closed
  rw [List.filterMap_append, List.mem_append]
  exact Or.comm

end Turn

namespace Calls

/-- What holds of the calls of one id at any time. -/
structure Tracked (me : Profile) (id : NodeId) (c : Calls) : Prop extends c.Sound me where
  meant : ∀ (k : Nat) a, c.callers[k]? = some a → a.stage.Meant id
  opened : ∀ channel, Deed.Opened channel c.deeds →
    ∃ (k : Nat) (a : Caller) (answer : PoolAnswer), c.callers[k]? = some a ∧ a.stage = .ended answer ∧
      Deed.Gave c.deeds k channel
  closed : ∀ channel, Deed.Closed channel c.deeds → Deed.Opened channel c.deeds
  fair : (c.ledger id).Fair

variable {me : Profile} {id : NodeId} {c : Calls}

theorem Tracked.not_opened (hc : c.Tracked me id) {k slot : Nat} {a : Caller} {peer : Peer} {channel : Channel}
    (ha : c.callers[k]? = some a) (hstage : a.stage = .dialed peer slot (.ok channel)) :
    ¬Deed.Opened channel c.deeds := by
  intro hopened
  obtain ⟨j, b, answer, hb, hended, hgave⟩ := hc.opened channel hopened
  have hown : Deed.Gave c.deeds k channel := by
    refine ((hc.did k a ha).gave_iff ?_ channel).2 ⟨peer, slot, hstage⟩
    rw [hstage]
    nofun
  have hj := hc.own j k channel channel hgave hown rfl
  rw [hj, ha] at hb
  cases hb
  rw [hstage] at hended
  cases hended

theorem Tracked.change (hc : c.Tracked me id) {k n : Nat} {a : Caller} {p : Pool} {stage : Stage} {deeds : List Deed}
    (ha : c.callers[k]? = some a) (h : Turn me k a.ticket c.dialed c.pool a.stage p stage n deeds) :
    (c.ledger id).Change (ledger
      { c with pool := p, callers := c.callers.set k ⟨a.ticket, stage⟩, dialed := n, deeds := deeds ++ c.deeds } id) := by
  have hopened := h.opened_append (hc.did k a ha)
  have hclosed : ∀ x, Deed.Closed x (deeds ++ c.deeds) ↔ Deed.Closed x c.deeds ∨ a.stage.closing? = some x :=
    h.closed_append
  have hlive := fun x => and_congr (hopened x) (not_congr (hclosed x))
  have hk : (c.ledger id).closing k = a.stage.closing? := by simp [ledger, ha]
  have hclosing : ∀ j, ((c.callers.set k ⟨a.ticket, stage⟩)[j]?.bind fun a => a.stage.closing?) =
      if j = k then stage.closing? else (c.ledger id).closing j := by
    intro j
    by_cases hj : j = k
    · rw [if_pos hj, hj, List.getElem?_set_self (List.getElem?_eq_some_iff.1 ha).1, Option.bind_some]
    · rw [if_neg hj, List.getElem?_set_ne (Ne.symm hj)]
      rfl
  obtain ⟨ticket, old⟩ := a
  have hquiet : p.client? id = c.pool.client? id → stage.closing? = none → old.closing? = none →
      (∀ peer slot x, old ≠ .dialed peer slot (.ok x)) → (c.ledger id).Change (ledger
        { c with pool := p, callers := c.callers.set k ⟨ticket, stage⟩, dialed := n, deeds := deeds ++ c.deeds } id) := by
    intro hclient hnext hprev hdialed
    refine .quiet (congrArg (Option.map Client.channel) hclient) (fun j => (hclosing j).trans ?_) fun x => (hlive x).trans ?_
    · split
      · rename_i hj
        rw [hj, hk, hnext]
        exact hprev.symm
      · rfl
    · simp [ledger, hdialed, hprev]
  cases h with
  | enter => exact hquiet (hc.placed.client?_enter _ _) rfl rfl nofun
  | @miss peer _ _ hnone =>
    obtain rfl : peer.id = id := Option.some.inj (hc.meant k _ ha)
    refine hquiet ?_ rfl rfl nofun
    rw [Pool.client?_evict, if_pos rfl, hnone]
  | @evict peer _ client _ hsome =>
    obtain rfl : peer.id = id := Option.some.inj (hc.meant k _ ha)
    refine .evict hk (congrArg (Option.map Client.channel) hsome) ?_ hclosing fun x => (hlive x).trans ?_
    · simp [ledger, Pool.client?_evict]
    · simp [ledger, Stage.closing?]
  | served => exact hquiet (Pool.client?_claim _ _ _ _) rfl rfl nofun
  | chosen => exact hquiet (Pool.client?_claim _ _ _ _) rfl rfl nofun
  | blocked => exact hquiet (Pool.client?_claim _ _ _ _) rfl rfl nofun
  | dial => exact hquiet rfl rfl rfl nofun
  | hang => exact hquiet rfl rfl rfl nofun
  | @settle peer slot _ result =>
    have hsettle := (hc.dialing k _ slot ha rfl).client?_settle hc.placed
    cases result with
    | error e =>
      refine hquiet ?_ rfl rfl nofun
      rcases hsettle none id with hsame | ⟨hnone, hafter⟩
      · exact hsame
      · exact hafter.trans hnone.symm
    | ok channel =>
      have hfresh := hc.not_opened ha rfl
      refine .come (fun hold => hfresh hold.1) ?_ (fun j => (hclosing j).trans ?_) fun x => (hlive x).trans ?_
      · rcases hsettle (some ⟨channel, me.limit⟩) id with hsame | ⟨hnone, hafter⟩
        · exact Or.inl (congrArg (Option.map Client.channel) hsame)
        · exact Or.inr ⟨congrArg (Option.map Client.channel) hnone, congrArg (Option.map Client.channel) hafter⟩
      · split
        · rename_i hj
          rw [hj, hk]
          rfl
        · rfl
      · constructor
        · rintro ⟨hopened | ⟨_, _, hstage⟩, hnot⟩
          · exact Or.inl ⟨hopened, fun hclosed => hnot (Or.inl hclosed)⟩
          · cases hstage
            exact Or.inr rfl
        · rintro (⟨hopened, hnot⟩ | rfl)
          · exact ⟨Or.inl hopened, fun hclosed => hclosed.elim hnot nofun⟩
          · exact ⟨Or.inr ⟨peer, slot, rfl⟩, fun hclosed => hclosed.elim (fun h => hfresh (hc.closed _ h)) nofun⟩
  | @close peer client =>
    refine .close hk rfl hclosing fun x => (hlive x).trans ?_
    constructor
    · rintro ⟨hopened | ⟨_, _, hstage⟩, hnot⟩
      · exact ⟨⟨hopened, fun hclosed => hnot (Or.inl hclosed)⟩, fun hx => hnot (Or.inr (congrArg some hx.symm))⟩
      · cases hstage
    · rintro ⟨⟨hopened, hnot⟩, hx⟩
      exact ⟨Or.inl hopened, fun hclosed => hclosed.elim hnot fun h => hx (Option.some.inj h).symm⟩

theorem Tracked.turn (hc : c.Tracked me id) {k n : Nat} {a : Caller} {p : Pool} {stage : Stage} {deeds : List Deed}
    (ha : c.callers[k]? = some a) (h : Turn me k a.ticket c.dialed c.pool a.stage p stage n deeds) :
    Tracked me id
      { c with pool := p, callers := c.callers.set k ⟨a.ticket, stage⟩, dialed := n, deeds := deeds ++ c.deeds } := by
  have hdid := hc.did k a ha
  have hopen : ∀ channel, Deed.Opened channel c.deeds → Deed.Opened channel (deeds ++ c.deeds) :=
    fun channel hopened => (h.opened_append hdid channel).2 (Or.inl hopened)
  refine ⟨hc.toSound.turn ha h, fun j b hb => ?_, fun channel hopened => ?_, fun channel hclosed => ?_,
    hc.fair.change (hc.change ha h)⟩
  · rcases getElem?_set_cases ha hb with ⟨-, rfl⟩ | ⟨-, hb⟩
    · exact h.meant id
    · exact hc.meant j b hb
  · rcases (h.opened_append hdid channel).1 hopened with hopened | ⟨peer, slot, hstage⟩
    · obtain ⟨j, b, answer, hb, hended, hgave⟩ := hc.opened channel hopened
      have hj : k ≠ j := by
        rintro rfl
        rw [ha] at hb
        cases hb
        exact h.ne_ended answer hended
      refine ⟨j, b, answer, ?_, hended, Deed.gave_append.2 (Or.inr hgave)⟩
      rw [List.getElem?_set_ne hj]
      exact hb
    · obtain ⟨answer, hended⟩ := h.ended_of_dialed hstage
      refine ⟨k, ⟨a.ticket, stage⟩, answer, List.getElem?_set_self (List.getElem?_eq_some_iff.1 ha).1, hended, ?_⟩
      exact Deed.gave_append.2 (Or.inr ((hdid.gave_iff h.ne_ended channel).2 ⟨peer, slot, hstage⟩))
  · rcases (h.closed_append channel).1 hclosed with hclosed | hclosing
    · exact hopen channel (hc.closed channel hclosed)
    · exact hopen channel (hc.fair.closing k channel (by simpa [ledger, ha] using hclosing)).1

theorem Tracked.empty (me : Profile) {id : NodeId} {p : Pool} (hp : p.Placed) (hnone : p.client? id = none)
    (tickets dialed : Nat) : Tracked me id { pool := p, tickets, dialed } where
  toSound := .first me hp tickets dialed
  meant k a h := by simp at h
  opened channel h := by cases h
  closed channel h := by cases h
  fair := ⟨fun channel h => by simp [ledger, hnone] at h, fun k channel h => by simp [ledger] at h,
    fun j k channel h => by simp [ledger] at h, fun k channel h => by simp [ledger] at h⟩

theorem Tracked.step {c' : Calls} (hc : c.Tracked me id) (h : c.Step me (fun call => call.id? = some id) c') :
    (c.ledger id).Change (c'.ledger id) ∧ c'.Tracked me id := by
  cases h with
  | @start call hcall =>
    have hchange : (c.ledger id).Change (ledger
        { c with callers := c.callers ++ [⟨⟨c.tickets⟩, .first call⟩], tickets := c.tickets + 1 } id) := by
      refine .quiet rfl (fun j => ?_) fun x => Iff.rfl
      show ((c.callers ++ [⟨⟨c.tickets⟩, .first call⟩])[j]?.bind fun a => a.stage.closing?) = _
      by_cases hj : j < c.callers.length
      · rw [List.getElem?_append_left hj]
        rfl
      · rw [List.getElem?_append_right (Nat.le_of_not_lt hj)]
        have hnone : c.callers[j]? = none := List.getElem?_eq_none (Nat.le_of_not_lt hj)
        have hfirst : ∀ a ∈ [(⟨⟨c.tickets⟩, .first call⟩ : Caller)], a.stage.closing? = none := by simp [Stage.closing?]
        cases hget : [(⟨⟨c.tickets⟩, .first call⟩ : Caller)][j - c.callers.length]? with
        | none => simp [ledger, hnone]
        | some a => simp [ledger, hnone, hfirst a (List.mem_of_getElem? hget)]
    refine ⟨hchange, hc.toSound.start call, fun k a ha => ?_, fun channel hopened => ?_, hc.closed,
      hc.fair.change hchange⟩
    · rcases getElem?_concat_cases ha with ha | ⟨-, rfl⟩
      · exact hc.meant k a ha
      · exact hcall
    · obtain ⟨k, a, answer, ha, hended, hgave⟩ := hc.opened channel hopened
      refine ⟨k, a, answer, ?_, hended, hgave⟩
      rw [List.getElem?_append_left (List.getElem?_eq_some_iff.1 ha).1]
      exact ha
  | turn ha hturn => exact ⟨hc.change ha hturn, hc.turn ha hturn⟩
  | wait => exact ⟨.quiet rfl (fun _ => rfl) fun _ => Iff.rfl, hc⟩

end Calls

/-! ## Every run -/

def Activity.closing? {α : Type} : Activity α → Option Channel
  | .perform (.close channel) _ => some channel
  | _ => none

theorem Stage.closing?_rest (me : Profile) (stage : Stage) : (stage.rest me).closing? = stage.closing? := by
  cases stage with
  | first call => cases call <;> rfl
  | _ => rfl

namespace Crowd

variable {σ : Type}

/-- Where the channels of an id are, as the pool of a member and the tasks tell. -/
def ledger (s : Crowd σ PoolAnswer) (i : Nat) (id : NodeId) : Ledger where
  kept := (s.world.pool? i).bind fun p => (p.client? id).map Client.channel
  closing k := s.tasks[k]?.bind fun t => t.rest.closing?
  live channel := Deed.Opened channel s.deeds ∧ ¬Deed.Closed channel s.deeds

/-- One channel is live at most, and when no call is under way it is the one in the table. -/
structure Tight (s : Crowd σ PoolAnswer) (i : Nat) (id : NodeId) : Prop where
  one : ∀ a b, (s.ledger i id).live a → (s.ledger i id).live b → a = b
  kept : s.Rests → ∀ a, (s.ledger i id).live a → (s.ledger i id).kept = some a

variable {s s' : Crowd σ PoolAnswer} {me : Profile} {i : Nat} {id : NodeId} {c : Calls}

theorem Shows.ledger_eq (hs : s.Shows me i id c) : s.ledger i id = c.ledger id := by
  have hclosing : ∀ k : Nat, (s.tasks[k]?.bind fun t => t.rest.closing?) =
      c.callers[k]?.bind fun a => a.stage.closing? := by
    intro k
    by_cases hk : k < s.tasks.length
    · have ht := List.getElem?_eq_getElem hk
      have ha := List.getElem?_eq_getElem (hs.length ▸ hk)
      rw [ht, ha, Option.bind_some, Option.bind_some, (hs.calls k _ _ ht ha).rest, Stage.closing?_rest]
    · rw [List.getElem?_eq_none (Nat.le_of_not_lt hk), List.getElem?_eq_none (hs.length ▸ Nat.le_of_not_lt hk)]
      rfl
  unfold ledger Calls.ledger
  rw [hs.pool, hs.deeds, Option.bind_some, funext hclosing]

theorem closing_of_rests (h : s.Rests) (i : Nat) (id : NodeId) (k : Nat) : (s.ledger i id).closing k = none := by
  show (s.tasks[k]?.bind fun t => t.rest.closing?) = none
  cases ht : s.tasks[k]? with
  | none => rfl
  | some t =>
    obtain ⟨answer, hdone⟩ := h t (List.mem_of_getElem? ht)
    rw [Option.bind_some, hdone]
    rfl

theorem tight_of_held (h : (s.ledger i id).Held) : s.Tight i id := by
  refine ⟨h.one, fun hrests a ha => ?_⟩
  rcases h.somewhere a ha with hkept | ⟨k, hk⟩
  · exact hkept
  · rw [closing_of_rests hrests] at hk
    cases hk

/-- Calls of one id, and what always holds of them. -/
def Tracked (me : Profile) (i : Nat) (id : NodeId) (s : Crowd σ PoolAnswer) : Prop :=
  ∃ c, s.Shows me i id c ∧ c.Tracked me id

theorem Tracked.fair (hs : s.Tracked me i id) : (s.ledger i id).Fair := by
  obtain ⟨c, hs, hc⟩ := hs
  rw [hs.ledger_eq]
  exact hc.fair

theorem catches_of_openings (h : Deed.openings s'.deeds = []) :
    (s.ledger i id).Catches (s'.ledger i id) := by
  rintro channel - ⟨hopened, -⟩
  unfold Deed.Opened at hopened
  rw [h] at hopened
  cases hopened

theorem catches_of_live (h : ∀ channel, (s'.ledger i id).live channel → (s.ledger i id).live channel) :
    (s.ledger i id).Catches (s'.ledger i id) :=
  fun channel hnew hlive => absurd (h channel hlive) hnew

variable [Network σ] {moves : List (Move PoolAnswer)}

theorem Tracked.step (hs : s.Tracked me i id) {m : Move PoolAnswer}
    (hm : PoolMove me i (fun call => call.id? = some id) m) (h : s.step? m = some s') :
    (s.ledger i id).Change (s'.ledger i id) ∧ s'.Tracked me i id := by
  obtain ⟨c, hs, hc⟩ := hs
  obtain ⟨c', hstep, hs'⟩ := hs.step (fun _ hcall => hcall) hm h
  obtain ⟨hchange, hc'⟩ := hc.step hstep
  rw [hs.ledger_eq, hs'.ledger_eq]
  exact ⟨hchange, c', hs', hc'⟩

theorem Tracked.passes (hs : s.Tracked me i id)
    (hmoves : ∀ m ∈ moves, PoolMove me i (fun call => call.id? = some id) m) {r : Crowd σ PoolAnswer}
    (hr : s.Passes moves r) : r.Tracked me i id :=
  hr.induction hs fun m _ _ hgoes hr => (hr.step (hmoves m hgoes.mem) hgoes.step?).2

/-- A channel that has escaped at some time is out of reach at the end. -/
theorem Tracked.stray (hs : s.Tracked me i id)
    (hmoves : ∀ m ∈ moves, PoolMove me i (fun call => call.id? = some id) m) (hrun : s.run moves = some s')
    {channel : Channel} (hstray : (s.ledger i id).Stray channel) : (s'.ledger i id).Stray channel := by
  have hboth : s'.Tracked me i id ∧ (s'.ledger i id).Stray channel := by
    refine run_induction (P := fun r => r.Tracked me i id ∧ (r.ledger i id).Stray channel) ?_ hmoves ⟨hs, hstray⟩ hrun
    rintro r m r' ⟨hr, hstray⟩ hm hstep
    obtain ⟨hchange, hr'⟩ := hr.step hm hstep
    exact ⟨hr', hstray.change hchange⟩
  exact hboth.2

/-- Any number of calls obtain and disconnect the client of one id, in any order of their effects. If every channel is
caught as it comes up, no channel escapes; and if none has escaped when no call is under way any more, every one was
caught. -/
theorem tight_iff_catches {p : Pool} (hp : s.world.pool? i = some p) (hplaced : p.Placed) (hnone : p.client? id = none)
    (htasks : s.tasks = []) (hdeeds : s.deeds = [])
    (hmoves : ∀ m ∈ moves, PoolMove me i (fun call => call.id? = some id) m) (hrun : s.run moves = some s') :
    ((∀ m r r', s.Goes moves m r r' → (r.ledger i id).Catches (r'.ledger i id)) →
      ∀ r, s.Passes moves r → r.Tight i id) ∧
    (s'.Rests → (∀ r, s.Passes moves r → r.Tight i id) →
      ∀ m r r', s.Goes moves m r r' → (r.ledger i id).Catches (r'.ledger i id)) := by
  have hs : s.Tracked me i id :=
    ⟨_, .first hp htasks hdeeds me id, .empty me hplaced hnone s.world.tickets s.world.dialed⟩
  refine ⟨fun hcatches r hr => ?_, fun hrests htight m r r' hgoes => ?_⟩
  · have hempty : ∀ a, ¬(s.ledger i id).live a := by
      rintro a ⟨hopened, -⟩
      rw [hdeeds] at hopened
      cases hopened
    apply tight_of_held
    refine hr.induction (P := fun r => (r.ledger i id).Held) ⟨fun a _ ha => absurd ha (hempty a), fun a ha =>
      absurd ha (hempty a)⟩ fun m r r' hgoes hheld => ?_
    have hr := hs.passes hmoves hgoes.passes
    exact hheld.change (hr.step (hmoves m hgoes.mem) hgoes.step?).1 (hcatches m r r' hgoes)
  · have hr := hs.passes hmoves hgoes.passes
    obtain ⟨hchange, hr'⟩ := hr.step (hmoves m hgoes.mem) hgoes.step?
    refine hr.fair.catches hchange (htight r' hgoes.passes_next).one fun channel hstray => ?_
    obtain ⟨after, hafter, hrest⟩ := hgoes.passes_next.exists_run hrun
    have hend := hr'.stray (fun m hm => hmoves m (hafter m hm)) hrest hstray
    exact hend.kept ((htight s' (.mem hrun)).kept hrests channel hend.live)

end Crowd

/-- A node on a network with one target, which takes five milliseconds to accept a dial. -/
def sluggish : World ScriptedNetwork where
  members := [{ profile := { name := "a", target := "a:1" } }]
  network := ScriptedNetwork.setRoute {} "b:1" { dials := ⟨[⟨some (.ofMillis 5), .ok ()⟩]⟩ }

/-- A second caller comes while the first one dials. When both have the client, it is disconnected. -/
def shared : List (Crowd.Move PoolAnswer) :=
  [.start 0 ((PoolCall.obtain ⟨"b", "b:1"⟩).activity { name := "a", target := "a:1" }), .go 0, .go 0, .go 0,
    .start 0 ((PoolCall.obtain ⟨"b", "b:1"⟩).activity { name := "a", target := "a:1" }), .go 1, .wait 5000000 0, .go 0,
    .go 1, .start 0 ((PoolCall.disconnect ⟨"b", "b:1"⟩).activity { name := "a", target := "a:1" }), .go 2, .go 2]

/-- Both callers get the one channel, which is in the table while it is live, and is closed in the end. -/
theorem sluggish_shared :
    ∃ s', Crowd.run shared { world := sluggish } = some s' ∧ s'.Rests ∧
      s'.Answered 0 (.client (.ok ⟨⟨0, "b:1"⟩, .ofSeconds 5⟩)) ∧
      s'.Answered 1 (.client (.ok ⟨⟨0, "b:1"⟩, .ofSeconds 5⟩)) ∧ s'.Answered 2 (.closed (.ok ())) ∧
      (∃ r, Crowd.Passes { world := sluggish } shared r ∧ (r.ledger 0 (.ofTarget "b:1")).live ⟨0, "b:1"⟩) ∧
      (∀ channel, ¬(s'.ledger 0 (.ofTarget "b:1")).live channel) ∧
      ∀ r, Crowd.Passes { world := sluggish } shared r → r.Tight 0 (.ofTarget "b:1") := by
  have hcall : ∀ m ∈ shared, Crowd.PoolMove { name := "a", target := "a:1" } 0
      (fun call => call.id? = some (.ofTarget "b:1")) m := by
    have hobtain : Crowd.PoolMove { name := "a", target := "a:1" } 0 (fun call => call.id? = some (.ofTarget "b:1"))
        (.start 0 ((PoolCall.obtain ⟨"b", "b:1"⟩).activity { name := "a", target := "a:1" })) := .start rfl
    have hdisconnect : Crowd.PoolMove { name := "a", target := "a:1" } 0
        (fun call => call.id? = some (.ofTarget "b:1"))
        (.start 0 ((PoolCall.disconnect ⟨"b", "b:1"⟩).activity { name := "a", target := "a:1" })) := .start rfl
    simp only [shared, List.forall_mem_cons]
    simp [hobtain, hdisconnect, Crowd.PoolMove.go, Crowd.PoolMove.wait]
  have hcatches : ∀ m r r', Crowd.Goes { world := sluggish } shared m r r' →
      (r.ledger 0 (.ofTarget "b:1")).Catches (r'.ledger 0 (.ofTarget "b:1")) := by
    -- nothing comes up before the dial has ended, and nothing more after that
    iterate 7 refine Crowd.forall_goes_cons rfl (Crowd.catches_of_openings rfl) ?_
    refine Crowd.forall_goes_cons rfl ?_ ?_
    · rintro channel - ⟨hopened, -⟩
      cases List.mem_singleton.1 hopened
      refine ⟨rfl, fun k => ?_⟩
      match k with
      | 0 => rfl
      | 1 => rfl
      | k + 2 => rfl
    · iterate 4 refine Crowd.forall_goes_cons rfl (Crowd.catches_of_live fun channel h => ⟨h.1, List.not_mem_nil⟩) ?_
      exact fun n r r' h => absurd h Crowd.not_goes_nil
  obtain ⟨s', hrun, hrests, hfirst, hsecond, hclosed, hlive⟩ : ∃ s', Crowd.run shared { world := sluggish } = some s' ∧
      s'.Rests ∧ s'.Answered 0 (.client (.ok ⟨⟨0, "b:1"⟩, .ofSeconds 5⟩)) ∧
      s'.Answered 1 (.client (.ok ⟨⟨0, "b:1"⟩, .ofSeconds 5⟩)) ∧ s'.Answered 2 (.closed (.ok ())) ∧
      ∀ channel, ¬(s'.ledger 0 (.ofTarget "b:1")).live channel := by
    refine ⟨_, rfl, Crowd.rests_iff.2 rfl, ⟨_, rfl, rfl⟩, ⟨_, rfl, rfl⟩, ⟨_, rfl, rfl⟩, ?_⟩
    rintro channel ⟨hopened, hclosed⟩
    cases List.mem_singleton.1 hopened
    exact hclosed List.mem_cons_self
  refine ⟨s', hrun, hrests, hfirst, hsecond, hclosed, ?_, hlive, ?_⟩
  · exact ⟨_, ⟨shared.take 8, shared.drop 8, rfl, rfl⟩, List.mem_cons_self, List.not_mem_nil⟩
  · exact (Crowd.tight_iff_catches rfl Pool.Neat.empty.placed rfl rfl rfl hcall hrun).1 hcatches

/-- A client is disconnected while the dial for it is under way. -/
def interrupted : List (Crowd.Move PoolAnswer) :=
  [.start 0 ((PoolCall.obtain ⟨"b", "b:1"⟩).activity { name := "a", target := "a:1" }), .go 0, .go 0, .go 0,
    .start 0 ((PoolCall.disconnect ⟨"b", "b:1"⟩).activity { name := "a", target := "a:1" }), .go 1, .wait 5000000 0, .go 0]

/-- The dial ends well, in a slot that is no longer in the table: the channel is live, and the pool knows nothing of
it. -/
theorem sluggish_interrupted :
    ∃ s', Crowd.run interrupted { world := sluggish } = some s' ∧ s'.Rests ∧
      s'.Answered 0 (.client (.ok ⟨⟨0, "b:1"⟩, .ofSeconds 5⟩)) ∧
      (s'.ledger 0 (.ofTarget "b:1")).live ⟨0, "b:1"⟩ ∧ (s'.ledger 0 (.ofTarget "b:1")).kept = none := by
  exact ⟨_, rfl, Crowd.rests_iff.2 rfl, ⟨_, rfl, rfl⟩, ⟨List.mem_cons_self, List.not_mem_nil⟩, rfl⟩

end PeerMesh
