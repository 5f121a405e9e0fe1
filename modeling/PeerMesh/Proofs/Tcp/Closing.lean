import PeerMesh.Proofs.Tcp.Session
import PeerMesh.Proofs.Tcp.Waiting

/-!
# From the first dial to the last close

* `Closer.left`, `Session.Lowering` : how far a close is from its end, and what takes it nearer;
* `Session.Fair`, `Session.Sound.exists_returned`, `Session.Sound.exists_ok` : in a fair course every close returns, and
  one succeeds;
* `Session.Sound.exists_ending` : then every call ends as well;
* `Session.Lifecycle`, `channel_lifecycle` : one connection at a time, one close that succeeds, and nothing that outlives
  it.
-/

namespace PeerMesh.Tcp

/-! ## How far a close is from its end -/

inductive Closer.Turn (k : Nat) : SessionMove → Closer → Closer → Prop where
  | still {move : SessionMove} {closer : Closer} (hswap : move ≠ .swap k) (htakeDown : move ≠ .takeDown k)
      (hfinish : move ≠ .finish k) : Turn k move closer closer
  | refused {result : Except DialError Unit} : Turn k (.swap k) .begun (.returned result)
  | shut : Turn k (.swap k) .begun .shut
  | tornDown : Turn k (.takeDown k) .shut .down
  | finished : Turn k (.finish k) .down (.returned (.ok ()))

/-- How many moves a close is from its end, if the end of a dial counts as one. -/
def Closer.left (dialing : Option Nat) : Closer → Nat
  | .begun => 4
  | .shut => if dialing.isSome then 3 else 2
  | .down => 1
  | .returned _ => 0

theorem Closer.left_shut_le (dialing : Option Nat) : Closer.shut.left dialing ≤ 3 := by
  cases dialing with
  | none => exact Nat.le_succ 2
  | some t => exact Nat.le_refl 3

theorem Closer.left_shut_pos (dialing : Option Nat) : 0 < Closer.shut.left dialing := by
  cases dialing with
  | none => exact Nat.succ_pos 1
  | some t => exact Nat.succ_pos 2

namespace Session

/-- The moves after any of which a close is as many moves from its end. -/
def Lowering (k : Nat) : Nat → SessionMove → Prop
  | 0, move => move = .finish k
  | 1, move => move = .takeDown k
  | 2, move => ∃ t error, move = .pass (.dialed t error)
  | _, move => move = .swap k

variable {s s' : Session} {move : SessionMove} {target : String} {k : Nat} {closer : Closer}

theorem exists_turn_set {j : Nat} {d d' : Closer} (hj : s.closers[j]? = some d) (hown : Closer.Turn j move d d')
    (hother : ∀ k, j ≠ k → move ≠ .swap k ∧ move ≠ .takeDown k ∧ move ≠ .finish k)
    (hk : s.closers[k]? = some closer) :
    ∃ closer', (s.closers.set j d')[k]? = some closer' ∧ Closer.Turn k move closer closer' := by
  rw [getElem?_set_of_some hj]
  split
  · rename_i hjk
    subst hjk
    cases hj.symm.trans hk
    exact ⟨d', rfl, hown⟩
  · rename_i hjk
    obtain ⟨hswap, htakeDown, hfinish⟩ := hother k hjk
    exact ⟨closer, hk, .still hswap htakeDown hfinish⟩

theorem Step.exists_turn (h : s.Step move s') (hk : s.closers[k]? = some closer) :
    ∃ closer', s'.closers[k]? = some closer' ∧ Closer.Turn k move closer closer' := by
  cases h with
  | pass => exact ⟨closer, hk, .still (by simp) (by simp) (by simp)⟩
  | close => exact ⟨closer, getElem?_of_prefix (List.prefix_append _ _) hk, .still (by simp) (by simp) (by simp)⟩
  | refused hj => exact exists_turn_set hj .refused (fun k hjk => by simp [hjk]) hk
  | shut hj => exact exists_turn_set hj .shut (fun k hjk => by simp [hjk]) hk
  | tornDown hj => exact exists_turn_set hj .tornDown (fun k hjk => by simp [hjk]) hk
  | finished hj => exact exists_turn_set hj .finished (fun k hjk => by simp [hjk]) hk

theorem Step.dialing_eq_none (h : s.Step move s') (hclosed : s.traffic.line.closed = true)
    (hdialing : s.traffic.dialing = none) : s'.traffic.dialing = none := by
  rcases h.traffic with hsame | ⟨m, hm⟩
  · rwa [hsame]
  · exact (Traffic.step_of_step? hm).dialing_eq_none hclosed hdialing

theorem Stage.of_shut (h : s.Stage target) (hk : s.closers[k]? = some .shut) :
    s.traffic.line.closed = true ∧ s.traffic.closing = true := by
  cases h with
  | opened _ hbegun => cases hbegun _ (List.mem_of_getElem? hk)
  | shut hclosed hclosing => exact ⟨hclosed, hclosing⟩
  | down _ hj hcloser hothers =>
    cases hothers.eq hk (Or.inl rfl)
    cases hk.symm.trans hj
    rcases hcloser with hdown | hok
    · cases hdown
    · cases hok

theorem Sound.left_le (h : s.Sound target) (hstep : s.Step move s') (hk : s.closers[k]? = some closer)
    {closer' : Closer} (hk' : s'.closers[k]? = some closer') :
    closer'.left s'.traffic.dialing ≤ closer.left s.traffic.dialing := by
  obtain ⟨d, hd, hturn⟩ := hstep.exists_turn hk
  cases hk'.symm.trans hd
  cases hturn with
  | still =>
    cases closer with
    | shut =>
      cases hdialing : s.traffic.dialing with
      | none =>
        have hsame := hstep.dialing_eq_none (h.stage.of_shut hk).1 hdialing
        exact Nat.le_of_eq (congrArg Closer.shut.left hsame)
      | some t => exact Closer.left_shut_le s'.traffic.dialing
    | _ => exact Nat.le_refl _
  | refused => exact Nat.zero_le _
  | shut => exact Nat.le_succ_of_le (Closer.left_shut_le s'.traffic.dialing)
  | tornDown => exact Closer.left_shut_pos s.traffic.dialing
  | finished => exact Nat.zero_le _

theorem Step.dialing_of_dialed {t : Nat} {error : Option DialError} (h : s.Step (.pass (.dialed t error)) s') :
    s'.traffic.dialing = none := by
  cases h with
  | pass _ _ hmove =>
    cases Traffic.step_of_step? hmove with
    | undialed => rfl
    | dialed => rfl
    | otherEnd hforeign => cases hforeign

theorem Step.left_le (hstep : s.Step move s') (hk : s.closers[k]? = some closer) {closer' : Closer}
    (hk' : s'.closers[k]? = some closer') {r : Nat} (hleft : closer.left s.traffic.dialing = r + 1)
    (hmove : Lowering k r move) : closer'.left s'.traffic.dialing ≤ r := by
  obtain ⟨d, hd, hturn⟩ := hstep.exists_turn hk
  cases hk'.symm.trans hd
  cases closer with
  | begun =>
    cases hleft
    cases hturn with
    | still hswap => exact absurd hmove hswap
    | refused => exact Nat.zero_le _
    | shut => exact Closer.left_shut_le s'.traffic.dialing
  | shut =>
    cases hdialing : s.traffic.dialing with
    | none =>
      rw [hdialing] at hleft
      cases hleft
      cases hturn with
      | still _ htakeDown => exact absurd hmove htakeDown
      | tornDown => exact Nat.le_refl _
    | some t =>
      rw [hdialing] at hleft
      cases hleft
      obtain ⟨u, error, rfl⟩ := hmove
      cases hturn with
      | still => exact Nat.le_of_eq (congrArg Closer.shut.left hstep.dialing_of_dialed)
  | down =>
    cases hleft
    cases hturn with
    | still _ _ hfinish => exact absurd hmove hfinish
    | finished => exact Nat.zero_le _
  | returned result => cases hleft

theorem Sound.exists_lowering (h : s.Sound target) (hk : s.closers[k]? = some closer) {r : Nat}
    (hleft : closer.left s.traffic.dialing = r + 1) : ∃ move, Lowering k r move ∧ ∃ s', s.step? move = some s' := by
  cases closer with
  | begun =>
    cases hleft
    refine ⟨.swap k, rfl, ?_⟩
    cases hclosed : s.traffic.line.closed with
    | false => simp [step?, hk, Line.close_eq, hclosed, Traffic.shut]
    | true => simp [step?, hk, Line.close_eq, hclosed]
  | shut =>
    cases hdialing : s.traffic.dialing with
    | none =>
      rw [hdialing] at hleft
      cases hleft
      exact ⟨.takeDown k, rfl, by simp [step?, hk, Traffic.tearDown, (h.stage.of_shut hk).2, hdialing]⟩
    | some t =>
      rw [hdialing] at hleft
      cases hleft
      obtain ⟨call, ht, hopen, hconnection⟩ := h.tidy.dialer t hdialing
      refine ⟨.pass (.dialed t none), ⟨t, none, rfl⟩, ?_⟩
      have hopen? : s.traffic.open? t = some call := Traffic.Sound.open?_eq_some.2 ⟨ht, hopen⟩
      simp [step?, Traffic.step?, Traffic.dialed, hopen?, hconnection, hdialing]
  | down =>
    cases hleft
    exact ⟨.finish k, rfl, by simp [step?, hk]⟩
  | returned result => cases hleft

theorem Step.first (h : s.Step move s') (hk : s.closers[k]? = some closer) (hfirst : closer.First) :
    ∃ closer', s'.closers[k]? = some closer' ∧ closer'.First := by
  obtain ⟨closer', hk', hturn⟩ := h.exists_turn hk
  refine ⟨closer', hk', ?_⟩
  cases hturn with
  | still => exact hfirst
  | refused => simp [Closer.First] at hfirst
  | shut => exact Or.inl rfl
  | tornDown => exact Or.inr (Or.inl rfl)
  | finished => exact Or.inr (Or.inr rfl)

/-! ## Courses -/

/-- What a call or a close can do next is not put off for ever, and no dial lasts for ever. -/
structure Fair (c : Course step?) : Prop where
  calls : ∀ t r, c.Fair (· = .pass (Call.next t r))
  dials : c.Fair fun move => ∃ t error, move = .pass (.dialed t error)
  swaps : ∀ k, c.Fair (· = .swap k)
  takeDowns : ∀ k, c.Fair (· = .takeDown k)
  finishes : ∀ k, c.Fair (· = .finish k)

theorem Fair.lowering {c : Course step?} (h : Fair c) (k r : Nat) : c.Fair (Lowering k r) := by
  rcases r with _ | _ | _ | r
  · exact h.finishes k
  · exact h.takeDowns k
  · exact h.dials
  · exact h.swaps k

theorem eq_returned_of_left {dialing : Option Nat} (h : closer.left dialing = 0) :
    ∃ result, closer = .returned result := by
  cases closer with
  | returned result => exact ⟨result, rfl⟩
  | shut => exact absurd h (Nat.ne_of_gt (Closer.left_shut_pos dialing))
  | _ => cases h

theorem Sound.exists_returned {c : Course step?} {i : Nat} (h : (c.state i).Sound target)
    (hk : (c.state i).closers[k]? = some closer) (hfair : Fair c) :
    ∃ j, i ≤ j ∧ ∃ result, (c.state j).closers[k]? = some (.returned result) := by
  obtain ⟨j, closer', hij, hk', -, hzero⟩ := Course.exists_part_rank_eq_zero (c := c) (p := fun s _ => s.Sound target)
    (fun s => s.closers[k]?) (fun s => Closer.left s.traffic.dialing) (Lowering k)
    (by
      intro s closer move s' hk hs hstep
      obtain ⟨closer', hk', -⟩ := (step_of_step? hstep).exists_turn hk
      exact ⟨closer', hk', hs.step (step_of_step? hstep), hs.left_le (step_of_step? hstep) hk hk'⟩)
    (by
      intro s closer r hk hs hr
      obtain ⟨move, hmove, s', hstep⟩ := hs.exists_lowering hk hr
      exact ⟨move, hmove, by rw [hstep]; simp⟩)
    (fun s closer move s' closer' r hk hs hr hmove hstep hk' => (step_of_step? hstep).left_le hk hk' hr hmove)
    (hfair.lowering k) hk h
  obtain ⟨result, rfl⟩ := eq_returned_of_left hzero
  exact ⟨j, hij, result, hk'⟩

theorem Sound.exists_ok {c : Course step?} {i : Nat} (h : (c.state i).Sound target) (hne : (c.state i).closers ≠ [])
    (hfair : Fair c) : ∃ j k : Nat, i ≤ j ∧ (c.state j).closers[k]? = some (.returned (.ok ())) := by
  have hlater : ∀ {i j}, (c.state i).Sound target → i ≤ j → (c.state j).Sound target := fun h hij =>
    c.always (p := Sound target) (fun s move s' hs hstep => hs.step (step_of_step? hstep)) h hij
  have hzero := List.getElem?_eq_getElem (List.length_pos_iff.2 hne)
  obtain ⟨j, hij, result, hreturned⟩ := h.exists_returned hzero hfair
  -- a close has returned, so some close has found the channel open
  obtain ⟨k, closer, hk, hfirst⟩ : ∃ (k : Nat) (closer : Closer), (c.state j).closers[k]? = some closer ∧ closer.First := by
    cases (hlater h hij).stage with
    | opened _ hbegun => cases hbegun _ (List.mem_of_getElem? hreturned)
    | shut _ _ hk => exact ⟨_, _, hk, Or.inl rfl⟩
    | down _ hk hcloser => exact ⟨_, _, hk, Or.inr hcloser⟩
  obtain ⟨m, hjm, result', hm⟩ := (hlater h hij).exists_returned hk hfair
  obtain ⟨closer', hk', hfirst'⟩ : ∃ closer' : Closer, (c.state m).closers[k]? = some closer' ∧ closer'.First :=
    c.always (p := fun s => ∃ closer : Closer, s.closers[k]? = some closer ∧ closer.First)
      (fun s move s' ⟨closer, hk, hfirst⟩ hstep => (step_of_step? hstep).first hk hfirst) ⟨closer, hk, hfirst⟩ hjm
  cases hm.symm.trans hk'
  refine ⟨m, k, Nat.le_trans hij hjm, ?_⟩
  rcases hfirst' with hshut | hdown | hok
  · cases hshut
  · cases hdown
  · rw [hm, hok]

/-! ## After the close -/

theorem Stage.down_of_ok (h : s.Stage target) (hk : s.closers[k]? = some (.returned (.ok ()))) : s.traffic.Down := by
  cases h with
  | opened _ hbegun => cases hbegun _ (List.mem_of_getElem? hk)
  | shut _ _ hj hothers =>
    cases hothers.eq hk (Or.inr (Or.inr rfl))
    cases hk.symm.trans hj
  | down hdown => exact hdown

theorem Sound.down_step {p : Traffic → Prop}
    (hp : ∀ s m s', s.Sound → s.Tidy target → s.Down → p s → Traffic.Step s m s' → p s') (h : s.Sound target)
    (hdown : s.traffic.Down) (hs : p s.traffic) (hstep : s.Step move s') : s'.traffic.Down ∧ p s'.traffic := by
  rcases hstep.traffic with hsame | ⟨m, hm⟩
  · rw [hsame]
    exact ⟨hdown, hs⟩
  · have hm' := Traffic.step_of_step? hm
    exact ⟨(hdown.step h.traffic hm').1, hp _ _ _ h.traffic h.tidy hdown hs hm'⟩

theorem Sound.down_run {p : Traffic → Prop}
    (hp : ∀ s m s', s.Sound → s.Tidy target → s.Down → p s → Traffic.Step s m s' → p s')
    {moves : List SessionMove} (h : s.Sound target) (hdown : s.traffic.Down) (hs : p s.traffic)
    (hrun : Session.run moves s = some s') : s'.traffic.Down ∧ p s'.traffic := by
  induction moves generalizing s with
  | nil =>
    cases hrun
    exact ⟨hdown, hs⟩
  | cons move moves ih =>
    obtain ⟨s₁, hstep, hrun⟩ := Option.bind_eq_some_iff.1 hrun
    obtain ⟨hdown₁, hs₁⟩ := h.down_step hp hdown hs (step_of_step? hstep)
    exact ih (h.step (step_of_step? hstep)) hdown₁ hs₁ hrun

theorem step?_next (t r : Nat) :
    s.step? (.pass (Call.next t r)) = (s.traffic.step? (Call.next t r)).map fun traffic => { s with traffic } := by
  unfold Call.next
  split <;> rfl

/-- On a channel that is down, whoever has taken a number and got no answer is told that the connection is lost, now and
later. -/
theorem Sound.told_at {c : Course step?} (h : (c.state 0).Sound target) (hdown : (c.state 0).traffic.Down)
    (htold : (c.state 0).traffic.AllTold) (i : Nat) :
    (c.state i).Sound target ∧ (c.state i).traffic.Down ∧ (c.state i).traffic.AllTold := by
  refine c.always (p := fun s => s.Sound target ∧ s.traffic.Down ∧ s.traffic.AllTold) ?_ (i := 0) ⟨h, hdown, htold⟩
    (Nat.zero_le i)
  rintro s move s' ⟨hs, hdown, htold⟩ hstep
  refine ⟨hs.step (step_of_step? hstep), ?_⟩
  exact hs.down_step (p := Traffic.AllTold) (fun _ _ _ hs _ hdown htold hstep => htold.step hs hdown hstep) hdown
    htold (step_of_step? hstep)

/-- On a channel that is down every call ends. -/
theorem Sound.exists_ending {c : Course step?} {i t : Nat} {call : Call} (h : (c.state i).Sound target)
    (hdown : (c.state i).traffic.Down) (ht : (c.state i).traffic.calls[t]? = some call) (htold : call.Told)
    (hfair : Fair c) : ∃ j, i ≤ j ∧ ∃ call', (c.state j).traffic.calls[t]? = some call' ∧ call'.ending ≠ none := by
  obtain ⟨j, call', hij, ht', -, hzero⟩ := Course.exists_part_rank_eq_zero (c := c)
    (p := fun s call => s.Sound target ∧ s.traffic.Down ∧ call.Told) (fun s => s.traffic.calls[t]?)
    (fun _ => Call.left) (fun r move => move = .pass (Call.next t r))
    (by
      rintro s call move s' ht ⟨hs, hdown, htold⟩ hstep
      have hs' := hs.step (step_of_step? hstep)
      rcases (step_of_step? hstep).traffic with hsame | ⟨m, hm⟩
      · rw [hsame]
        exact ⟨call, ht, ⟨hs', hdown, htold⟩, Nat.le_refl _⟩
      · have hm' := Traffic.step_of_step? hm
        obtain ⟨call', ht', hturn⟩ := hs.traffic.exists_turn hm' ht
        exact ⟨call', ht', ⟨hs', (hdown.step hs.traffic hm').1, htold.turn hs.traffic hdown ht hturn⟩, hturn.left_le⟩)
    (by
      rintro s call r ht ⟨hs, hdown, htold⟩ hr
      obtain ⟨hopen, -, hflushed, -⟩ := Call.of_left_eq_succ hr
      have hmail : r = 0 → call.mail ≠ .empty := by
        intro hzero
        refine htold hopen fun hnumber => ?_
        have hfresh := (hs.traffic.fresh ht hnumber).2.2
        cases hfresh.symm.trans (hflushed hzero)
      obtain ⟨s', hnext⟩ := hs.traffic.exists_next ht hr hmail (fun _ n => hs.tidy.connected t call n ht)
        (fun _ => hdown.dialing)
      exact ⟨_, rfl, by rw [step?_next, hnext]; simp⟩)
    (by
      rintro s call move s' call' r ht ⟨hs, hdown, htold⟩ hr rfl hstep ht'
      cases step_of_step? hstep with
      | pass _ _ hmove =>
        obtain ⟨call₁, ht₁, hturn⟩ := hs.traffic.exists_turn (Traffic.step_of_step? hmove) ht
        cases ht'.symm.trans ht₁
        refine hturn.left_le_of_next hr fun _ hready => ?_
        cases (Line.ready_of_closed hdown.closed).symm.trans hready)
    (hfair.calls t) ht ⟨h, hdown, htold⟩
  exact ⟨j, hij, call', ht', Call.left_eq_zero.1 hzero⟩

end Session

/-! ## The whole life of a channel -/

namespace Session

variable {s s' : Session} {target : String} {k : Nat}

/-- How a channel to a target lives, as seen from one of its states. -/
structure Lifecycle (target : String) (s : Session) : Prop where
  /-- At most one connection is alive. -/
  alone : ∀ (n m : Nat) (l l' : Link), s.traffic.line.links[n]? = some l → s.traffic.line.links[m]? = some l' →
    l.alive = true → l'.alive = true → n = m
  /-- From the beginning of a dial to its end no connection is alive. -/
  idle : s.traffic.dialing ≠ none → ∀ l ∈ s.traffic.line.links, l.alive = false
  /-- Only a dial opens a connection. -/
  opens : ∀ move s', s.step? move = some s' →
    s'.traffic.line.links.length = s.traffic.line.links.length ∨ s.traffic.dialing ≠ none
  results : ∀ (k : Nat) (result : Except DialError Unit), s.closers[k]? = some (.returned result) →
    result = .ok () ∨ result = .error (.closed target)
  once : ∀ j k : Nat, s.closers[j]? = some (.returned (.ok ())) → s.closers[k]? = some (.returned (.ok ())) → j = k
  /-- Once all closes have returned, one has succeeded. -/
  ok : s.closers ≠ [] → (∀ closer ∈ s.closers, ∃ result, closer = .returned result) →
    ∃ k : Nat, s.closers[k]? = some (.returned (.ok ()))
  /-- All closes return. -/
  returns : ∀ c : Course step?, c.state 0 = s → Fair c → ∀ (k : Nat) (closer : Closer), s.closers[k]? = some closer →
    ∃ (i : Nat) (result : Except DialError Unit), (c.state i).closers[k]? = some (.returned result)
  /-- If a close is made, one succeeds. -/
  succeeds : ∀ c : Course step?, c.state 0 = s → Fair c → s.closers ≠ [] →
    ∃ i k : Nat, (c.state i).closers[k]? = some (.returned (.ok ()))
  /-- After a close has succeeded no connection is alive, and none is opened. -/
  down : ∀ k : Nat, s.closers[k]? = some (.returned (.ok ())) → ∀ later s', run later s = some s' →
    (∀ l ∈ s'.traffic.line.links, l.alive = false) ∧
      s'.traffic.line.links.length = s.traffic.line.links.length
  /-- Calls that begin then are told that the channel is closed. -/
  refused : ∀ k : Nat, s.closers[k]? = some (.returned (.ok ())) → ∀ later s', run later s = some s' →
    ∀ (t : Nat) (call : Call), s.traffic.calls.length ≤ t → s'.traffic.calls[t]? = some call → call.Refused target
  /-- Calls that were not answered before fail. -/
  denied : ∀ k : Nat, s.closers[k]? = some (.returned (.ok ())) → ∀ later s', run later s = some s' →
    ∀ (t : Nat) (call : Call), s.traffic.calls[t]? = some call → call.ending = none →
      (∀ p r, call.mail ≠ .answer p r) → ∃ call', s'.traffic.calls[t]? = some call' ∧ call'.Denied target
  /-- All calls end. -/
  ends : ∀ k : Nat, s.closers[k]? = some (.returned (.ok ())) → s.traffic.Few → ∀ c : Course step?, c.state 0 = s →
    Fair c → ∀ (i t : Nat) (call : Call), (c.state i).traffic.calls[t]? = some call →
      ∃ j, i ≤ j ∧ ∃ call', (c.state j).traffic.calls[t]? = some call' ∧ call'.ending ≠ none

theorem Stage.results (h : s.Stage target) {result : Except DialError Unit}
    (hk : s.closers[k]? = some (.returned result)) : result = .ok () ∨ result = .error (.closed target) := by
  have hother : ∀ {j}, k ≠ j → Others target s.closers j → result = .error (.closed target) := by
    intro j hkj hothers
    rcases hothers k _ hkj hk with hbegun | hrefused
    · cases hbegun
    · cases hrefused
      rfl
  cases h with
  | opened _ hbegun => cases hbegun _ (List.mem_of_getElem? hk)
  | @shut j _ _ hj hothers =>
    refine Or.inr (hother ?_ hothers)
    rintro rfl
    cases hj.symm.trans hk
  | @down j closer _ hj hcloser hothers =>
    by_cases hkj : k = j
    · subst hkj
      cases hk.symm.trans hj
      rcases hcloser with hdown | hok
      · cases hdown
      · cases hok
        exact Or.inl rfl
    · exact Or.inr (hother hkj hothers)

theorem Stage.once (h : s.Stage target) {j : Nat} (hj : s.closers[j]? = some (.returned (.ok ())))
    (hk : s.closers[k]? = some (.returned (.ok ()))) : j = k := by
  have hfirst : Closer.First (.returned (.ok ())) := Or.inr (Or.inr rfl)
  cases h with
  | opened _ hbegun => cases hbegun _ (List.mem_of_getElem? hk)
  | shut _ _ _ hothers => rw [hothers.eq hj hfirst, hothers.eq hk hfirst]
  | down _ _ _ hothers => rw [hothers.eq hj hfirst, hothers.eq hk hfirst]

theorem Stage.exists_ok (h : s.Stage target) (hne : s.closers ≠ [])
    (hreturned : ∀ closer ∈ s.closers, ∃ result, closer = .returned result) :
    ∃ k : Nat, s.closers[k]? = some (.returned (.ok ())) := by
  cases h with
  | opened _ hbegun =>
    obtain ⟨closer, hcloser⟩ := List.exists_mem_of_ne_nil _ hne
    obtain ⟨result, hresult⟩ := hreturned closer hcloser
    cases (hbegun closer hcloser).symm.trans hresult
  | shut _ _ hk =>
    obtain ⟨result, hresult⟩ := hreturned _ (List.mem_of_getElem? hk)
    cases hresult
  | @down k closer _ hk hcloser =>
    obtain ⟨result, hresult⟩ := hreturned _ (List.mem_of_getElem? hk)
    rcases hcloser with hdown | hok
    · cases hdown.symm.trans hresult
    · exact ⟨k, hk.trans (congrArg some hok)⟩

end Session

theorem Traffic.Ticketed.told {s : Traffic} {t : Nat} {call : Call} (h : s.Ticketed) (hs : s.Sound)
    (hdead : s.line.Dead) (ht : s.calls[t]? = some call) : call.Told := by
  intro hopen hnumber hmail
  obtain ⟨number, hnumber⟩ := Option.ne_none_iff_exists'.1 hnumber
  obtain ⟨n, c, k, hn, hc, -, -⟩ := (hs.calls t call ht).numbered number hnumber
  obtain ⟨l, hlink⟩ := hs.exists_link hc
  have hdead := hdead l (List.mem_of_getElem? hlink)
  exact h.not_waits ⟨l, hlink, Option.not_isSome_iff_eq_none.1 (by rw [Link.alive] at hdead; simp [hdead])⟩ ht
    ⟨hn, hnumber, hmail, hopen⟩

/-- However calls and closes take turns on a channel, whenever connections are lost and whether dials succeed or fail:
at most one connection is alive, and a call dials only when none is. Of the closes one succeeds and all others are told
that the channel is closed. From then on no connection is alive or opened, calls that begin are told that the channel is
closed, and those that were not answered fail. -/
theorem channel_lifecycle {target : String} {moves : List SessionMove} {s : Session}
    (hrun : Session.run moves (.start target) = some s) : s.Lifecycle target := by
  have h : s.Sound target := (Session.Sound.start target).run hrun
  refine ⟨?_, h.tidy.idle, ?_, fun k result => h.stage.results, fun j k => h.stage.once, h.stage.exists_ok, ?_, ?_, ?_,
    ?_, ?_, ?_⟩
  · intro n m l l' hl hl' halive halive'
    rw [h.tidy.alone n l hl halive, h.tidy.alone m l' hl' halive']
  · intro move s' hstep
    by_cases hdialing : s.traffic.dialing = none
    · refine Or.inl ?_
      rcases (Session.step_of_step? hstep).traffic with hsame | ⟨m, hm⟩
      · rw [hsame]
      · exact (h.traffic.lineTurn (Traffic.step_of_step? hm)).length_links hdialing
    · exact Or.inr hdialing
  · intro c hc hfair k closer hk
    obtain ⟨j, -, hj⟩ := Session.Sound.exists_returned (c := c) (i := 0) (hc ▸ h) (hc ▸ hk) hfair
    exact ⟨j, hj⟩
  · intro c hc hfair hne
    obtain ⟨i, k, -, hk⟩ := Session.Sound.exists_ok (c := c) (i := 0) (hc ▸ h) (hc ▸ hne) hfair
    exact ⟨i, k, hk⟩
  · intro k hk later s' hlater
    obtain ⟨hdown, hlength⟩ := h.down_run (p := fun traffic => traffic.line.links.length = s.traffic.line.links.length)
      (fun _ _ _ hs _ hdown hlength hstep => (hdown.step hs hstep).2.trans hlength) (h.stage.down_of_ok hk) rfl hlater
    exact ⟨hdown.dead, hlength⟩
  · intro k hk later s' hlater
    have hnone : s.traffic.RefusedFrom target s.traffic.calls.length := fun t call hlate ht =>
      absurd (List.getElem?_eq_some_iff.1 ht).1 (Nat.not_lt.2 hlate)
    exact (h.down_run (p := Traffic.RefusedFrom target s.traffic.calls.length)
      (fun _ _ _ hs htidy hdown hrefused hstep => hrefused.step hs htidy.target hdown hstep) (h.stage.down_of_ok hk)
      hnone hlater).2
  · intro k hk later s' hlater t call ht hopen hmail
    refine (h.down_run (p := fun traffic => ∃ call' : Call, traffic.calls[t]? = some call' ∧ call'.Denied target) ?_
      (h.stage.down_of_ok hk) ⟨call, ht, hmail, fun ending hending => by cases hopen.symm.trans hending⟩ hlater).2
    rintro s m s' hs htidy hdown ⟨call, ht, hdenied⟩ hstep
    obtain ⟨call', ht', hturn⟩ := hs.exists_turn hstep ht
    exact ⟨call', ht', hdenied.turn hdown htidy.target hturn⟩
  · intro k hk hfew c hc hfair i t call ht
    obtain ⟨moves', hmoves'⟩ := Session.exists_run_traffic hrun
    have hticketed : s.traffic.Ticketed := Traffic.ticketed_of_run hmoves' hfew
    have hdown := h.stage.down_of_ok hk
    have htold : s.traffic.AllTold := fun t call ht => hticketed.told h.traffic hdown.dead ht
    subst hc
    obtain ⟨hs', hdown', htold'⟩ := h.told_at hdown htold i
    exact hs'.exists_ending hdown' ht (htold' t call ht) hfair

/-- A call connects, and the connection is lost. Two closes are made while the next call dials, and the dial comes to
its end between the two steps of the first. -/
def closingDial : List SessionMove :=
  [.pass (.begin .rtt), .pass (.connect 0), .pass (.dialed 0 none), .pass (.register 0), .pass (.lose 0),
    .pass (.begin .rtt), .pass (.connect 1), .close, .close, .swap 1, .swap 0, .pass (.dialed 1 none),
    .pass (.register 1), .takeDown 1, .finish 1]

/-- What is left after that, and after both calls have written their frames and heard that nobody will answer. -/
def closedDial : Session := (Session.run closingDial (.start "b:1")).getD (.start "b:1")

def lastWords : List SessionMove :=
  [.pass (.put 0), .pass (.flush 0), .pass (.receive 0), .pass (.put 1), .pass (.flush 1), .pass (.receive 1)]

def silence : Session := (Session.run lastWords closedDial).getD closedDial

theorem silence_lasts : silence.step? (.pass (.lose 0)) = some silence := rfl

theorem stateAfter_lastWords (i : Nat) :
    Course.stateAfter Session.step? closedDial (lastWords.getD · (.pass (.lose 0))) (i + 6) = silence := by
  induction i with
  | zero => rfl
  | succ i ih =>
    show (Session.step? (Course.stateAfter _ _ _ (i + 6)) (.pass (.lose 0))).getD _ = _
    rw [ih, silence_lasts]
    rfl

/-- The calls end, and from then on the reader of the first connection comes to its end again and again. -/
def closedDialCourse : Course Session.step? :=
  .ofMoves closedDial (lastWords.getD · (.pass (.lose 0))) fun i =>
    match i with
    | 0 => rfl
    | 1 => rfl
    | 2 => rfl
    | 3 => rfl
    | 4 => rfl
    | 5 => rfl
    | i + 6 => by
      rw [stateAfter_lastWords]
      exact Option.isSome_iff_exists.2 ⟨_, silence_lasts⟩

theorem closedDialCourse_fair : Session.Fair closedDialCourse := by
  have hfair : ∀ {moves : SessionMove → Prop}, (∀ move, moves move → silence.step? move = none) →
      closedDialCourse.Fair moves := by
    intro moves hnone
    refine Course.fair_of_eq_none (i := 6) fun j hj move hmove => ?_
    obtain ⟨i, rfl⟩ := Nat.exists_eq_add_of_le' hj
    show Session.step? (Course.stateAfter _ _ _ (i + 6)) move = none
    rw [stateAfter_lastWords]
    exact hnone move hmove
  refine ⟨fun t r => hfair ?_, hfair ?_, fun k => hfair ?_, fun k => hfair ?_, fun k => hfair ?_⟩
  · rintro _ rfl
    have hopen? : silence.traffic.open? t = none := by
      match t with
      | 0 => rfl
      | 1 => rfl
      | _ + 2 => rfl
    rw [Session.step?_next, Traffic.next_eq_none hopen? r]
    rfl
  · rintro _ ⟨t, error, rfl⟩
    match t with
    | 0 => rfl
    | 1 => rfl
    | _ + 2 => rfl
  all_goals
    rintro _ rfl
    match k with
    | 0 => rfl
    | 1 => rfl
    | _ + 2 => rfl

theorem closingDial_lifecycle :
    closedDial.closers = [.returned (.error (.closed "b:1")), .returned (.ok ())] ∧
      closedDial.traffic.line.links.length = 2 ∧ (∀ l ∈ closedDial.traffic.line.links, l.alive = false) ∧
      (∃ call : Call, closedDial.traffic.calls[1]? = some call ∧ call.Denied "b:1") ∧
      ∃ i, ∃ call : Call, (closedDialCourse.state i).traffic.calls[1]? = some call ∧ call.ending ≠ none := by
  obtain ⟨call, hrun, hk, hfew, ht, hopen, hmail⟩ :
      ∃ call, Session.run closingDial (.start "b:1") = some closedDial ∧
        closedDial.closers[1]? = some (.returned (.ok ())) ∧ closedDial.traffic.Few ∧
        closedDial.traffic.calls[1]? = some call ∧ call.ending = none ∧ call.mail = .lost :=
    ⟨_, rfl, rfl, by decide, rfl, rfl, rfl⟩
  have hlife := channel_lifecycle hrun
  refine ⟨rfl, rfl, (hlife.down 1 hk [] _ rfl).1, hlife.denied 1 hk [] _ rfl 1 call ht hopen (by simp [hmail]), ?_⟩
  obtain ⟨i, -, hend⟩ := hlife.ends 1 hk hfew closedDialCourse rfl closedDialCourse_fair 0 1 call ht
  exact ⟨i, hend⟩

end PeerMesh.Tcp
