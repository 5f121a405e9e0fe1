import PeerMesh.Proofs.Tcp.Answers
import PeerMesh.Proofs.Tcp.Progress

/-!
# Nobody waits in vain

A call may wait for an answer, or may already have been told that there will be none. Between the two there is
nothing: who is in the table of a connection is who waits there, and when the table goes all of them are told.

* `Traffic.Ticketed`, `Traffic.Ticketed.step` : whoever waits on a connection is in its table;
* `Traffic.Gone`, `Traffic.Gone.step` : a connection that has ended does not come back;
* `Call.Forsaken`, `Call.Forsaken.turn` : who was told that there will be no answer, and the ways in which that ends;
* `Traffic.FairTo`, `Traffic.Forsakes.exists_ending` : a call that may always go on, and that it then ends;
* `waiters_are_told` : the table of a connection while there is one, and what becomes of those who wait when it goes.
-/

namespace PeerMesh.Tcp

namespace Traffic

variable {s s' : Traffic} {move : Move} {n : Nat}

/-! ## Who is in the table -/

/-- Whoever waits on a connection is in its table. -/
def Ticketed (s : Traffic) : Prop :=
  ∀ (t : Nat) (call : Call) (n : Nat) (number : UInt64), s.calls[t]? = some call → call.Waits n number →
    ∃ l, s.line.links[n]? = some l ∧ l.ticket? number = some ⟨t⟩

theorem Few.of_step (hfew : s'.Few) (hstep : s.Step move s') : s.Few := by
  intro c hc
  obtain ⟨n, hn⟩ := List.mem_iff_getElem?.1 hc
  obtain ⟨c', hn', hle⟩ := hstep.grown n c hn
  have hlength := hfew c' (List.mem_of_getElem? hn')
  exact Nat.lt_of_le_of_lt hle.callers.length_le hlength

theorem Few.of_run {moves : List Move} (hfew : s'.Few) (hrun : run moves s = some s') : s.Few := by
  induction moves generalizing s with
  | nil =>
    cases hrun
    exact hfew
  | cons move moves ih =>
    obtain ⟨s₁, hstep, hrun⟩ := Option.bind_eq_some_iff.1 hrun
    exact (ih hrun).of_step (step_of_step? hstep)

theorem Sound.waits_of_turn {t : Nat} {number : UInt64} {call call' : Call} (h : s.Sound)
    (ht : s.calls[t]? = some call) (hturn : call.Turn s t move call') (hwaits : call'.Waits n number) :
    call.Waits n number ∨ move = .register t := by
  cases hturn with
  | passed => exact Or.inl hwaits
  | lost => cases hwaits.mail
  | answered => cases hwaits.mail
  | acted hopen hacts =>
    cases hacts with
    | connected hconnection => cases (h.number_of_connection ht hconnection).symm.trans hwaits.number
    | dialed hconnection => cases (h.number_of_connection ht hconnection).symm.trans hwaits.number
    | dials => exact Or.inl hwaits
    | registered => exact Or.inr rfl
    | placed => exact Or.inl ⟨hwaits.connection, hwaits.number, hwaits.mail, hwaits.ending⟩
    | flushed => exact Or.inl ⟨hwaits.connection, hwaits.number, hwaits.mail, hwaits.ending⟩
    | _ => cases hwaits.ending

theorem Sound.ne_next {t : Nat} {number : UInt64} {call : Call} {l : Link} {c : Connection} (h : s.Sound)
    (ht : s.calls[t]? = some call) (hconnection : call.connection = some n) (hnumber : call.number = some number)
    (hlink : s.line.links[n]? = some l) (hc : s.connections[n]? = some c) (hfew : c.callers.length + 1 < 2 ^ 64) :
    number ≠ l.next := by
  obtain ⟨m, d, k, hm, hd, hk, heq⟩ := (h.calls t call ht).numbered number hnumber
  cases hconnection.symm.trans hm
  cases hc.symm.trans hd
  have hklt := (List.getElem?_eq_some_iff.1 hk).1
  intro hnext
  have hnat := congrArg UInt64.toNat (heq.symm.trans (hnext.trans (h.links n l c hlink hc).next))
  have hsmall : k + 1 < 2 ^ 64 := by omega
  rw [UInt64.toNat_ofNat_of_lt' hsmall, UInt64.toNat_ofNat_of_lt' hfew] at hnat
  omega

theorem Step.ticket_of_register {t : Nat} {number : UInt64} {call' : Call} (hstep : s.Step (.register t) s')
    (ht' : s'.calls[t]? = some call') (hwaits : call'.Waits n number) :
    ∃ l', s'.line.links[n]? = some l' ∧ l'.ticket? number = some ⟨t⟩ := by
  cases hstep with
  | @registered _ m call l c ht _ hconnection _ hlink _ =>
    cases (getElem?_set_of_some_self ht _).symm.trans ht'
    cases hconnection.symm.trans hwaits.connection
    refine ⟨(l.register ⟨t⟩).2.2, ?_, ?_⟩
    · show (s.line.setLink n _).links[n]? = _
      rw [Line.links_setLink, getElem?_set_of_some_self hlink]
    · rw [Link.ticket?_register, if_pos]
      refine ⟨?_, (Option.some.inj hwaits.number).symm⟩
      by_contra hdead
      have hending := hwaits.ending
      rw [if_neg hdead] at hending
      cases hending
  | otherEnd hforeign => cases hforeign

theorem Ticketed.step (h : s.Ticketed) (hs : s.Sound) (hstep : s.Step move s') (hfew : s'.Few) : s'.Ticketed := by
  intro t call' n number ht' hwaits'
  rcases hs.exists_turn_before hstep ht' with ⟨call, ht, hturn⟩ | hfresh
  · rcases hs.waits_of_turn ht hturn hwaits' with hwaits | rfl
    · obtain ⟨l, hlink, hticket⟩ := h t call n number ht hwaits
      obtain ⟨l', hlink', hlinkTurn⟩ := (hs.lineTurn hstep).exists_link hlink
      refine ⟨l', hlink', ?_⟩
      cases hlinkTurn with
      | still => exact hticket
      | registered hc hc' hcallers =>
        have hlength := hfew _ (List.mem_of_getElem? hc')
        rw [hcallers, List.length_append, List.length_singleton] at hlength
        rw [Link.ticket?_register, if_neg, hticket]
        exact fun hnew => hs.ne_next ht hwaits.connection hwaits.number hlink hc hlength hnew.2
      | @dropped gone hnobody =>
        rw [Link.ticket?_abandon, if_neg, hticket]
        rintro rfl
        obtain ⟨u, callu, hu, hconnection, hnumber, hwaitsNot⟩ := hnobody _ hticket
        cases hs.eq_of_number (hfew.of_step hstep) hu ht hconnection hwaits.connection hnumber hwaits.number
        exact hwaitsNot call' ht' hwaits'
      | lost hnobody => exact absurd hwaits' (hnobody number _ hticket call' ht')
    · exact hstep.ticket_of_register ht' hwaits'
  · rw [hfresh] at hwaits'
    cases hwaits'.number

theorem ticketed_of_run {target : String} {moves : List Move} (hrun : run moves (.start target) = some s)
    (hfew : s.Few) : s.Ticketed := by
  suffices h : ∀ (moves : List Move) (s₀ : Traffic), s₀.Sound → s₀.Ticketed → run moves s₀ = some s → s.Ticketed from
    h moves _ (Sound.start target) (fun t call n number ht => by simp [start] at ht) hrun
  intro moves
  induction moves with
  | nil =>
    intro s₀ _ h hrun
    cases hrun
    exact h
  | cons move moves ih =>
    intro s₀ hs h hrun
    obtain ⟨s₁, hstep, hrun⟩ := Option.bind_eq_some_iff.1 hrun
    exact ih s₁ (hs.step hstep) (h.step hs (step_of_step? hstep) (hfew.of_run hrun)) hrun

/-! ## Connections that have ended -/

/-- The connection has ended, and its table is gone. -/
def Gone (s : Traffic) (n : Nat) : Prop := ∃ l, s.line.links[n]? = some l ∧ l.waiting = none

theorem Gone.step (h : s.Gone n) (hs : s.Sound) (hstep : s.Step move s') : s'.Gone n := by
  obtain ⟨l, hlink, hnone⟩ := h
  obtain ⟨l', hlink', hturn⟩ := (hs.lineTurn hstep).exists_link hlink
  refine ⟨l', hlink', ?_⟩
  by_contra hsome
  have halive : l.alive = true := hturn.alive (Option.isSome_iff_ne_none.2 hsome)
  rw [Link.alive, hnone] at halive
  cases halive

theorem Gone.run {moves : List Move} (h : s.Gone n) (hs : s.Sound) (hrun : Traffic.run moves s = some s') :
    s'.Gone n := by
  induction moves generalizing s with
  | nil =>
    cases hrun
    exact h
  | cons move moves ih =>
    obtain ⟨s₁, hstep, hrun⟩ := Option.bind_eq_some_iff.1 hrun
    exact ih (h.step hs (step_of_step? hstep)) (hs.step hstep) hrun

theorem Ticketed.not_waits {t : Nat} {call : Call} {number : UInt64} (h : s.Ticketed) (hgone : s.Gone n)
    (ht : s.calls[t]? = some call) : ¬ call.Waits n number := by
  intro hwaits
  obtain ⟨l, hlink, hticket⟩ := h t call n number ht hwaits
  obtain ⟨l', hlink', hnone⟩ := hgone
  cases hlink.symm.trans hlink'
  rw [Link.ticket?, hnone] at hticket
  cases hticket

/-- On a connection that has ended a call that takes a number is told at once that there will be no answer. -/
theorem Gone.register {t : Nat} {call : Call} (h : s.Gone n) (ht : s.calls[t]? = some call)
    (hconnection : call.connection = some n) (hstep : s.register t = some s') :
    ∃ call', s'.calls[t]? = some call' ∧ call'.ending = some (.returned (.error (.lost call.request.method))) := by
  cases step_of_register hstep with
  | registered hu _ hn _ hlink _ =>
    cases ht.symm.trans hu
    cases hconnection.symm.trans hn
    obtain ⟨l, hl, hnone⟩ := h
    cases hlink.symm.trans hl
    refine ⟨_, getElem?_set_of_some_self hu _, ?_⟩
    rw [Link.alive, hnone]
    rfl
  | otherEnd hforeign => cases hforeign

end Traffic

namespace Call

/-! ## Calls that will not be answered -/

/-- The ways in which a call with this frame ends that was told that there will be no answer: the caller gives it up,
or learns that the connection is lost or that the frame could not be written. -/
def EndsUnanswered (frame : Frame Request) (ending : Ending) : Prop :=
  ending = .abandoned ∨ ending = .returned (.error (.lost frame.body.method)) ∨
    (∃ fault, ending = .returned (.error (.codec (.io fault)))) ∨
    ∃ e, Wire.send (Wire.frame Wire.request) frame = .error e ∧ ending = .returned (.error (.codec e))

/-- The call was told that there will be no answer to its frame. -/
structure Forsaken (call : Call) (n : Nat) (frame : Frame Request) : Prop where
  connection : call.connection = some n
  number : call.number = some frame.callId
  request : call.request = frame.body
  mail : call.mail = .lost
  ending : ∀ ending, call.ending = some ending → EndsUnanswered frame ending

variable {s : Traffic} {t n : Nat} {frame : Frame Request} {move : Move} {call call' : Call}

theorem Forsaken.turn (h : call.Forsaken n frame) (hturn : call.Turn s t move call') : call'.Forsaken n frame := by
  have hends : ∀ ending, EndsUnanswered frame ending → Forsaken { call with ending := some ending } n frame := by
    intro ending hending
    refine ⟨h.connection, h.number, h.request, h.mail, fun other hother => ?_⟩
    cases hother
    exact hending
  have hnever : ∀ {call' : Call}, call'.ending = none → ∀ ending, call'.ending = some ending →
      EndsUnanswered frame ending := by
    intro call' hopen ending hending
    cases hopen.symm.trans hending
  cases hturn with
  | passed => exact h
  | lost _ hmail => cases h.mail.symm.trans hmail
  | answered hwaits => cases h.mail.symm.trans hwaits.mail
  | acted hopen hacts =>
    cases hacts with
    | refused hconnection => cases h.connection.symm.trans hconnection
    | connected hconnection => cases h.connection.symm.trans hconnection
    | dials => exact h
    | undialed hconnection => cases h.connection.symm.trans hconnection
    | dialed hconnection => cases h.connection.symm.trans hconnection
    | registered _ hnumber => cases h.number.symm.trans hnumber
    | placed => exact ⟨h.connection, h.number, h.request, h.mail, hnever hopen⟩
    | @oversized number e hnumber _ hsend =>
      cases h.number.symm.trans hnumber
      rw [h.request] at hsend
      exact hends _ (Or.inr (Or.inr (Or.inr ⟨e, hsend, rfl⟩)))
    | flushed => exact ⟨h.connection, h.number, h.request, h.mail, hnever hopen⟩
    | broken => exact hends _ (Or.inr (Or.inr (Or.inl ⟨_, rfl⟩)))
    | heardLost => exact hends _ (Or.inr (Or.inl (by rw [h.request])))
    | heardAnswer hmail => cases h.mail.symm.trans hmail
    | abandoned => exact hends _ (Or.inl rfl)

/-- What is left to such a call is to hand over its frame, to flush it, and to hear what it was told. -/
theorem Forsaken.left_le {r : Nat} (h : call.Forsaken n frame) (hleft : call.left = r + 1) : r ≤ 2 := by
  obtain ⟨-, hr, -, -, -, hthree, hfour⟩ := of_left_eq_succ hleft
  have hne : r ≠ 3 := fun heq => by cases h.number.symm.trans (hthree heq).1
  have hne' : r ≠ 4 := fun heq => by cases h.connection.symm.trans (hfour heq)
  omega

end Call

namespace Traffic

variable {s : Traffic} {t n : Nat} {frame : Frame Request}

/-- What a call can do next is not put off for ever. -/
def FairTo (c : Course step?) (t : Nat) : Prop := ∀ r, c.Fair (· = Call.next t r)

theorem FairTo.of_ending {c : Course step?} {i : Nat} {call : Call} (hs : (c.state i).Sound)
    (ht : (c.state i).calls[t]? = some call) (hended : call.ending ≠ none) : FairTo c t := by
  intro r
  refine Course.fair_of_eq_none (i := i) fun j hij move hmove => ?_
  have hj : (c.state j).Sound ∧ ∃ call, (c.state j).calls[t]? = some call ∧ call.left = 0 := by
    refine c.always (p := fun s => s.Sound ∧ ∃ call, s.calls[t]? = some call ∧ call.left = 0) ?_
      ⟨hs, call, ht, Call.left_eq_zero.2 hended⟩ hij
    rintro s move s' ⟨hs, call, ht, hzero⟩ hstep
    obtain ⟨call', ht', hturn⟩ := hs.exists_turn (step_of_step? hstep) ht
    exact ⟨hs.step hstep, call', ht', Nat.le_zero.1 (hzero ▸ hturn.left_le)⟩
  obtain ⟨-, call, ht, hzero⟩ := hj
  rw [hmove, next_eq_none]
  refine Option.eq_none_iff_forall_ne_some.2 fun other hother => ?_
  obtain ⟨hcall, hopen⟩ := Sound.open?_eq_some.1 hother
  cases ht.symm.trans hcall
  exact Call.left_eq_zero.1 hzero hopen

/-- Who was told that there will be no answer. -/
def Forsakes (s : Traffic) (t n : Nat) (frame : Frame Request) : Prop :=
  ∃ call, s.calls[t]? = some call ∧ call.Forsaken n frame

theorem Forsakes.step {s' : Traffic} {move : Move} (h : s.Forsakes t n frame) (hs : s.Sound)
    (hstep : s.step? move = some s') : s'.Forsakes t n frame := by
  obtain ⟨call, ht, hforsaken⟩ := h
  obtain ⟨call', ht', hturn⟩ := hs.exists_turn (step_of_step? hstep) ht
  exact ⟨call', ht', hforsaken.turn hturn⟩

theorem Forsakes.run {s' : Traffic} {moves : List Move} (h : s.Forsakes t n frame) (hs : s.Sound)
    (hrun : Traffic.run moves s = some s') : s'.Forsakes t n frame := by
  induction moves generalizing s with
  | nil =>
    cases hrun
    exact h
  | cons move moves ih =>
    obtain ⟨s₁, hstep, hrun⟩ := Option.bind_eq_some_iff.1 hrun
    exact ih (h.step hs hstep) (hs.step hstep) hrun

/-- Who was told that there will be no answer ends, if it may always go on. -/
theorem Forsakes.exists_ending (h : s.Forsakes t n frame) (hs : s.Sound) {c : Course step?} (hc : c.state 0 = s)
    (hfair : FairTo c t) : ∃ i call, (c.state i).calls[t]? = some call ∧ call.ending ≠ none := by
  subst hc
  obtain ⟨call, ht, hforsaken⟩ := h
  obtain ⟨i, call', -, ht', -, hzero⟩ := Course.exists_part_rank_eq_zero (c := c)
    (p := fun s call => s.Sound ∧ call.Forsaken n frame) (fun s => s.calls[t]?) (fun _ => Call.left)
    (fun r move => move = Call.next t r)
    (by
      rintro s call move s' ht ⟨hs, hforsaken⟩ hstep
      obtain ⟨call', ht', hturn⟩ := hs.exists_turn (step_of_step? hstep) ht
      exact ⟨call', ht', ⟨hs.step hstep, hforsaken.turn hturn⟩, hturn.left_le⟩)
    (by
      rintro s call r ht ⟨hs, hforsaken⟩ hr
      have hle := hforsaken.left_le hr
      have hmail : call.mail ≠ .empty := by rw [hforsaken.mail]; simp
      obtain ⟨s', hnext⟩ := hs.exists_next ht hr (fun _ => hmail) (fun h => by omega) (fun h => by omega)
      exact ⟨_, rfl, by rw [hnext]; simp⟩)
    (by
      rintro s call move s' call' r ht ⟨hs, hforsaken⟩ hr rfl hstep ht'
      have hle := hforsaken.left_le hr
      obtain ⟨call₁, ht₁, hturn⟩ := hs.exists_turn (step_of_step? hstep) ht
      cases ht'.symm.trans ht₁
      exact hturn.left_le_of_next hr (fun h => by omega))
    hfair ht ⟨hs, hforsaken⟩
  exact ⟨i, call', ht', Call.left_eq_zero.1 hzero⟩

end Traffic

/-- While a connection has a table, the numbers in it are those of the calls that wait there. Once the table is gone
there will be none again and nobody enters one: who takes a number is told at once that the connection is lost. Who had
one and was not answered is told so, and unless it is given up it ends with that or with the error of its own write; no
call goes on waiting if it may always go on. (Numbers come round again after `2 ^ 64` calls on one connection.) -/
theorem waiters_are_told {target : String} {moves : List Move} {s : Traffic} {n : Nat} {l : Link}
    (hrun : Traffic.run moves (.start target) = some s) (hfew : s.Few) (hlink : s.line.links[n]? = some l) :
    (∀ table, l.waiting = some table → ∀ number, number ∈ table.keys ↔
      ∃ (t : Nat) (call : Call), s.calls[t]? = some call ∧ call.Waits n number) ∧
    (l.waiting = none →
      (∀ (later : List Move) (s' : Traffic), Traffic.run later s = some s' →
        (∃ l', s'.line.links[n]? = some l' ∧ l'.waiting = none) ∧
        ∀ (t : Nat) (call : Call) (s'' : Traffic), s'.calls[t]? = some call → call.connection = some n →
          s'.register t = some s'' → ∃ call', s''.calls[t]? = some call' ∧
            call'.ending = some (.returned (.error (.lost call.request.method)))) ∧
      ∀ (t : Nat) (call : Call) (number : UInt64), s.calls[t]? = some call → call.connection = some n →
        call.number = some number → call.ending = none → (∀ p r, call.mail ≠ .answer p r) →
        (∀ (later : List Move) (s' : Traffic), Traffic.run later s = some s' →
          ∃ call', s'.calls[t]? = some call' ∧ ∀ ending, call'.ending = some ending →
            Call.EndsUnanswered ⟨number, call.request⟩ ending) ∧
        ∀ c : Course Traffic.step?, c.state 0 = s → Traffic.FairTo c t →
          ∃ i call', (c.state i).calls[t]? = some call' ∧ call'.ending ≠ none) := by
  have hs : s.Sound := (Traffic.Sound.start target).run hrun
  have hticketed : s.Ticketed := Traffic.ticketed_of_run hrun hfew
  refine ⟨fun table htable number => ?_, fun hnone => ?_⟩
  · have hmem : number ∈ table.keys ↔ ∃ u, l.ticket? number = some u := by
      rw [← Option.ne_none_iff_exists', Link.ticket?, htable, Option.bind_some, ne_eq, Table.get?_eq_none, not_not]
    rw [hmem]
    constructor
    · rintro ⟨u, hticket⟩
      obtain ⟨c, hc⟩ := hs.exists_connection hlink
      obtain ⟨call, ht, hwaits⟩ := (hs.links n l c hlink hc).waiting number u hticket
      exact ⟨u.number, call, ht, hwaits⟩
    · rintro ⟨t, call, ht, hwaits⟩
      obtain ⟨l', hlink', hticket⟩ := hticketed t call n number ht hwaits
      cases hlink.symm.trans hlink'
      exact ⟨⟨t⟩, hticket⟩
  · have hgone : s.Gone n := ⟨l, hlink, hnone⟩
    refine ⟨fun later s' hlater => ?_, fun t call number ht hconnection hnumber hopen hmail => ?_⟩
    · have hgone' : s'.Gone n := hgone.run hs hlater
      exact ⟨hgone', fun t call s'' ht hconnection hregister => hgone'.register ht hconnection hregister⟩
    · have hlost : call.mail = .lost := by
        cases hm : call.mail with
        | empty => exact absurd ⟨hconnection, hnumber, hm, hopen⟩ (hticketed.not_waits hgone ht)
        | answer p r => exact absurd hm (hmail p r)
        | lost => rfl
      have hforsakes : s.Forsakes t n ⟨number, call.request⟩ :=
        ⟨call, ht, hconnection, hnumber, rfl, hlost, fun ending hending => by cases hopen.symm.trans hending⟩
      refine ⟨fun later s' hlater => ?_, fun c hc hfair => hforsakes.exists_ending hs hc hfair⟩
      obtain ⟨call', ht', hforsaken⟩ := hforsakes.run hs hlater
      exact ⟨call', ht', hforsaken.ending⟩

/-- Three calls share a connection. The first has written its frame, the second has a number, the third not even that. -/
def halfway : List Move :=
  [.begin .rtt, .begin .rtt, .begin .rtt, .connect 0, .dialed 0 none, .connect 1, .connect 2, .register 0, .put 0,
    .flush 0, .register 1]

def stranded : Traffic := (Traffic.run (halfway ++ [.lose 0]) (.start "b:1")).getD (.start "b:1")

/-- The second call writes its frame after that, and hears that nobody will answer. -/
def strandedCourse : Course Traffic.step? :=
  .ofMoves stranded ([.put 1, .flush 1, .receive 1].getD · (.begin .rtt)) fun i =>
    match i with
    | 0 => rfl
    | 1 => rfl
    | 2 => rfl
    | _ + 3 => rfl

theorem halfway_told :
    (∃ (s : Traffic) (t : Nat) (call : Call), Traffic.run halfway (.start "b:1") = some s ∧ s.Few ∧
      s.calls[t]? = some call ∧ call.Waits 0 2) ∧
    (∃ (s : Traffic) (call : Call), stranded.register 2 = some s ∧ s.calls[2]? = some call ∧
      call.ending = some (.returned (.error (.lost .rtt)))) ∧
    ∃ (i : Nat) (call : Call), (strandedCourse.state i).calls[1]? = some call ∧ call.ending ≠ none := by
  obtain ⟨l, hrun, hfew, hlink, hnone⟩ :
      ∃ l, Traffic.run (halfway ++ [.lose 0]) (.start "b:1") = some stranded ∧ stranded.Few ∧
        stranded.line.links[0]? = some l ∧ l.waiting = none := ⟨_, rfl, by decide, rfl, rfl⟩
  obtain ⟨hlater, hends⟩ := (waiters_are_told hrun hfew hlink).2 hnone
  refine ⟨?_, ?_, ?_⟩
  · obtain ⟨s, l, table, hrun, hfew, hlink, htable, hmem⟩ :
        ∃ s l table, Traffic.run halfway (.start "b:1") = some s ∧ s.Few ∧ s.line.links[0]? = some l ∧
          l.waiting = some table ∧ 2 ∈ table.keys := ⟨_, _, _, rfl, by decide, rfl, rfl, by decide⟩
    obtain ⟨t, call, ht, hwaits⟩ := ((waiters_are_told hrun hfew hlink).1 table htable 2).1 hmem
    exact ⟨s, t, call, hrun, hfew, ht, hwaits⟩
  · obtain ⟨call, s, ht, hconnection, hrequest, hregister⟩ :
        ∃ call s, stranded.calls[2]? = some call ∧ call.connection = some 0 ∧ call.request = .rtt ∧
          stranded.register 2 = some s := ⟨_, _, rfl, rfl, rfl, rfl⟩
    obtain ⟨call', ht', hending⟩ := (hlater [] stranded rfl).2 2 call s ht hconnection hregister
    rw [hrequest] at hending
    exact ⟨s, call', hregister, ht', hending⟩
  · obtain ⟨call, ht, hconnection, hnumber, hopen, hmail⟩ :
        ∃ call, stranded.calls[1]? = some call ∧ call.connection = some 0 ∧ call.number = some 2 ∧
          call.ending = none ∧ call.mail = .lost := ⟨_, rfl, rfl, rfl, rfl, rfl⟩
    have hs : stranded.Sound := (Traffic.Sound.start "b:1").run hrun
    have hsound : (strandedCourse.state 3).Sound :=
      strandedCourse.always (p := Traffic.Sound) (i := 0) (fun s move s' hs hstep => hs.step hstep) hs (Nat.zero_le 3)
    obtain ⟨ended, hend, hended⟩ : ∃ ended, (strandedCourse.state 3).calls[1]? = some ended ∧ ended.ending ≠ none :=
      ⟨_, rfl, by simp⟩
    exact (hends 1 call 2 ht hconnection hnumber hopen (by simp [hmail])).2 strandedCourse rfl
      (.of_ending hsound hend hended)

end PeerMesh.Tcp
