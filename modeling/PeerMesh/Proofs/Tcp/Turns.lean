import PeerMesh.Proofs.Tcp.Sound

/-!
# What one move changes

A move changes at most one connection of the line, and of the calls only those that it concerns. What holds of every
run is read off from here, without another look at how a move is made.

* `Traffic.Step`, `Traffic.step_of_step?` : all that a move can be, with what it asks for;
* `Call.Acts`, `Call.Turn`, `Traffic.Sound.exists_turn` : what a call does, and what any move makes of a call;
* `Link.Turn`, `Line.Turn`, `Traffic.Sound.lineTurn` : what a move makes of who waits on a connection, and of the line;
* `Traffic.Step.dialing`, `Traffic.Step.grown` : when a dial begins and ends, and that the records of the connections
  only grow.
-/

namespace PeerMesh.Tcp

def Move.caller? : Move → Option Nat
  | .connect t | .dialed t _ | .register t | .put t | .flush t | .breakOff t _ | .receive t | .abandon t => some t
  | _ => none

def Move.isForeign : Move → Bool
  | .serve _ | .answer .. | .inject .. => true
  | _ => false

theorem Move.caller?_of_isForeign {move : Move} (h : move.isForeign = true) : move.caller? = none := by
  cases move <;> first | rfl | cases h

/-! ## All that a move can be -/

/-- A move that is possible, by what it comes to. -/
inductive Traffic.Step (s : Traffic) : Move → Traffic → Prop where
  | begin {request : Request} : Step s (.begin request) { s with calls := s.calls ++ [{ request }] }
  | refused {t : Nat} {call : Call} {e : DialError} (ht : s.calls[t]? = some call) (hopen : call.ending = none)
      (hconnection : call.connection = none) (hdialing : s.dialing = none) (hready : s.line.ready = .refused e) :
      Step s (.connect t) (s.conclude t call (.returned (.error (.dial e))))
  | connected {t : Nat} {call : Call} {link : Link} (ht : s.calls[t]? = some call) (hopen : call.ending = none)
      (hconnection : call.connection = none) (hdialing : s.dialing = none) (hready : s.line.ready = .connected link) :
      Step s (.connect t) { s with calls := s.calls.set t { call with connection := some s.line.ended.length } }
  | dials {t : Nat} {call : Call} (ht : s.calls[t]? = some call) (hopen : call.ending = none)
      (hconnection : call.connection = none) (hdialing : s.dialing = none) (hready : s.line.ready = .mustDial) :
      Step s (.connect t) { s with dialing := some t }
  | undialed {t : Nat} {call : Call} {e : DialError} (ht : s.calls[t]? = some call) (hopen : call.ending = none)
      (hconnection : call.connection = none) (hdialing : s.dialing = some t) :
      Step s (.dialed t (some e)) { s.conclude t call (.returned (.error (.dial e))) with dialing := none }
  | dialed {t : Nat} {call : Call} (ht : s.calls[t]? = some call) (hopen : call.ending = none)
      (hconnection : call.connection = none) (hdialing : s.dialing = some t) :
      Step s (.dialed t none)
        { s with
          line := s.line.opened
          connections := s.connections ++ [{}]
          dialing := none
          calls := s.calls.set t { call with connection := some s.connections.length } }
  | registered {t n : Nat} {call : Call} {l : Link} {c : Connection} (ht : s.calls[t]? = some call)
      (hopen : call.ending = none) (hconnection : call.connection = some n) (hnumber : call.number = none)
      (hlink : s.line.links[n]? = some l) (hc : s.connections[n]? = some c) :
      Step s (.register t)
        { s with
          line := s.line.setLink n (l.register ⟨t⟩).2.2
          connections := s.connections.set n { c with callers := c.callers ++ [t] }
          calls := s.calls.set t { call with
            number := some l.next
            ending := if l.alive then none else some (.returned (.error (.lost call.request.method))) } }
  | oversized {t n : Nat} {call : Call} {number : UInt64} {e : Wire.CodecError} (ht : s.calls[t]? = some call)
      (hopen : call.ending = none) (hconnection : call.connection = some n) (hnumber : call.number = some number)
      (hplace : call.place = none) (hsend : Wire.send (Wire.frame Wire.request) ⟨number, call.request⟩ = .error e) :
      Step s (.put t) (s.conclude t call (.returned (.error (.codec e))))
  | placed {t n : Nat} {call : Call} {number : UInt64} {c : Connection} (ht : s.calls[t]? = some call)
      (hopen : call.ending = none) (hconnection : call.connection = some n) (hnumber : call.number = some number)
      (hplace : call.place = none) (hc : s.connections[n]? = some c) :
      Step s (.put t)
        { s with
          connections := s.connections.set n { c with sent := c.sent ++ [(t, ⟨number, call.request⟩)] }
          calls := s.calls.set t { call with place := some c.sent.length } }
  | flushed {t : Nat} {call : Call} (ht : s.calls[t]? = some call) (hopen : call.ending = none)
      (hplace : call.place ≠ none) : Step s (.flush t) { s with calls := s.calls.set t { call with flushed := true } }
  | broken {t : Nat} {call : Call} {fault : IoFault} (ht : s.calls[t]? = some call) (hopen : call.ending = none)
      (hnumber : call.number ≠ none) :
      Step s (.breakOff t fault) (s.conclude t call (.returned (.error (.codec (.io fault)))))
  | heardLost {t : Nat} {call : Call} (ht : s.calls[t]? = some call) (hopen : call.ending = none)
      (hmail : call.mail = .lost) :
      Step s (.receive t) (s.conclude t call (.returned (.error (.lost call.request.method))))
  | heardAnswer {t p : Nat} {call : Call} {r : Response} (ht : s.calls[t]? = some call) (hopen : call.ending = none)
      (hmail : call.mail = .answer p r) :
      Step s (.receive t) (s.conclude t call (.returned (heard call.request.method (some r))))
  | abandoned {t : Nat} {call : Call} (ht : s.calls[t]? = some call) (hopen : call.ending = none) :
      Step s (.abandon t) { s.conclude t call .abandoned with dialing := s.dialing.filter (· ≠ t) }
  | arrivedUnheard {n : Nat} {l : Link} {c : Connection} {frame : Frame Response} (hlink : s.line.links[n]? = some l)
      (hc : s.connections[n]? = some c) (halive : l.alive = true) (hticket : l.ticket? frame.callId = none) :
      Step s (.arrive n)
        { s with
          line := s.line.setLink n (l.abandon frame.callId)
          connections := s.connections.set n { c with receivers := c.receivers ++ [none] } }
  | arrived {n : Nat} {l : Link} {c : Connection} {frame : Frame Response} {ticket : Ticket} {call : Call}
      (hlink : s.line.links[n]? = some l) (hc : s.connections[n]? = some c) (halive : l.alive = true)
      (hticket : l.ticket? frame.callId = some ticket) (ht : s.calls[ticket.number]? = some call) :
      Step s (.arrive n)
        { s with
          line := s.line.setLink n (l.abandon frame.callId)
          connections := s.connections.set n { c with receivers := c.receivers ++ [some ticket.number] }
          calls := s.calls.set ticket.number { call with mail := .answer c.receivers.length frame.body } }
  | lost {n : Nat} {l : Link} (hlink : s.line.links[n]? = some l) :
      Step s (.lose n) (s.tellLost (s.line.setLink n l.lose.2) l.lose.1)
  | shut (hclosed : s.line.closed = false) : Step s .shut { s with line := s.line.shut, closing := true }
  | tornDown (hclosing : s.closing = true) (hdialing : s.dialing = none) :
      Step s .tearDown { s.tellLost s.line.tearDown.2 s.line.tearDown.1 with closing := false }
  | otherEnd {move : Move} {n : Nat} {c c' : Connection} (hforeign : move.isForeign = true)
      (hc : s.connections[n]? = some c) (hle : c.Le c') :
      Step s move { s with connections := s.connections.set n c' }

namespace Traffic

variable {s s' : Traffic} {move : Move} {t n : Nat}

open Sound (open?_eq_some)

theorem step_of_connect (hstep : s.connect t = some s') : s.Step (.connect t) s' := by
  simp only [connect, Option.bind_eq_bind, Option.bind_eq_some_iff, open?_eq_some] at hstep
  obtain ⟨call, ⟨ht, hopen⟩, hstep⟩ := hstep
  split at hstep
  · cases hstep
  · rename_i hfree
    rw [not_or, Option.not_isSome_iff_eq_none, Option.not_isSome_iff_eq_none] at hfree
    split at hstep
    · rename_i hready
      cases hstep
      exact .refused ht hopen hfree.1 hfree.2 hready
    · rename_i hready
      cases hstep
      exact .connected ht hopen hfree.1 hfree.2 hready
    · rename_i hready
      cases hstep
      exact .dials ht hopen hfree.1 hfree.2 hready

theorem step_of_dialed {error : Option DialError} (hstep : s.dialed t error = some s') :
    s.Step (.dialed t error) s' := by
  simp only [dialed, Option.bind_eq_bind, Option.bind_eq_some_iff, open?_eq_some] at hstep
  obtain ⟨call, ⟨ht, hopen⟩, hstep⟩ := hstep
  split at hstep
  · cases hstep
  · rename_i hfree
    rw [not_or, Option.not_isSome_iff_eq_none, not_not] at hfree
    cases error with
    | some e =>
      cases hstep
      exact .undialed ht hopen hfree.1 hfree.2
    | none =>
      cases hstep
      exact .dialed ht hopen hfree.1 hfree.2

theorem step_of_register (hstep : s.register t = some s') : s.Step (.register t) s' := by
  simp only [register, Option.bind_eq_bind, Option.bind_eq_some_iff, open?_eq_some] at hstep
  obtain ⟨call, ⟨ht, hopen⟩, n, hconnection, l, hlink, c, hc, hstep⟩ := hstep
  split at hstep
  · cases hstep
  · rename_i hfree
    cases hstep
    exact .registered ht hopen hconnection (Option.not_isSome_iff_eq_none.1 hfree) hlink hc

theorem step_of_put (hstep : s.put t = some s') : s.Step (.put t) s' := by
  simp only [put, Option.bind_eq_bind, Option.bind_eq_some_iff, open?_eq_some] at hstep
  obtain ⟨call, ⟨ht, hopen⟩, n, hconnection, number, hnumber, c, hc, hstep⟩ := hstep
  split at hstep
  · cases hstep
  · rename_i hfree
    have hplace : call.place = none := Option.not_isSome_iff_eq_none.1 hfree
    split at hstep
    · rename_i hsend
      cases hstep
      exact .oversized ht hopen hconnection hnumber hplace hsend
    · cases hstep
      exact .placed ht hopen hconnection hnumber hplace hc

theorem step_of_flush (hstep : s.flush t = some s') : s.Step (.flush t) s' := by
  simp only [flush, Option.bind_eq_bind, Option.bind_eq_some_iff, open?_eq_some] at hstep
  obtain ⟨call, ⟨ht, hopen⟩, hstep⟩ := hstep
  split at hstep
  · cases hstep
  · rename_i hplace
    cases hstep
    exact .flushed ht hopen fun hnone => hplace (by rw [hnone]; rfl)

theorem step_of_breakOff {fault : IoFault} (hstep : s.breakOff t fault = some s') :
    s.Step (.breakOff t fault) s' := by
  simp only [breakOff, Option.bind_eq_bind, Option.bind_eq_some_iff, open?_eq_some] at hstep
  obtain ⟨call, ⟨ht, hopen⟩, hstep⟩ := hstep
  split at hstep
  · cases hstep
  · rename_i hfree
    cases hstep
    exact .broken ht hopen fun hnone => hfree (Or.inl (by rw [hnone]; rfl))

theorem step_of_receive (hstep : s.receive t = some s') : s.Step (.receive t) s' := by
  simp only [receive, Option.bind_eq_bind, Option.bind_eq_some_iff, open?_eq_some] at hstep
  obtain ⟨call, ⟨ht, hopen⟩, hstep⟩ := hstep
  split at hstep
  · split at hstep
    · cases hstep
    · rename_i hmail
      cases hstep
      exact .heardLost ht hopen hmail
    · rename_i hmail
      cases hstep
      exact .heardAnswer ht hopen hmail
  · cases hstep

theorem step_of_abandon (hstep : s.abandon t = some s') : s.Step (.abandon t) s' := by
  simp only [abandon, Option.bind_eq_bind, Option.bind_eq_some_iff, open?_eq_some, Option.some.injEq] at hstep
  obtain ⟨call, ⟨ht, hopen⟩, rfl⟩ := hstep
  exact .abandoned ht hopen

theorem step_of_arrive (hstep : s.arrive n = some s') : s.Step (.arrive n) s' := by
  simp only [arrive, Option.bind_eq_bind, Option.bind_eq_some_iff] at hstep
  obtain ⟨l, hlink, c, hc, frame, -, hstep⟩ := hstep
  split at hstep
  · rename_i halive
    rw [Link.deliver_eq] at hstep
    cases hticket : l.ticket? frame.callId with
    | none =>
      rw [hticket] at hstep
      cases hstep
      exact .arrivedUnheard hlink hc halive hticket
    | some ticket =>
      rw [hticket] at hstep
      obtain ⟨call, ht, hstep⟩ := Option.bind_eq_some_iff.1 hstep
      cases hstep
      exact .arrived hlink hc halive hticket ht
  · cases hstep

theorem step_of_lose (hstep : s.lose n = some s') : s.Step (.lose n) s' := by
  simp only [lose, Option.bind_eq_bind, Option.bind_eq_some_iff, Option.some.injEq] at hstep
  obtain ⟨l, hlink, rfl⟩ := hstep
  exact .lost hlink

theorem step_of_shut (hstep : s.shut = some s') : s.Step .shut s' := by
  unfold shut at hstep
  split at hstep
  · cases hstep
  · rename_i hopen
    cases hstep
    exact .shut (Bool.not_eq_true _ ▸ hopen)

theorem step_of_tearDown (hstep : s.tearDown = some s') : s.Step .tearDown s' := by
  unfold tearDown at hstep
  split at hstep
  · rename_i h
    cases hstep
    exact .tornDown h.1 (Option.isNone_iff_eq_none.1 h.2)
  · cases hstep

theorem step_of_serve (hstep : s.serve n = some s') : s.Step (.serve n) s' := by
  simp only [serve, Option.bind_eq_bind, Option.bind_eq_some_iff, Option.some.injEq] at hstep
  obtain ⟨c, hc, next, -, rfl⟩ := hstep
  exact .otherEnd rfl hc ⟨List.prefix_refl _, List.prefix_refl _, List.prefix_refl _, List.prefix_refl _⟩

theorem step_of_answer {k : Nat} {response : Response} (hstep : s.answer n k response = some s') :
    s.Step (.answer n k response) s' := by
  simp only [answer, Option.bind_eq_bind, Option.bind_eq_some_iff] at hstep
  obtain ⟨c, hc, job, -, hstep⟩ := hstep
  split at hstep
  · cases hstep
  · cases hstep
    exact .otherEnd rfl hc ⟨List.prefix_refl _, List.prefix_refl _, List.prefix_append _ _, List.prefix_refl _⟩

theorem step_of_inject {frame : Frame Response} (hstep : s.inject n frame = some s') :
    s.Step (.inject n frame) s' := by
  simp only [inject, Option.bind_eq_bind, Option.bind_eq_some_iff, Option.some.injEq] at hstep
  obtain ⟨c, hc, rfl⟩ := hstep
  exact .otherEnd rfl hc ⟨List.prefix_refl _, List.prefix_refl _, List.prefix_append _ _, List.prefix_refl _⟩

theorem step_of_step? (hstep : s.step? move = some s') : s.Step move s' := by
  cases move with
  | begin request =>
    cases hstep
    exact .begin
  | connect t => exact step_of_connect hstep
  | dialed t error => exact step_of_dialed hstep
  | register t => exact step_of_register hstep
  | put t => exact step_of_put hstep
  | flush t => exact step_of_flush hstep
  | breakOff t fault => exact step_of_breakOff hstep
  | receive t => exact step_of_receive hstep
  | abandon t => exact step_of_abandon hstep
  | arrive n => exact step_of_arrive hstep
  | lose n => exact step_of_lose hstep
  | shut => exact step_of_shut hstep
  | tearDown => exact step_of_tearDown hstep
  | serve n => exact step_of_serve hstep
  | answer n k response => exact step_of_answer hstep
  | inject n frame => exact step_of_inject hstep

end Traffic

/-! ## Calls -/

inductive Call.Acts (s : Traffic) (t : Nat) (call : Call) : Move → Call → Prop where
  | refused {e : DialError} (hconnection : call.connection = none) (hdialing : s.dialing = none)
      (hready : s.line.ready = .refused e) :
      Acts s t call (.connect t) { call with ending := some (.returned (.error (.dial e))) }
  | connected {link : Link} (hconnection : call.connection = none) (hdialing : s.dialing = none)
      (hready : s.line.ready = .connected link) :
      Acts s t call (.connect t) { call with connection := some s.line.ended.length }
  | dials (hconnection : call.connection = none) (hdialing : s.dialing = none) (hready : s.line.ready = .mustDial) :
      Acts s t call (.connect t) call
  | undialed {e : DialError} (hconnection : call.connection = none) (hdialing : s.dialing = some t) :
      Acts s t call (.dialed t (some e)) { call with ending := some (.returned (.error (.dial e))) }
  | dialed (hconnection : call.connection = none) (hdialing : s.dialing = some t) :
      Acts s t call (.dialed t none) { call with connection := some s.connections.length }
  | registered {n : Nat} {l : Link} (hconnection : call.connection = some n) (hnumber : call.number = none)
      (hlink : s.line.links[n]? = some l) :
      Acts s t call (.register t)
        { call with
          number := some l.next
          ending := if l.alive then none else some (.returned (.error (.lost call.request.method))) }
  | placed {number : UInt64} {q : Nat} (hnumber : call.number = some number) (hplace : call.place = none) :
      Acts s t call (.put t) { call with place := some q }
  | oversized {number : UInt64} {e : Wire.CodecError} (hnumber : call.number = some number) (hplace : call.place = none)
      (hsend : Wire.send (Wire.frame Wire.request) ⟨number, call.request⟩ = .error e) :
      Acts s t call (.put t) { call with ending := some (.returned (.error (.codec e))) }
  | flushed (hplace : call.place ≠ none) : Acts s t call (.flush t) { call with flushed := true }
  | broken {fault : IoFault} (hnumber : call.number ≠ none) :
      Acts s t call (.breakOff t fault) { call with ending := some (.returned (.error (.codec (.io fault)))) }
  | heardLost (hmail : call.mail = .lost) :
      Acts s t call (.receive t) { call with ending := some (.returned (.error (.lost call.request.method))) }
  | heardAnswer {p : Nat} {r : Response} (hmail : call.mail = .answer p r) :
      Acts s t call (.receive t) { call with ending := some (.returned (heard call.request.method (some r))) }
  | abandoned : Acts s t call (.abandon t) { call with ending := some .abandoned }

inductive Call.Turn (s : Traffic) (t : Nat) (call : Call) : Move → Call → Prop where
  | passed {move : Move} (hcaller : move.caller? ≠ some t) : Turn s t call move call
  | lost {move : Move} (hcaller : move.caller? = none) (hmail : call.mail = .empty) :
      Turn s t call move { call with mail := .lost }
  | answered {n p : Nat} {number : UInt64} {l : Link} {r : Response} (hwaits : call.Waits n number)
      (hlink : s.line.links[n]? = some l) (halive : l.alive = true) :
      Turn s t call (.arrive n) { call with mail := .answer p r }
  | acted {move : Move} {call' : Call} (hopen : call.ending = none) (hacts : Acts s t call move call') :
      Turn s t call move call'

namespace Traffic

variable {s s' : Traffic} {move : Move} {t : Nat} {call : Call}

theorem exists_turn_set {u : Nat} {callu callu' : Call} (hu : s.calls[u]? = some callu) (hopen : callu.ending = none)
    (hcaller : move.caller? = some u) (hacts : callu.Acts s u move callu') (ht : s.calls[t]? = some call) :
    ∃ call', (s.calls.set u callu')[t]? = some call' ∧ call.Turn s t move call' := by
  rw [getElem?_set_of_some hu]
  split
  · rename_i hut
    subst hut
    cases hu.symm.trans ht
    exact ⟨callu', rfl, .acted hopen hacts⟩
  · rename_i hut
    exact ⟨call, ht, .passed fun h => hut (Option.some.inj (hcaller.symm.trans h))⟩

theorem Sound.exists_turn_tellLost {n : Nat} {line : Line} {link : Link} (h : s.Sound)
    (hlink : s.line.links[n]? = some link) (hcaller : move.caller? = none) (ht : s.calls[t]? = some call) :
    ∃ call', (s.tellLost line link.lose.1).calls[t]? = some call' ∧ call.Turn s t move call' := by
  rw [Sound.getElem?_tellLost, ht]
  refine ⟨_, rfl, ?_⟩
  split
  · rename_i hloser
    obtain ⟨number, hticket⟩ := (link.mem_lose ⟨t⟩).1 hloser
    obtain ⟨c, hc⟩ := h.exists_connection hlink
    obtain ⟨d, hd, hwaits⟩ := (h.links n link c hlink hc).waiting number ⟨t⟩ hticket
    cases ht.symm.trans hd
    exact .lost hcaller hwaits.mail
  · exact .passed (by rw [hcaller]; simp)

theorem Sound.exists_turn (h : s.Sound) (hstep : s.Step move s') (ht : s.calls[t]? = some call) :
    ∃ call', s'.calls[t]? = some call' ∧ call.Turn s t move call' := by
  cases hstep with
  | begin => exact ⟨call, getElem?_of_prefix (List.prefix_append _ _) ht, .passed (by simp [Move.caller?])⟩
  | refused hu hopen hconnection hdialing hready =>
    exact exists_turn_set hu hopen rfl (.refused hconnection hdialing hready) ht
  | connected hu hopen hconnection hdialing hready =>
    exact exists_turn_set hu hopen rfl (.connected hconnection hdialing hready) ht
  | dials hu hopen hconnection hdialing hready =>
    obtain ⟨call', ht', hturn⟩ := exists_turn_set hu hopen rfl (.dials hconnection hdialing hready) ht
    rw [set_of_some_self hu] at ht'
    exact ⟨call', ht', hturn⟩
  | undialed hu hopen hconnection hdialing => exact exists_turn_set hu hopen rfl (.undialed hconnection hdialing) ht
  | dialed hu hopen hconnection hdialing => exact exists_turn_set hu hopen rfl (.dialed hconnection hdialing) ht
  | registered hu hopen hconnection hnumber hlink _ =>
    exact exists_turn_set hu hopen rfl (.registered hconnection hnumber hlink) ht
  | oversized hu hopen _ hnumber hplace hsend =>
    exact exists_turn_set hu hopen rfl (.oversized hnumber hplace hsend) ht
  | placed hu hopen _ hnumber hplace _ => exact exists_turn_set hu hopen rfl (.placed hnumber hplace) ht
  | flushed hu hopen hplace => exact exists_turn_set hu hopen rfl (.flushed hplace) ht
  | broken hu hopen hnumber => exact exists_turn_set hu hopen rfl (.broken hnumber) ht
  | heardLost hu hopen hmail => exact exists_turn_set hu hopen rfl (.heardLost hmail) ht
  | heardAnswer hu hopen hmail => exact exists_turn_set hu hopen rfl (.heardAnswer hmail) ht
  | abandoned hu hopen => exact exists_turn_set hu hopen rfl .abandoned ht
  | arrivedUnheard => exact ⟨call, ht, .passed (by simp [Move.caller?])⟩
  | @arrived n l c frame ticket callu hlink hc halive hticket hu =>
    show ∃ call', (s.calls.set ticket.number _)[t]? = some call' ∧ _
    rw [getElem?_set_of_some hu]
    split
    · rename_i htu
      subst htu
      cases hu.symm.trans ht
      obtain ⟨d, hd, hwaits⟩ := (h.links n l c hlink hc).waiting frame.callId ticket hticket
      cases ht.symm.trans hd
      exact ⟨_, rfl, .answered hwaits hlink halive⟩
    · exact ⟨call, ht, .passed (by simp [Move.caller?])⟩
  | lost hlink => exact h.exists_turn_tellLost hlink rfl ht
  | shut => exact ⟨call, ht, .passed (by simp [Move.caller?])⟩
  | tornDown =>
    cases hcurrent : s.line.current with
    | none =>
      refine ⟨call, ?_, .passed (by simp [Move.caller?])⟩
      show (s.tellLost s.line.tearDown.2 s.line.tearDown.1).calls[t]? = _
      rw [Sound.getElem?_tellLost, ht]
      simp [Line.tearDown, hcurrent]
    | some link =>
      show ∃ call', (s.tellLost s.line.tearDown.2 s.line.tearDown.1).calls[t]? = some call' ∧ _
      rw [(Line.links_tearDown hcurrent).1]
      exact h.exists_turn_tellLost (Line.links_current hcurrent) rfl ht
  | otherEnd hforeign => exact ⟨call, ht, .passed (by rw [Move.caller?_of_isForeign hforeign]; simp)⟩

theorem Step.exists_call {t : Nat} {call' : Call} (h : s.Step move s') (ht' : s'.calls[t]? = some call') :
    (∃ call, s.calls[t]? = some call) ∨ call' = { request := call'.request } := by
  have hlength : s'.calls.length = s.calls.length → ∃ call, s.calls[t]? = some call := by
    intro hlength
    have hlt : t < s.calls.length := hlength ▸ (List.getElem?_eq_some_iff.1 ht').1
    exact ⟨_, List.getElem?_eq_getElem hlt⟩
  cases h with
  | begin =>
    rcases getElem?_concat_cases ht' with hold | ⟨-, rfl⟩
    · exact Or.inl ⟨call', hold⟩
    · exact Or.inr rfl
  | _ => exact Or.inl (hlength (by simp [conclude, tellLost]))

theorem Sound.exists_turn_before {call' : Call} (h : s.Sound) (hstep : s.Step move s')
    (ht' : s'.calls[t]? = some call') :
    (∃ call, s.calls[t]? = some call ∧ call.Turn s t move call') ∨ call' = { request := call'.request } := by
  rcases hstep.exists_call ht' with ⟨call, ht⟩ | hfresh
  · obtain ⟨call₁, ht₁, hturn⟩ := h.exists_turn hstep ht
    cases ht'.symm.trans ht₁
    exact Or.inl ⟨call, ht, hturn⟩
  · exact Or.inr hfresh

end Traffic

/-! ## The line -/

inductive Link.Turn (s s' : Traffic) (n : Nat) (l : Link) : Link → Prop where
  | still : Turn s s' n l l
  | registered {t : Nat} {c c' : Connection} (hc : s.connections[n]? = some c) (hc' : s'.connections[n]? = some c')
      (hcallers : c'.callers = c.callers ++ [t]) : Turn s s' n l (l.register ⟨t⟩).2.2
  /-- If anybody waited under the number, a call that has it waits no more. -/
  | dropped {number : UInt64} (hnobody : ∀ u, l.ticket? number = some u → ∃ (t : Nat) (call : Call),
      s.calls[t]? = some call ∧ call.connection = some n ∧ call.number = some number ∧
        ∀ call', s'.calls[t]? = some call' → ¬ call'.Waits n number) : Turn s s' n l (l.abandon number)
  | lost (hnobody : ∀ number u, l.ticket? number = some u →
      ∀ call', s'.calls[u.number]? = some call' → ¬ call'.Waits n number) : Turn s s' n l l.lose.2

inductive Line.Turn (s s' : Traffic) : Line → Prop where
  | still : Turn s s' s.line
  | relinked {n : Nat} {l l' : Link} (hlink : s.line.links[n]? = some l) (hturn : Link.Turn s s' n l l') :
      Turn s s' (s.line.setLink n l')
  | opened {t : Nat} (hdialing : s.dialing = some t) (hidle : s'.dialing = none) : Turn s s' s.line.opened
  | shut : Turn s s' s.line.shut
  | tornDown {l : Link} (hcurrent : s.line.current = some l)
      (hturn : Link.Turn s s' s.line.ended.length l l.lose.2) : Turn s s' s.line.tearDown.2

namespace Traffic

variable {s s' : Traffic} {move : Move}

theorem lineTurn_conclude {t : Nat} {call : Call} {ending : Ending} (ht : s.calls[t]? = some call)
    (hcalls : s'.calls = (s.conclude t call ending).calls) : Line.Turn s s' (s.conclude t call ending).line := by
  unfold conclude
  match hconnection : call.connection, hnumber : call.number with
  | none, _ => exact .still
  | some n, none => exact .still
  | some n, some number =>
    cases hlink : s.line.links[n]? with
    | none =>
      simp only [hlink]
      exact .still
    | some link =>
      simp only [hlink]
      refine .relinked hlink (.dropped fun u _ => ⟨t, call, ht, hconnection, hnumber, fun call' ht' hwaits => ?_⟩)
      rw [hcalls] at ht'
      cases (getElem?_set_of_some_self ht _).symm.trans ht'
      cases hwaits.ending

theorem linkTurn_lose {n : Nat} {line : Line} {l : Link} (hcalls : s'.calls = (s.tellLost line l.lose.1).calls) :
    Link.Turn s s' n l l.lose.2 := by
  refine .lost fun number u hticket call' ht' hwaits => ?_
  have hloser : ⟨u.number⟩ ∈ l.lose.1 := (l.mem_lose _).2 ⟨number, hticket⟩
  rw [hcalls, Sound.getElem?_tellLost] at ht'
  obtain ⟨call, -, rfl⟩ := Option.map_eq_some_iff.1 ht'
  rw [if_pos hloser] at hwaits
  cases hwaits.mail

theorem Sound.lineTurn (h : s.Sound) (hstep : s.Step move s') : Line.Turn s s' s'.line := by
  cases hstep with
  | begin => exact .still
  | refused ht => exact lineTurn_conclude ht rfl
  | connected => exact .still
  | dials => exact .still
  | undialed ht => exact lineTurn_conclude ht rfl
  | dialed _ _ _ hdialing => exact .opened hdialing rfl
  | registered _ _ _ _ hlink hc => exact .relinked hlink (.registered hc (getElem?_set_of_some_self hc _) rfl)
  | oversized ht => exact lineTurn_conclude ht rfl
  | placed => exact .still
  | flushed => exact .still
  | broken ht => exact lineTurn_conclude ht rfl
  | heardLost ht => exact lineTurn_conclude ht rfl
  | heardAnswer ht => exact lineTurn_conclude ht rfl
  | abandoned ht => exact lineTurn_conclude ht rfl
  | arrivedUnheard hlink _ _ hticket =>
    refine .relinked hlink (.dropped fun u hu => ?_)
    cases hticket.symm.trans hu
  | @arrived n l c frame ticket call hlink hc _ hticket ht =>
    obtain ⟨d, hd, hwaits⟩ := (h.links n l c hlink hc).waiting frame.callId ticket hticket
    cases ht.symm.trans hd
    refine .relinked hlink (.dropped fun u _ =>
      ⟨ticket.number, call, ht, hwaits.connection, hwaits.number, fun call' ht' hwaits' => ?_⟩)
    cases (getElem?_set_of_some_self ht _).symm.trans ht'
    cases hwaits'.mail
  | lost hlink => exact .relinked hlink (linkTurn_lose rfl)
  | shut => exact .shut
  | tornDown =>
    cases hcurrent : s.line.current with
    | none =>
      have hstill : s.line.tearDown.2 = s.line := by
        unfold Line.tearDown
        rw [hcurrent]
      show Line.Turn s _ s.line.tearDown.2
      rw [hstill]
      exact .still
    | some l =>
      have hlosers : s.line.tearDown.1 = l.lose.1 := (Line.links_tearDown hcurrent).1
      exact .tornDown hcurrent (linkTurn_lose (congrArg (fun losers => (s.tellLost s.line.tearDown.2 losers).calls) hlosers))
  | otherEnd => exact .still

end Traffic

theorem Line.Turn.exists_link {s s' : Traffic} {line : Line} {n : Nat} {l : Link} (h : Line.Turn s s' line)
    (hlink : s.line.links[n]? = some l) : ∃ l', line.links[n]? = some l' ∧ Link.Turn s s' n l l' := by
  have hset : ∀ {m : Nat} {k k' : Link}, s.line.links[m]? = some k → Link.Turn s s' m k k' →
      ∃ l', (s.line.links.set m k')[n]? = some l' ∧ Link.Turn s s' n l l' := by
    intro m k k' hk hturn
    rw [getElem?_set_of_some hk]
    split
    · rename_i hmn
      subst hmn
      cases hk.symm.trans hlink
      exact ⟨k', rfl, hturn⟩
    · exact ⟨l, hlink, .still⟩
  cases h with
  | still => exact ⟨l, hlink, .still⟩
  | relinked hk hturn =>
    rw [Line.links_setLink]
    exact hset hk hturn
  | opened =>
    rw [Line.links_opened]
    exact ⟨l, getElem?_of_prefix (List.prefix_append _ _) hlink, .still⟩
  | shut => exact ⟨l, hlink, .still⟩
  | tornDown hcurrent hturn =>
    rw [(Line.links_tearDown hcurrent).2]
    exact hset (Line.links_current hcurrent) hturn

theorem Link.Turn.alive {s s' : Traffic} {n : Nat} {l l' : Link} (h : Link.Turn s s' n l l') (halive : l'.alive = true) :
    l.alive = true := by
  cases h with
  | still => exact halive
  | registered =>
    unfold Link.alive Link.register at halive
    rw [Option.isSome_map] at halive
    exact halive
  | dropped =>
    unfold Link.alive Link.abandon at halive
    rw [Option.isSome_map] at halive
    exact halive
  | lost => cases halive

/-! ## Dials and records -/

/-- Who dials after a move has dialed before, and this was not the end of that, or has just set out to. -/
theorem Traffic.Step.dialing {s s' : Traffic} {move : Move} {t : Nat} (h : s.Step move s') (ht : s'.dialing = some t) :
    (s.dialing = some t ∧ move ≠ .abandon t ∧ ∀ error, move ≠ .dialed t error) ∨
      ∃ call, move = .connect t ∧ s.calls[t]? = some call ∧ call.ending = none ∧ call.connection = none ∧
        s.dialing = none ∧ s.line.ready = .mustDial ∧ s' = { s with dialing := some t } := by
  cases h with
  | dials hc hopen hconnection hdialing hready =>
    cases ht
    exact Or.inr ⟨_, rfl, hc, hopen, hconnection, hdialing, hready, rfl⟩
  | undialed => cases ht
  | dialed => cases ht
  | abandoned =>
    obtain ⟨hdialing, hne⟩ := Option.filter_eq_some_iff.1 ht
    refine Or.inl ⟨hdialing, ?_, by simp⟩
    rintro ⟨⟩
    simp at hne
  | otherEnd hforeign =>
    refine Or.inl ⟨ht, ?_, fun error => ?_⟩ <;> rintro rfl <;> cases hforeign
  | _ => exact Or.inl ⟨ht, by simp, by simp⟩

theorem Traffic.Step.grown {s s' : Traffic} {move : Move} (h : s.Step move s') :
    Grown s.connections s'.connections := by
  cases h with
  | dialed => exact fun n c hc => ⟨c, getElem?_of_prefix (List.prefix_append _ _) hc, .refl c⟩
  | registered _ _ _ _ _ hc =>
    exact Grown.set hc ⟨List.prefix_append _ _, List.prefix_refl _, List.prefix_refl _, List.prefix_refl _⟩
  | placed _ _ _ _ _ hc =>
    exact Grown.set hc ⟨List.prefix_refl _, List.prefix_append _ _, List.prefix_refl _, List.prefix_refl _⟩
  | arrivedUnheard _ hc =>
    exact Grown.set hc ⟨List.prefix_refl _, List.prefix_refl _, List.prefix_refl _, List.prefix_append _ _⟩
  | arrived _ hc =>
    exact Grown.set hc ⟨List.prefix_refl _, List.prefix_refl _, List.prefix_refl _, List.prefix_append _ _⟩
  | otherEnd _ hc hle => exact Grown.set hc hle
  | _ => exact Grown.refl _

end PeerMesh.Tcp
