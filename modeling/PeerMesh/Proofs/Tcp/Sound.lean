import PeerMesh.Proofs.Lists
import PeerMesh.Proofs.Tcp.Traffic

/-!
# What the moves on a channel preserve

However its calls, its connections and the other end take turns, a channel keeps straight who waits for what.

* `Call.Sound`, `Connection.Sound`, `Link.Sound`, `Traffic.Sound` : what holds of every call, of every connection, of
  who waits on it, and of all of them together;
* `Traffic.Sound.of_change` : it is enough to look at what a move changes;
* `Traffic.Sound.step`, `Traffic.Sound.run` : what one move preserves, and so any run.
-/

namespace PeerMesh.Tcp

/-- The result tells of an answer: what it was, or that the other side failed. -/
def Answered (result : Except CallError Response) : Prop :=
  (∃ response, result = .ok response) ∨ ∃ method text, result = .error (.remote method text)

theorem not_answered_error {e : CallError} (he : ∀ method text, e ≠ .remote method text) : ¬ Answered (.error e) := by
  rintro (⟨response, h⟩ | ⟨method, text, h⟩)
  · cases h
  · exact he method text (Except.error.inj h)

namespace Call

structure Waits (call : Call) (n : Nat) (number : UInt64) : Prop where
  connection : call.connection = some n
  number : call.number = some number
  mail : call.mail = .empty
  ending : call.ending = none

structure Sound (connections : List Connection) (t : Nat) (call : Call) : Prop where
  numbered : ∀ number, call.number = some number → ∃ n c k, call.connection = some n ∧ connections[n]? = some c ∧
    c.callers[k]? = some t ∧ number = UInt64.ofNat (k + 1)
  placed : ∀ q, call.place = some q → ∃ n number c, call.connection = some n ∧ call.number = some number ∧
    connections[n]? = some c ∧ c.sent[q]? = some (t, ⟨number, call.request⟩)
  told : call.mail ≠ .empty → call.number ≠ none
  mailed : ∀ p r, call.mail = .answer p r → ∃ n number c, call.connection = some n ∧ call.number = some number ∧
    connections[n]? = some c ∧ c.receivers[p]? = some (some t) ∧ c.replies[p]? = some ⟨number, r⟩
  flushed : call.flushed = true → call.place ≠ none
  returned : ∀ result, call.ending = some (.returned result) → Answered result →
    ∃ p r, call.mail = .answer p r ∧ call.place ≠ none ∧ result = heard call.request.method (some r)

end Call

namespace Connection

structure Le (c c' : Connection) : Prop where
  callers : c.callers <+: c'.callers
  sent : c.sent <+: c'.sent
  replies : c.replies <+: c'.replies
  receivers : c.receivers <+: c'.receivers

theorem Le.refl (c : Connection) : c.Le c where
  callers := List.prefix_refl _
  sent := List.prefix_refl _
  replies := List.prefix_refl _
  receivers := List.prefix_refl _

/-- Frames come from calls, the server reads them in order, and what it writes is what its handler answered. -/
structure Sound (calls : List Call) (n : Nat) (c : Connection) : Prop where
  sent : ∀ (q t : Nat) (frame : Frame Request), c.sent[q]? = some (t, frame) →
    ∃ call : Call, calls[t]? = some call ∧ call.connection = some n ∧ call.number = some frame.callId ∧
      call.place = some q ∧ call.request = frame.body
  jobs : c.jobs.map Job.frame = (c.sent.map Prod.snd).take c.jobs.length
  replies : c.foreign = false → ∀ reply ∈ c.replies, ∃ job ∈ c.jobs,
    job.frame.callId = reply.callId ∧ job.answer = some reply.body

end Connection

/-- Who waits on the connection has that number there, and the next number is the first that nobody has. -/
structure Link.Sound (calls : List Call) (callers : List Nat) (n : Nat) (l : Link) : Prop where
  next : l.next = UInt64.ofNat (callers.length + 1)
  waiting : ∀ (number : UInt64) (t : Ticket), l.ticket? number = some t →
    ∃ call : Call, calls[t.number]? = some call ∧ call.Waits n number

structure Traffic.Sound (s : Traffic) : Prop where
  calls : ∀ (t : Nat) (call : Call), s.calls[t]? = some call → call.Sound s.connections t
  connections : ∀ (n : Nat) (c : Connection), s.connections[n]? = some c → c.Sound s.calls n
  length : s.line.links.length = s.connections.length
  links : ∀ (n : Nat) (l : Link) (c : Connection), s.line.links[n]? = some l → s.connections[n]? = some c →
    l.Sound s.calls c.callers n

/-! ## What stays -/

def Grown (connections connections' : List Connection) : Prop :=
  ∀ (n : Nat) (c : Connection), connections[n]? = some c → ∃ c' : Connection, connections'[n]? = some c' ∧ c.Le c'

theorem Grown.refl (connections : List Connection) : Grown connections connections := fun _ c h => ⟨c, h, .refl c⟩

theorem Grown.set {connections : List Connection} {n : Nat} {c c' : Connection} (hn : connections[n]? = some c)
    (h : c.Le c') : Grown connections (connections.set n c') := by
  intro m d hm
  rw [getElem?_set_of_some hn]
  split
  · rename_i hnm
    subst hnm
    cases hn.symm.trans hm
    exact ⟨c', rfl, h⟩
  · exact ⟨d, hm, .refl d⟩

def Kept (calls calls' : List Call) : Prop :=
  ∀ (t : Nat) (call : Call), calls[t]? = some call → call.place ≠ none →
    ∃ call' : Call, calls'[t]? = some call' ∧ call'.connection = call.connection ∧ call'.number = call.number ∧
      call'.place = call.place ∧ call'.request = call.request

theorem Kept.refl (calls : List Call) : Kept calls calls := fun _ call h _ => ⟨call, h, rfl, rfl, rfl, rfl⟩

theorem Kept.set {calls : List Call} {t : Nat} {call call' : Call} (ht : calls[t]? = some call)
    (h : call.place ≠ none → call'.connection = call.connection ∧ call'.number = call.number ∧
      call'.place = call.place ∧ call'.request = call.request) : Kept calls (calls.set t call') := by
  intro u d hu hplace
  rw [getElem?_set_of_some ht]
  split
  · rename_i htu
    subst htu
    cases ht.symm.trans hu
    exact ⟨call', rfl, h hplace⟩
  · exact ⟨d, hu, rfl, rfl, rfl, rfl⟩

theorem Call.Waits.getElem?_set {calls : List Call} {t u n : Nat} {number : UInt64} {call d : Call}
    (hwaits : d.Waits n number) (hu : calls[u]? = some d) (ht : calls[t]? = some call) (hnot : ¬ call.Waits n number)
    (call' : Call) : (calls.set t call')[u]? = some d := by
  rw [getElem?_set_of_some ht, if_neg, hu]
  rintro rfl
  cases ht.symm.trans hu
  exact hnot hwaits

theorem Call.Sound.mono {connections connections' : List Connection} {t : Nat} {call : Call}
    (h : call.Sound connections t) (hgrown : Grown connections connections') : call.Sound connections' t where
  numbered number hnumber := by
    obtain ⟨n, c, k, hn, hc, hk, heq⟩ := h.numbered number hnumber
    obtain ⟨c', hc', hle⟩ := hgrown n c hc
    exact ⟨n, c', k, hn, hc', getElem?_of_prefix hle.callers hk, heq⟩
  placed q hq := by
    obtain ⟨n, number, c, hn, hnumber, hc, hsent⟩ := h.placed q hq
    obtain ⟨c', hc', hle⟩ := hgrown n c hc
    exact ⟨n, number, c', hn, hnumber, hc', getElem?_of_prefix hle.sent hsent⟩
  told := h.told
  mailed p r hp := by
    obtain ⟨n, number, c, hn, hnumber, hc, hreceiver, hreply⟩ := h.mailed p r hp
    obtain ⟨c', hc', hle⟩ := hgrown n c hc
    exact ⟨n, number, c', hn, hnumber, hc', getElem?_of_prefix hle.receivers hreceiver,
      getElem?_of_prefix hle.replies hreply⟩
  flushed := h.flushed
  returned := h.returned

theorem Connection.Sound.mono {calls calls' : List Call} {n : Nat} {c : Connection} (h : c.Sound calls n)
    (hkept : Kept calls calls') : c.Sound calls' n where
  sent q t frame hq := by
    obtain ⟨call, hcall, hn, hnumber, hplace, hrequest⟩ := h.sent q t frame hq
    obtain ⟨call', hcall', hn', hnumber', hplace', hrequest'⟩ := hkept t call hcall (by rw [hplace]; simp)
    exact ⟨call', hcall', hn'.trans hn, hnumber'.trans hnumber, hplace'.trans hplace, hrequest'.trans hrequest⟩
  jobs := h.jobs
  replies := h.replies

theorem Connection.Sound.length_jobs_le {calls : List Call} {n : Nat} {c : Connection} (h : c.Sound calls n) :
    c.jobs.length ≤ c.sent.length := by
  have hjobs := congrArg List.length h.jobs
  rw [List.length_map, List.length_take, List.length_map] at hjobs
  omega

/-- Nobody new waits, and all who do are still waiting. -/
theorem Link.Sound.mono {calls calls' : List Call} {callers : List Nat} {n : Nat} {l l' : Link}
    (h : l.Sound calls callers n) (hnext : l'.next = l.next)
    (hticket : ∀ (number : UInt64) (t : Ticket), l'.ticket? number = some t → l.ticket? number = some t)
    (hcalls : ∀ (number : UInt64) (t : Ticket) (call : Call), l'.ticket? number = some t →
      calls[t.number]? = some call → call.Waits n number →
      ∃ call' : Call, calls'[t.number]? = some call' ∧ call'.Waits n number) : l'.Sound calls' callers n where
  next := hnext.trans h.next
  waiting number t ht := by
    obtain ⟨call, hcall, hwaits⟩ := h.waiting number t (hticket number t ht)
    exact hcalls number t call ht hcall hwaits

/-- One call changes, and if it waits still, it is as it was. -/
theorem Link.Sound.set {calls : List Call} {callers : List Nat} {t n : Nat} {call call' : Call} {l l' : Link}
    (h : l.Sound calls callers n) (ht : calls[t]? = some call) (hnext : l'.next = l.next)
    (hticket : ∀ (number : UInt64) (u : Ticket), l'.ticket? number = some u → l.ticket? number = some u)
    (hwaits : ∀ (number : UInt64) (u : Ticket), l'.ticket? number = some u → call.Waits n number →
      call'.Waits n number) : l'.Sound (calls.set t call') callers n := by
  refine h.mono hnext hticket fun number u d hu hd hwaiting => ?_
  rw [getElem?_set_of_some ht]
  split
  · rename_i htu
    rw [htu] at ht
    cases ht.symm.trans hd
    exact ⟨call', rfl, hwaits number u hu hwaiting⟩
  · exact ⟨d, hd, hwaiting⟩

namespace Traffic.Sound

variable {s s' : Traffic}

theorem exists_link (h : s.Sound) {n : Nat} {c : Connection} (hc : s.connections[n]? = some c) :
    ∃ l, s.line.links[n]? = some l := by
  have hlt : n < s.line.links.length := h.length ▸ (List.getElem?_eq_some_iff.1 hc).1
  exact ⟨_, List.getElem?_eq_getElem hlt⟩

theorem exists_connection (h : s.Sound) {n : Nat} {l : Link} (hl : s.line.links[n]? = some l) :
    ∃ c, s.connections[n]? = some c := by
  have hlt : n < s.connections.length := h.length ▸ (List.getElem?_eq_some_iff.1 hl).1
  exact ⟨_, List.getElem?_eq_getElem hlt⟩

theorem of_change (h : s.Sound) (hlength : s'.line.links.length = s'.connections.length)
    (hgrown : Grown s.connections s'.connections) (hkept : Kept s.calls s'.calls)
    (hcalls : ∀ (t : Nat) (call : Call), s'.calls[t]? = some call →
      s.calls[t]? = some call ∨ call.Sound s'.connections t)
    (hconnections : ∀ (n : Nat) (c : Connection), s'.connections[n]? = some c →
      s.connections[n]? = some c ∨ c.Sound s'.calls n)
    (hlinks : ∀ (n : Nat) (l : Link) (c : Connection), s'.line.links[n]? = some l → s'.connections[n]? = some c →
      l.Sound s'.calls c.callers n) : s'.Sound where
  calls t call ht := by
    rcases hcalls t call ht with hold | hnew
    · exact (h.calls t call hold).mono hgrown
    · exact hnew
  connections n c hn := by
    rcases hconnections n c hn with hold | hnew
    · exact (h.connections n c hold).mono hkept
    · exact hnew
  length := hlength
  links := hlinks

theorem of_call (h : s.Sound) {t : Nat} {call call' : Call} (ht : s.calls[t]? = some call)
    (hlinks : s'.line.links = s.line.links) (hconnections : s'.connections = s.connections)
    (hcalls : s'.calls = s.calls.set t call') (hcall : call'.Sound s.connections t)
    (hkept : Kept s.calls (s.calls.set t call'))
    (hwaits : ∀ n number, call.Waits n number → call'.Waits n number) : s'.Sound := by
  refine h.of_change ?_ ?_ ?_ ?_ ?_ ?_
  · rw [hlinks, hconnections, h.length]
  · rw [hconnections]
    exact Grown.refl _
  · rw [hcalls]
    exact hkept
  · intro u d hu
    rw [hcalls] at hu
    rcases getElem?_set_cases ht hu with ⟨rfl, rfl⟩ | ⟨-, hold⟩
    · rw [hconnections]
      exact Or.inr hcall
    · exact Or.inl hold
  · intro n c hc
    rw [hconnections] at hc
    exact Or.inl hc
  · intro n l c hl hc
    rw [hlinks] at hl
    rw [hconnections] at hc
    rw [hcalls]
    exact (h.links n l c hl hc).set ht rfl (fun _ _ hticket => hticket) fun number _ _ => hwaits n number

theorem of_link (h : s.Sound) {n : Nat} {l l' : Link} (hl : s.line.links[n]? = some l)
    (hlinks : s'.line.links = s.line.links.set n l') (hconnections : s'.connections = s.connections)
    (hcalls : s'.calls = s.calls) (hnext : l'.next = l.next)
    (hticket : ∀ (number : UInt64) (t : Ticket), l'.ticket? number = some t → l.ticket? number = some t) : s'.Sound := by
  refine h.of_change ?_ ?_ ?_ ?_ ?_ ?_
  · rw [hlinks, hconnections, List.length_set, h.length]
  · rw [hconnections]
    exact Grown.refl _
  · rw [hcalls]
    exact Kept.refl _
  · intro t call ht
    exact Or.inl (hcalls ▸ ht)
  · intro m c hc
    exact Or.inl (hconnections ▸ hc)
  · intro m k c hk hc
    rw [hconnections] at hc
    rw [hlinks] at hk
    rw [hcalls]
    rcases getElem?_set_cases hl hk with ⟨rfl, rfl⟩ | ⟨-, hold⟩
    · exact (h.links m l c hl hc).mono hnext hticket fun _ _ call _ ht hwaits => ⟨call, ht, hwaits⟩
    · exact h.links m k c hold hc

theorem of_exchange (h : s.Sound) {t n : Nat} {call call' : Call} {c c' : Connection} {l l' : Link}
    (ht : s.calls[t]? = some call) (hn : s.connections[n]? = some c) (hl : s.line.links[n]? = some l)
    (hcalls : s'.calls = s.calls.set t call') (hconnections : s'.connections = s.connections.set n c')
    (hlinks : s'.line.links = s.line.links.set n l') (hconnection : call.connection = some n)
    (hkept : Kept s.calls s'.calls) (hle : c.Le c') (hcall : call'.Sound s'.connections t) (hc : c'.Sound s'.calls n)
    (hlink : l'.Sound s'.calls c'.callers n) : s'.Sound := by
  have hgrown : Grown s.connections s'.connections := by
    rw [hconnections]
    exact Grown.set hn hle
  refine h.of_change ?_ hgrown hkept ?_ ?_ ?_
  · rw [hlinks, hconnections, List.length_set, List.length_set, h.length]
  · intro u d hu
    rw [hcalls] at hu
    rcases getElem?_set_cases ht hu with ⟨rfl, rfl⟩ | ⟨-, hold⟩
    · exact Or.inr hcall
    · exact Or.inl hold
  · intro m d hm
    rw [hconnections] at hm
    rcases getElem?_set_cases hn hm with ⟨rfl, rfl⟩ | ⟨-, hold⟩
    · exact Or.inr hc
    · exact Or.inl hold
  · intro m k d hk hd
    rw [hlinks] at hk
    rw [hconnections] at hd
    rcases getElem?_set_cases hl hk with ⟨rfl, rfl⟩ | ⟨hnm, hk⟩
    · rw [getElem?_set_of_some_self hn] at hd
      cases hd
      exact hlink
    · rw [getElem?_set_of_some hn, if_neg hnm] at hd
      rw [hcalls]
      refine (h.links m k d hk hd).set ht rfl (fun _ _ hticket => hticket) fun number _ _ hwaits => ?_
      exact absurd (Option.some.inj (hconnection.symm.trans hwaits.connection)) hnm

theorem of_connection (h : s.Sound) {n : Nat} {c c' : Connection} (hn : s.connections[n]? = some c)
    (hle : c.Le c') (hcallers : c'.callers = c.callers) (hc : c'.Sound s.calls n) :
    Traffic.Sound { s with connections := s.connections.set n c' } := by
  refine h.of_change ?_ (Grown.set hn hle) (Kept.refl _) (fun t call ht => Or.inl ht) ?_ ?_
  · show s.line.links.length = (s.connections.set n c').length
    rw [List.length_set, h.length]
  · intro m d hm
    rcases getElem?_set_cases hn hm with ⟨rfl, rfl⟩ | ⟨-, hold⟩
    · exact Or.inr hc
    · exact Or.inl hold
  · intro m l d hl hm
    rcases getElem?_set_cases hn hm with ⟨rfl, rfl⟩ | ⟨-, hold⟩
    · rw [hcallers]
      exact h.links m l c hl hn
    · exact h.links m l d hl hold

/-! ## The moves of the other end -/

theorem serve {n : Nat} (h : s.Sound) (hstep : s.serve n = some s') : s'.Sound := by
  simp only [Traffic.serve, Option.bind_eq_bind, Option.bind_eq_some_iff, Option.some.injEq] at hstep
  obtain ⟨c, hc, ⟨t, frame⟩, hnext, rfl⟩ := hstep
  have hsound := h.connections n c hc
  refine h.of_connection hc ⟨List.prefix_refl _, List.prefix_refl _, List.prefix_refl _, List.prefix_refl _⟩ rfl ?_
  refine ⟨hsound.sent, ?_, ?_⟩
  · have hframe : (c.sent.map Prod.snd)[c.jobs.length]? = some frame := by rw [List.getElem?_map, hnext]; rfl
    rw [List.map_append, List.length_append, hsound.jobs]
    show _ ++ [frame] = List.take (c.jobs.length + 1) _
    rw [List.take_add_one, hframe]
    rfl
  · intro hforeign reply hreply
    obtain ⟨job, hjob, hanswer⟩ := hsound.replies hforeign reply hreply
    exact ⟨job, List.mem_append_left _ hjob, hanswer⟩

theorem answer {n k : Nat} {response : Response} (h : s.Sound) (hstep : s.answer n k response = some s') :
    s'.Sound := by
  simp only [Traffic.answer, Option.bind_eq_bind, Option.bind_eq_some_iff] at hstep
  obtain ⟨c, hc, job, hjob, hstep⟩ := hstep
  split at hstep
  · cases hstep
  · rename_i hnone
    cases hstep
    have hsound := h.connections n c hc
    refine h.of_connection hc ⟨List.prefix_refl _, List.prefix_refl _, List.prefix_append _ _, List.prefix_refl _⟩ rfl ?_
    refine ⟨hsound.sent, ?_, fun hforeign reply hreply => ?_⟩
    · have hframes : (c.jobs.set k { job with answer := some response }).map Job.frame = c.jobs.map Job.frame := by
        rw [List.map_set]
        exact set_of_some_self (by rw [List.getElem?_map, hjob]; rfl)
      rw [hframes, List.length_set, hsound.jobs]
    · rcases List.mem_append.1 hreply with hold | hnew
      · obtain ⟨old, hold, hcallId, hanswer⟩ := hsound.replies hforeign reply hold
        obtain ⟨m, hm⟩ := List.mem_iff_getElem?.1 hold
        have hkm : k ≠ m := by
          rintro rfl
          cases hjob.symm.trans hm
          rw [hanswer] at hnone
          exact hnone rfl
        refine ⟨old, List.mem_of_getElem? (i := m) ?_, hcallId, hanswer⟩
        rw [getElem?_set_of_some hjob, if_neg hkm, hm]
      · have hreply : reply = ⟨job.frame.callId, response⟩ := by
          revert hnew
          split
          · exact List.mem_singleton.1
          · intro hnew
            cases hnew
        refine ⟨{ job with answer := some response }, List.mem_of_getElem? (i := k) ?_, ?_, ?_⟩
        · rw [getElem?_set_of_some hjob, if_pos rfl]
        · rw [hreply]
        · rw [hreply]

theorem inject {n : Nat} {frame : Frame Response} (h : s.Sound) (hstep : s.inject n frame = some s') : s'.Sound := by
  simp only [Traffic.inject, Option.bind_eq_bind, Option.bind_eq_some_iff, Option.some.injEq] at hstep
  obtain ⟨c, hc, rfl⟩ := hstep
  have hsound := h.connections n c hc
  refine h.of_connection hc ⟨List.prefix_refl _, List.prefix_refl _, List.prefix_append _ _, List.prefix_refl _⟩ rfl ?_
  refine ⟨hsound.sent, hsound.jobs, fun hforeign => ?_⟩
  cases hforeign

/-! ## The moves of a call -/

theorem of_eq (h : s.Sound) (hlinks : s'.line.links = s.line.links) (hconnections : s'.connections = s.connections)
    (hcalls : s'.calls = s.calls) : s'.Sound where
  calls t call ht := by
    rw [hconnections]
    exact h.calls t call (hcalls ▸ ht)
  connections n c hc := by
    rw [hcalls]
    exact h.connections n c (hconnections ▸ hc)
  length := by rw [hlinks, hconnections, h.length]
  links n l c hl hc := by
    rw [hcalls]
    exact h.links n l c (hlinks ▸ hl) (hconnections ▸ hc)

theorem begin (h : s.Sound) (request : Request) : Traffic.Sound { s with calls := s.calls ++ [{ request }] } := by
  have hold : ∀ (t : Nat) (call : Call), s.calls[t]? = some call →
      (s.calls ++ [({ request } : Call)])[t]? = some call :=
    fun t call ht => getElem?_of_prefix (List.prefix_append _ _) ht
  refine h.of_change h.length (Grown.refl _) (fun t call ht _ => ⟨call, hold t call ht, rfl, rfl, rfl, rfl⟩) ?_
    (fun n c hc => Or.inl hc) ?_
  · intro t call ht
    rcases getElem?_concat_cases ht with ht | ⟨-, rfl⟩
    · exact Or.inl ht
    · refine Or.inr ⟨?_, ?_, ?_, ?_, ?_, ?_⟩
      all_goals simp
  · intro n l c hl hc
    exact (h.links n l c hl hc).mono rfl (fun _ _ ht => ht) fun number t call _ ht hwaits => ⟨call, hold _ call ht, hwaits⟩

theorem exists_link_of_conclude {t m : Nat} {call : Call} {ending : Ending} {l' : Link}
    (hl : (s.conclude t call ending).line.links[m]? = some l') :
    ∃ l, s.line.links[m]? = some l ∧ l'.next = l.next ∧ ∀ number ticket, l'.ticket? number = some ticket →
      l.ticket? number = some ticket ∧ ¬ (call.connection = some m ∧ call.number = some number) := by
  unfold Traffic.conclude at hl
  match hconnection : call.connection, hnumber : call.number with
  | none, _ =>
    simp only [hconnection] at hl
    exact ⟨l', hl, rfl, fun _ _ hticket => ⟨hticket, fun hc => by cases hc.1⟩⟩
  | some n, none =>
    simp only [hconnection, hnumber] at hl
    exact ⟨l', hl, rfl, fun _ _ hticket => ⟨hticket, fun hc => by cases hc.2⟩⟩
  | some n, some number =>
    simp only [hconnection, hnumber] at hl
    cases hlink : s.line.links[n]? with
    | none =>
      rw [hlink] at hl
      refine ⟨l', hl, rfl, fun _ _ hticket => ⟨hticket, fun hc => ?_⟩⟩
      cases hc.1
      cases hlink.symm.trans hl
    | some link =>
      rw [hlink, Line.links_setLink] at hl
      rcases getElem?_set_cases hlink hl with ⟨rfl, rfl⟩ | ⟨hnm, hold⟩
      · refine ⟨link, hlink, rfl, fun k ticket hticket => ?_⟩
        rw [Link.ticket?_abandon] at hticket
        split at hticket
        · cases hticket
        · rename_i hk
          exact ⟨hticket, fun hc => hk (Option.some.inj hc.2).symm⟩
      · exact ⟨l', hold, rfl, fun _ _ hticket => ⟨hticket, fun hc => hnm (Option.some.inj hc.1)⟩⟩

theorem length_links_conclude (t : Nat) (call : Call) (ending : Ending) :
    (s.conclude t call ending).line.links.length = s.line.links.length := by
  unfold Traffic.conclude
  split
  · split
    · rw [Line.links_setLink, List.length_set]
    · rfl
  · rfl

theorem conclude {t : Nat} {call : Call} {ending : Ending} (h : s.Sound) (ht : s.calls[t]? = some call)
    (hending : ∀ result, ending = .returned result → Answered result →
      ∃ p r, call.mail = .answer p r ∧ call.place ≠ none ∧ result = heard call.request.method (some r)) :
    (s.conclude t call ending).Sound := by
  have hcall := h.calls t call ht
  refine h.of_change ?_ (Grown.refl _) (Kept.set ht fun _ => ⟨rfl, rfl, rfl, rfl⟩) ?_ (fun n c hc => Or.inl hc) ?_
  · rw [length_links_conclude]
    exact h.length
  · intro u d hu
    have hu' : (s.calls.set t { call with ending := some ending })[u]? = some d := hu
    rcases getElem?_set_cases ht hu' with ⟨rfl, rfl⟩ | ⟨-, hold⟩
    · refine Or.inr ⟨hcall.numbered, hcall.placed, hcall.told, hcall.mailed, hcall.flushed, ?_⟩
      intro result hresult
      exact hending result (Option.some.inj hresult)
    · exact Or.inl hold
  · intro n l' c hl hc
    obtain ⟨l, hl, hnext, hticket⟩ := exists_link_of_conclude hl
    refine (h.links n l c hl hc).set ht hnext (fun number u hu => (hticket number u hu).1) ?_
    intro number u hu hwaits
    exact absurd ⟨hwaits.connection, hwaits.number⟩ (hticket number u hu).2

theorem fail {t : Nat} {call : Call} {e : CallError} (h : s.Sound) (ht : s.calls[t]? = some call)
    (he : ∀ method text, e ≠ .remote method text) : (s.conclude t call (.returned (.error e))).Sound := by
  refine h.conclude ht fun result hresult hanswered => ?_
  cases hresult
  exact absurd hanswered (not_answered_error he)

theorem open?_eq_some {t : Nat} {call : Call} : s.open? t = some call ↔ s.calls[t]? = some call ∧ call.ending = none := by
  unfold Traffic.open?
  rw [Option.filter_eq_some_iff]
  simp

theorem fresh {t : Nat} {call : Call} (h : s.Sound) (ht : s.calls[t]? = some call) (hnumber : call.number = none) :
    call.place = none ∧ call.mail = .empty ∧ call.flushed = false := by
  have hcall := h.calls t call ht
  have hplace : call.place = none := by
    cases hplace : call.place with
    | none => rfl
    | some q =>
      obtain ⟨n, number, c, -, hsome, -⟩ := hcall.placed q hplace
      cases hnumber.symm.trans hsome
  refine ⟨hplace, ?_, ?_⟩
  · by_contra hmail
    exact hcall.told hmail hnumber
  · cases hflushed : call.flushed with
    | false => rfl
    | true => exact absurd hplace (hcall.flushed hflushed)

theorem kept_fresh {t : Nat} {call : Call} (h : s.Sound) (ht : s.calls[t]? = some call) (hnumber : call.number = none)
    (call' : Call) : Kept s.calls (s.calls.set t call') :=
  Kept.set ht fun hplace => absurd (h.fresh ht hnumber).1 hplace

theorem number_of_connection {t : Nat} {call : Call} (h : s.Sound) (ht : s.calls[t]? = some call)
    (hconnection : call.connection = none) : call.number = none := by
  cases hnumber : call.number with
  | none => rfl
  | some number =>
    obtain ⟨n, c, k, hsome, -⟩ := (h.calls t call ht).numbered number hnumber
    cases hconnection.symm.trans hsome

theorem give {t n : Nat} {call : Call} (h : s.Sound) (ht : s.calls[t]? = some call) (hending : call.ending = none)
    (hconnection : call.connection = none) :
    Call.Sound s.connections t { call with connection := some n } := by
  have hnumber := h.number_of_connection ht hconnection
  obtain ⟨hplace, hmail, hflushed⟩ := h.fresh ht hnumber
  refine ⟨?_, ?_, ?_, ?_, ?_, ?_⟩
  all_goals simp [hnumber, hplace, hmail, hflushed, hending]

theorem connect {t : Nat} (h : s.Sound) (hstep : s.connect t = some s') : s'.Sound := by
  simp only [Traffic.connect, Option.bind_eq_bind, Option.bind_eq_some_iff, open?_eq_some] at hstep
  obtain ⟨call, ⟨ht, hending⟩, hstep⟩ := hstep
  split at hstep
  · cases hstep
  · rename_i hfree
    have hconnection : call.connection = none := Option.not_isSome_iff_eq_none.1 fun hsome => hfree (Or.inl hsome)
    have hnumber := h.number_of_connection ht hconnection
    split at hstep
    · cases hstep
      exact h.fail ht (by simp)
    · cases hstep
      refine h.of_call ht rfl rfl rfl (h.give ht hending hconnection) (h.kept_fresh ht hnumber _) ?_
      intro n number hwaits
      cases hconnection.symm.trans hwaits.connection
    · cases hstep
      exact h.of_eq rfl rfl rfl

theorem dialed {t : Nat} {error : Option DialError} (h : s.Sound) (hstep : s.dialed t error = some s') : s'.Sound := by
  simp only [Traffic.dialed, Option.bind_eq_bind, Option.bind_eq_some_iff, open?_eq_some] at hstep
  obtain ⟨call, ⟨ht, hending⟩, hstep⟩ := hstep
  split at hstep
  · cases hstep
  · rename_i hfree
    have hconnection : call.connection = none := Option.not_isSome_iff_eq_none.1 fun hsome => hfree (Or.inl hsome)
    have hnumber := h.number_of_connection ht hconnection
    cases error with
    | some e =>
      cases hstep
      exact (h.fail ht (by simp)).of_eq rfl rfl rfl
    | none =>
      cases hstep
      have hgrown : Grown s.connections (s.connections ++ [({} : Connection)]) := fun n c hc =>
        ⟨c, getElem?_of_prefix (List.prefix_append _ _) hc, .refl c⟩
      refine h.of_change ?_ hgrown ?_ ?_ ?_ ?_
      · show s.line.opened.links.length = (s.connections ++ [({} : Connection)]).length
        rw [Line.links_opened, List.length_append, List.length_append, h.length]
        rfl
      · exact h.kept_fresh ht hnumber _
      · intro u d hu
        rcases getElem?_set_cases ht hu with ⟨rfl, rfl⟩ | ⟨-, hold⟩
        · exact Or.inr ((h.give ht hending hconnection).mono hgrown)
        · exact Or.inl hold
      · intro n c hc
        rcases getElem?_concat_cases hc with hold | ⟨-, rfl⟩
        · exact Or.inl hold
        · refine Or.inr ⟨?_, ?_, ?_⟩
          all_goals simp
      · intro n l c hl hc
        have hl' : (s.line.links ++ [({} : Link)])[n]? = some l := by
          rw [← Line.links_opened]
          exact hl
        -- the two lists have one length, so that both are old at a position or both are new
        rcases getElem?_concat_cases hc with hold | ⟨hn, rfl⟩
        · rcases getElem?_concat_cases hl' with hlold | ⟨hn, -⟩
          · refine (h.links n l c hlold hold).set ht rfl (fun _ _ hticket => hticket) ?_
            intro number _ _ hwaits
            cases hconnection.symm.trans hwaits.connection
          · rw [hn, h.length] at hold
            simp at hold
        · rcases getElem?_concat_cases hl' with hlold | ⟨-, rfl⟩
          · rw [hn, ← h.length] at hlold
            simp at hlold
          · exact ⟨rfl, fun number ticket hticket => by cases hticket⟩

theorem register {t : Nat} (h : s.Sound) (hstep : s.register t = some s') : s'.Sound := by
  simp only [Traffic.register, Option.bind_eq_bind, Option.bind_eq_some_iff, open?_eq_some] at hstep
  obtain ⟨call, ⟨ht, hending⟩, n, hn, link, hlink, c, hc, hstep⟩ := hstep
  split at hstep
  · cases hstep
  · rename_i hfree
    have hnumber : call.number = none := Option.not_isSome_iff_eq_none.1 hfree
    obtain ⟨hplace, hmail, hflushed⟩ := h.fresh ht hnumber
    have hsound := h.links n link c hlink hc
    have hcaller : (c.callers ++ [t])[c.callers.length]? = some t := by simp
    have hkept := h.kept_fresh ht hnumber
    cases hstep
    refine h.of_exchange ht hc hlink rfl rfl (Line.links_setLink _ _ _) hn (hkept _)
      ⟨List.prefix_append _ _, List.prefix_refl _, List.prefix_refl _, List.prefix_refl _⟩ ?_ ?_ ?_
    · refine ⟨fun number heq => ?_, ?_, ?_, ?_, ?_, fun result hresult hanswered => ?_⟩
      · cases heq
        exact ⟨n, _, c.callers.length, hn, getElem?_set_of_some_self hc _, hcaller, hsound.next⟩
      · simp [hplace]
      · simp
      · simp [hmail]
      · simp [hflushed]
      · cases halive : link.alive with
        | true => simp [Link.register, halive] at hresult
        | false =>
          simp only [Link.register, halive, Bool.false_eq_true, if_false, Option.some.injEq,
            Ending.returned.injEq] at hresult
          rw [← hresult] at hanswered
          exact absurd hanswered (not_answered_error (by simp))
    · have hold := h.connections n c hc
      exact ⟨(hold.mono (hkept _)).sent, hold.jobs, hold.replies⟩
    · refine ⟨?_, fun number ticket hticket => ?_⟩
      · show link.next + 1 = UInt64.ofNat ((c.callers ++ [t]).length + 1)
        rw [hsound.next, List.length_append, List.length_singleton]
        exact (UInt64.ofNat_add (c.callers.length + 1) 1).symm
      · rw [Link.ticket?_register] at hticket
        split at hticket
        · rename_i halive
          cases hticket
          refine ⟨_, getElem?_set_of_some_self ht _, hn, ?_, hmail, ?_⟩
          · rw [halive.2]
            rfl
          · show (if link.alive then none else some _) = none
            rw [halive.1, if_pos rfl]
        · obtain ⟨d, hd, hwaits⟩ := hsound.waiting number ticket hticket
          have hnot : ¬ call.Waits n number := fun hw => by cases hnumber.symm.trans hw.number
          exact ⟨d, hwaits.getElem?_set hd ht hnot _, hwaits⟩

theorem put {t : Nat} (h : s.Sound) (hstep : s.put t = some s') : s'.Sound := by
  simp only [Traffic.put, Option.bind_eq_bind, Option.bind_eq_some_iff, open?_eq_some] at hstep
  obtain ⟨call, ⟨ht, hending⟩, n, hn, number, hnumber, c, hc, hstep⟩ := hstep
  split at hstep
  · cases hstep
  · rename_i hfree
    have hplace : call.place = none := Option.not_isSome_iff_eq_none.1 hfree
    split at hstep
    · cases hstep
      exact h.fail ht (by simp)
    · cases hstep
      have hcall := h.calls t call ht
      have hsound := h.connections n c hc
      obtain ⟨link, hlink⟩ := h.exists_link hc
      have hkept : ∀ call', Kept s.calls (s.calls.set t call') := fun call' =>
        Kept.set ht fun hp => absurd hplace hp
      have hle : c.Le { c with sent := c.sent ++ [(t, ⟨number, call.request⟩)] } :=
        ⟨List.prefix_refl _, List.prefix_append _ _, List.prefix_refl _, List.prefix_refl _⟩
      have hmono := hcall.mono (Grown.set hc hle)
      refine h.of_exchange ht hc hlink rfl rfl (set_of_some_self hlink).symm hn (hkept _) hle ?_ ?_ ?_
      · refine ⟨hmono.numbered, fun q hq => ?_, hmono.told, hmono.mailed, fun _ => by simp, ?_⟩
        · cases hq
          exact ⟨n, number, _, hn, hnumber, getElem?_set_of_some_self hc _, by simp⟩
        · intro result hresult
          cases hending.symm.trans hresult
      · refine ⟨fun q u frame hq => ?_, ?_, hsound.replies⟩
        · rcases getElem?_concat_cases hq with hold | ⟨rfl, hnew⟩
          · exact (hsound.mono (hkept _)).sent q u frame hold
          · cases hnew
            exact ⟨_, getElem?_set_of_some_self ht _, hn, hnumber, rfl, rfl⟩
        · have hlength : c.jobs.length ≤ (c.sent.map Prod.snd).length := by
            rw [List.length_map]
            exact hsound.length_jobs_le
          show c.jobs.map Job.frame = ((c.sent ++ [_]).map Prod.snd).take c.jobs.length
          rw [List.map_append, List.take_append_of_le_length hlength, hsound.jobs]
      · refine (h.links n link c hlink hc).set ht rfl (fun _ _ hticket => hticket) fun k _ _ hwaits => ?_
        exact ⟨hwaits.connection, hwaits.number, hwaits.mail, hwaits.ending⟩

theorem flush {t : Nat} (h : s.Sound) (hstep : s.flush t = some s') : s'.Sound := by
  simp only [Traffic.flush, Option.bind_eq_bind, Option.bind_eq_some_iff, open?_eq_some] at hstep
  obtain ⟨call, ⟨ht, hending⟩, hstep⟩ := hstep
  split at hstep
  · cases hstep
  · rename_i hplace
    cases hstep
    have hcall := h.calls t call ht
    refine h.of_call ht rfl rfl rfl ?_ (Kept.set ht fun _ => ⟨rfl, rfl, rfl, rfl⟩)
      fun n number hwaits => ⟨hwaits.connection, hwaits.number, hwaits.mail, hwaits.ending⟩
    refine ⟨hcall.numbered, hcall.placed, hcall.told, hcall.mailed, fun _ hnone => ?_, hcall.returned⟩
    rw [hnone] at hplace
    exact hplace rfl

theorem breakOff {t : Nat} {fault : IoFault} (h : s.Sound) (hstep : s.breakOff t fault = some s') : s'.Sound := by
  simp only [Traffic.breakOff, Option.bind_eq_bind, Option.bind_eq_some_iff, open?_eq_some] at hstep
  obtain ⟨call, ⟨ht, -⟩, hstep⟩ := hstep
  split at hstep
  · cases hstep
  · cases hstep
    exact h.fail ht (by simp)

theorem receive {t : Nat} (h : s.Sound) (hstep : s.receive t = some s') : s'.Sound := by
  simp only [Traffic.receive, Option.bind_eq_bind, Option.bind_eq_some_iff, open?_eq_some] at hstep
  obtain ⟨call, ⟨ht, -⟩, hstep⟩ := hstep
  split at hstep
  · rename_i hflushed
    have hplace : call.place ≠ none := (h.calls t call ht).flushed hflushed
    cases hmail : call.mail with
    | empty =>
      rw [hmail] at hstep
      cases hstep
    | lost =>
      rw [hmail] at hstep
      cases hstep
      exact h.fail ht (by simp)
    | answer p r =>
      rw [hmail] at hstep
      cases hstep
      refine h.conclude ht fun result hresult _ => ⟨p, r, hmail, hplace, ?_⟩
      cases hresult
      rfl
  · cases hstep

theorem abandon {t : Nat} (h : s.Sound) (hstep : s.abandon t = some s') : s'.Sound := by
  simp only [Traffic.abandon, Option.bind_eq_bind, Option.bind_eq_some_iff, open?_eq_some, Option.some.injEq] at hstep
  obtain ⟨call, ⟨ht, -⟩, rfl⟩ := hstep
  have hconclude : (s.conclude t call .abandoned).Sound := h.conclude ht fun result hresult _ => by cases hresult
  exact hconclude.of_eq rfl rfl rfl

/-! ## The moves of a connection and of the channel -/

theorem arrive {n : Nat} (h : s.Sound) (hstep : s.arrive n = some s') : s'.Sound := by
  simp only [Traffic.arrive, Option.bind_eq_bind, Option.bind_eq_some_iff] at hstep
  obtain ⟨link, hlink, c, hc, frame, hframe, hstep⟩ := hstep
  have hsound := h.links n link c hlink hc
  have hconnection := h.connections n c hc
  split at hstep
  · rw [Link.deliver_eq] at hstep
    cases hticket : link.ticket? frame.callId with
    | none =>
      -- the frame is for nobody: it changes the record of the connection, and no call
      rw [hticket] at hstep
      cases hstep
      have hunheard : Traffic.Sound { s with line := s.line.setLink n (link.abandon frame.callId) } := by
        refine h.of_link hlink (Line.links_setLink _ _ _) rfl rfl rfl fun number ticket ht => ?_
        exact Link.ticket?_of_abandon ht
      have hc' : Connection.Sound s.calls n { c with receivers := c.receivers ++ [none] } :=
        ⟨hconnection.sent, hconnection.jobs, hconnection.replies⟩
      exact hunheard.of_connection hc
        ⟨List.prefix_refl _, List.prefix_refl _, List.prefix_refl _, List.prefix_append _ _⟩ rfl hc'
    | some ticket =>
      rw [hticket] at hstep
      obtain ⟨call, ht, hstep⟩ := Option.bind_eq_some_iff.1 hstep
      cases hstep
      obtain ⟨d, hd, hwaits⟩ := hsound.waiting frame.callId ticket hticket
      cases ht.symm.trans hd
      have hcall := h.calls ticket.number call ht
      have hle : c.Le { c with receivers := c.receivers ++ [some ticket.number] } :=
        ⟨List.prefix_refl _, List.prefix_refl _, List.prefix_refl _, List.prefix_append _ _⟩
      have hmono := hcall.mono (Grown.set hc hle)
      have hkept : ∀ mail, Kept s.calls (s.calls.set ticket.number { call with mail }) := fun mail =>
        Kept.set ht fun _ => ⟨rfl, rfl, rfl, rfl⟩
      refine h.of_exchange ht hc hlink rfl rfl (Line.links_setLink _ _ _) hwaits.connection (hkept _) hle ?_ ?_ ?_
      · refine ⟨hmono.numbered, hmono.placed, fun _ hnone => ?_, fun p r hp => ?_, hmono.flushed, ?_⟩
        · cases hwaits.number.symm.trans hnone
        · cases hp
          exact ⟨n, frame.callId, _, hwaits.connection, hwaits.number, getElem?_set_of_some_self hc _, by simp, hframe⟩
        · intro result hresult
          cases hwaits.ending.symm.trans hresult
      · exact ⟨(hconnection.mono (hkept _)).sent, hconnection.jobs, hconnection.replies⟩
      · refine hsound.set ht rfl (fun number u hu => Link.ticket?_of_abandon hu) fun number u hu hw => ?_
        rw [Link.ticket?_abandon] at hu
        split at hu
        · cases hu
        · rename_i hne
          exact absurd (Option.some.inj (hw.number.symm.trans hwaits.number)) hne
  · cases hstep

theorem getElem?_tellLost (line : Line) (losers : List Ticket) (t : Nat) :
    (s.tellLost line losers).calls[t]? =
      s.calls[t]?.map fun call => if ⟨t⟩ ∈ losers then { call with mail := .lost } else call :=
  List.getElem?_mapIdx

theorem tellLost {n : Nat} {line : Line} {link : Link} (h : s.Sound) (hlink : s.line.links[n]? = some link)
    (hlinks : line.links = s.line.links.set n link.lose.2) : (s.tellLost line link.lose.1).Sound := by
  have hnew : ∀ t call, s.calls[t]? = some call → (s.tellLost line link.lose.1).calls[t]? =
      some (if ⟨t⟩ ∈ link.lose.1 then { call with mail := .lost } else call) := by
    intro t call ht
    rw [getElem?_tellLost, ht]
    rfl
  have hloser : ∀ t call, s.calls[t]? = some call → ⟨t⟩ ∈ link.lose.1 → ∃ number, call.Waits n number := by
    intro t call ht hmem
    obtain ⟨number, hticket⟩ := (link.mem_lose ⟨t⟩).1 hmem
    obtain ⟨c, hc⟩ := h.exists_connection hlink
    obtain ⟨d, hd, hwaits⟩ := (h.links n link c hlink hc).waiting number ⟨t⟩ hticket
    cases ht.symm.trans hd
    exact ⟨number, hwaits⟩
  refine h.of_change ?_ (Grown.refl _) ?_ ?_ (fun m c hc => Or.inl hc) ?_
  · show line.links.length = s.connections.length
    rw [hlinks, List.length_set, h.length]
  · intro t call ht _
    refine ⟨_, hnew t call ht, ?_⟩
    split
    · exact ⟨rfl, rfl, rfl, rfl⟩
    · exact ⟨rfl, rfl, rfl, rfl⟩
  · intro t call' ht'
    rw [getElem?_tellLost] at ht'
    obtain ⟨call, ht, rfl⟩ := Option.map_eq_some_iff.1 ht'
    split
    · rename_i hmem
      obtain ⟨number, hwaits⟩ := hloser t call ht hmem
      have hcall := h.calls t call ht
      refine Or.inr ⟨hcall.numbered, hcall.placed, fun _ hnone => ?_, ?_, hcall.flushed, fun result hresult => ?_⟩
      · cases hwaits.number.symm.trans hnone
      · intro p r hp
        cases hp
      · cases hwaits.ending.symm.trans hresult
    · exact Or.inl ht
  · intro m l c hl hc
    have hl' : (s.line.links.set n link.lose.2)[m]? = some l := hlinks ▸ hl
    rcases getElem?_set_cases hlink hl' with ⟨rfl, rfl⟩ | ⟨hnm, hl'⟩
    · refine ⟨(h.links m link c hlink hc).next, fun number ticket hticket => ?_⟩
      rw [Link.ticket?_lose] at hticket
      cases hticket
    · refine (h.links m l c hl' hc).mono rfl (fun _ _ hticket => hticket) fun number ticket d _ hd hwaits => ?_
      refine ⟨d, ?_, hwaits⟩
      rw [hnew ticket.number d hd, if_neg]
      intro hmem
      obtain ⟨k, hw⟩ := hloser ticket.number d hd hmem
      exact hnm (Option.some.inj (hw.connection.symm.trans hwaits.connection))

theorem lose {n : Nat} (h : s.Sound) (hstep : s.lose n = some s') : s'.Sound := by
  simp only [Traffic.lose, Option.bind_eq_bind, Option.bind_eq_some_iff, Option.some.injEq] at hstep
  obtain ⟨link, hlink, rfl⟩ := hstep
  exact h.tellLost hlink (Line.links_setLink _ _ _)

theorem shut (h : s.Sound) (hstep : s.shut = some s') : s'.Sound := by
  unfold Traffic.shut at hstep
  split at hstep
  · cases hstep
  · cases hstep
    exact h.of_eq rfl rfl rfl

theorem tearDown (h : s.Sound) (hstep : s.tearDown = some s') : s'.Sound := by
  unfold Traffic.tearDown at hstep
  split at hstep
  · cases hstep
    cases hcurrent : s.line.current with
    | none =>
      have hnobody : s.line.tearDown = ([], s.line) := by
        unfold Line.tearDown
        rw [hcurrent]
      rw [hnobody]
      refine h.of_eq rfl rfl (List.ext_getElem? fun t => ?_)
      rw [getElem?_tellLost]
      simp
    | some link =>
      obtain ⟨hlosers, hlinks⟩ := Line.links_tearDown hcurrent
      have htell := h.tellLost (Line.links_current hcurrent) hlinks
      rw [hlosers]
      exact htell.of_eq rfl rfl rfl
  · cases hstep

theorem step {move : Move} (h : s.Sound) (hstep : s.step? move = some s') : s'.Sound := by
  cases move with
  | begin request =>
    cases hstep
    exact h.begin request
  | connect t => exact h.connect hstep
  | dialed t error => exact h.dialed hstep
  | register t => exact h.register hstep
  | put t => exact h.put hstep
  | flush t => exact h.flush hstep
  | breakOff t fault => exact h.breakOff hstep
  | receive t => exact h.receive hstep
  | abandon t => exact h.abandon hstep
  | arrive n => exact h.arrive hstep
  | lose n => exact h.lose hstep
  | shut => exact h.shut hstep
  | tearDown => exact h.tearDown hstep
  | serve n => exact h.serve hstep
  | answer n k response => exact h.answer hstep
  | inject n frame => exact h.inject hstep

theorem run {moves : List Move} (h : s.Sound) (hrun : Traffic.run moves s = some s') : s'.Sound := by
  induction moves generalizing s with
  | nil =>
    cases hrun
    exact h
  | cons move moves ih =>
    obtain ⟨s₁, hstep, hrun⟩ := Option.bind_eq_some_iff.1 hrun
    exact ih (h.step hstep) hrun

theorem start (target : String) : (Traffic.start target).Sound where
  calls t call ht := by simp [Traffic.start] at ht
  connections n c hc := by simp [Traffic.start] at hc
  length := rfl
  links n l c hl hc := by simp [Traffic.start] at hc

end Traffic.Sound

end PeerMesh.Tcp
