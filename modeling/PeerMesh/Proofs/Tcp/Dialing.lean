import PeerMesh.Proofs.Tcp.Turns

/-!
# One connection at a time

A channel dials only when it has no connection that is alive, and until the dial has ended nobody else may dial.

* `Line.Turn.target`, `Line.Turn.closed`, `Line.Turn.length_ended` : what a move leaves of the line as it was;
* `Line.Turn.dead`, `Line.dead_of_ready` : connections that have ended stay so, and who must dial finds no other;
* `Traffic.Tidy`, `Traffic.Tidy.step` : at most one connection is alive, and none while a call dials;
* `Traffic.Down`, `Traffic.Down.step` : a closed channel whose connections have all ended stays as it is;
* `Call.Refused`, `Call.Denied`, `Call.Told` : what becomes of calls on such a channel.
-/

namespace PeerMesh.Tcp

namespace Line

/-- At most the last connection is alive. -/
def Alone (l : Line) : Prop := ∀ n link, l.links[n]? = some link → link.alive = true → n = l.ended.length

def Dead (l : Line) : Prop := ∀ link ∈ l.links, link.alive = false

/-! ## What stays of a line -/

theorem setLink_length (l : Line) (n : Nat) (link : Link) : (l.setLink n link).ended.length = l.ended.length := by
  unfold setLink
  split
  · simp
  · split <;> rfl

@[simp] theorem setLink_target (l : Line) (n : Nat) (link : Link) : (l.setLink n link).target = l.target := by
  unfold setLink
  split
  · rfl
  · split <;> rfl

@[simp] theorem setLink_closed (l : Line) (n : Nat) (link : Link) : (l.setLink n link).closed = l.closed := by
  unfold setLink
  split
  · rfl
  · split <;> rfl

@[simp] theorem tearDown_target (l : Line) : l.tearDown.2.target = l.target := by
  unfold tearDown
  split <;> rfl

@[simp] theorem tearDown_closed (l : Line) : l.tearDown.2.closed = l.closed := by
  unfold tearDown
  split <;> rfl

theorem length_links_opened (l : Line) : l.opened.ended.length = l.links.length := by
  unfold opened links
  rw [List.length_append, List.length_append, List.length_reverse, Nat.add_comm]

/-- Who is refused is refused because the channel was closed, and tells which. -/
theorem closed_of_ready {l : Line} {e : DialError} (h : l.ready = .refused e) : e = .closed l.target := by
  unfold ready at h
  split at h
  · cases h
    rfl
  · split at h <;> cases h

theorem ready_of_closed {l : Line} (h : l.closed = true) : l.ready = .refused (.closed l.target) := by
  unfold ready
  rw [if_pos h]

theorem length_links_of_ready {l : Line} {link : Link} (h : l.ready = .connected link) :
    l.links.length = l.ended.length + 1 := by
  unfold ready at h
  split at h
  · cases h
  · split at h
    · rename_i hlive
      obtain ⟨hcurrent, -⟩ := Option.filter_eq_some_iff.1 hlive
      rw [links, hcurrent]
      simp
    · cases h

/-- Who must dial finds no connection that is alive, if only the last may be. -/
theorem Alone.dead_of_ready {l : Line} (halone : l.Alone) (h : l.ready = .mustDial) : l.Dead := by
  intro link hmem
  obtain ⟨n, hlink⟩ := List.mem_iff_getElem?.1 hmem
  by_contra halive
  rw [Bool.not_eq_false] at halive
  have hn := halone n link hlink halive
  unfold ready at h
  split at h
  · cases h
  · split at h
    · cases h
    · rename_i hlive
      cases hcurrent : l.current with
      | none =>
        have hlt := (List.getElem?_eq_some_iff.1 hlink).1
        rw [links, hcurrent] at hlt
        simp only [Option.toList_none, List.append_nil, List.length_reverse] at hlt
        omega
      | some current =>
        have hlast := links_current hcurrent
        rw [← hn, hlink] at hlast
        cases hlast
        rw [live?, hcurrent, Option.filter_some, if_pos halive] at hlive
        cases hlive

variable {s s' : Traffic} {line : Line}

theorem Turn.target (h : Line.Turn s s' line) : line.target = s.line.target := by
  cases h with
  | relinked => exact setLink_target _ _ _
  | tornDown => exact tearDown_target _
  | _ => rfl

theorem Turn.closed (h : Line.Turn s s' line) (hclosed : s.line.closed = true) : line.closed = true := by
  cases h with
  | relinked => rwa [setLink_closed]
  | tornDown => rwa [tearDown_closed]
  | shut => rfl
  | _ => exact hclosed

theorem Turn.dead (h : Line.Turn s s' line) (hdead : s.line.Dead) (hdialing : s.dialing = none ∨ s'.dialing ≠ none) :
    line.Dead := by
  have hset : ∀ {n : Nat} {l : Link}, l.alive = false → ∀ k ∈ s.line.links.set n l, k.alive = false := by
    intro n l hl k hk
    rcases List.mem_or_eq_of_mem_set hk with hold | rfl
    · exact hdead k hold
    · exact hl
  cases h with
  | still => exact hdead
  | relinked hlink hturn =>
    rw [Dead, links_setLink]
    refine hset ?_
    by_contra halive
    have hl := hturn.alive (Bool.not_eq_false _ ▸ halive)
    rw [hdead _ (List.mem_of_getElem? hlink)] at hl
    cases hl
  | opened hsome hnone =>
    rcases hdialing with h | h
    · cases h.symm.trans hsome
    · exact absurd hnone h
  | shut => exact hdead
  | tornDown hcurrent =>
    rw [Dead, (links_tearDown hcurrent).2]
    exact hset rfl

theorem Turn.alone (h : Line.Turn s s' line) (halone : s.line.Alone) (hidle : s.dialing ≠ none → s.line.Dead) :
    line.Alone := by
  intro n l hlink halive
  cases h with
  | still => exact halone n l hlink halive
  | @relinked m k k' hk hturn =>
    rw [links_setLink] at hlink
    rw [setLink_length]
    rcases getElem?_set_cases hk hlink with ⟨rfl, rfl⟩ | ⟨-, hold⟩
    · exact halone n k hk (hturn.alive halive)
    · exact halone n l hold halive
  | opened hdialing =>
    rw [links_opened] at hlink
    rw [length_links_opened]
    rcases getElem?_concat_cases hlink with hold | ⟨hn, -⟩
    · have hdead := hidle (by rw [hdialing]; simp) l (List.mem_of_getElem? hold)
      cases hdead.symm.trans halive
    · exact hn
  | shut => exact halone n l hlink halive
  | tornDown hcurrent =>
    rw [(links_tearDown hcurrent).2] at hlink
    rcases getElem?_set_cases (links_current hcurrent) hlink with ⟨-, rfl⟩ | ⟨hne, hold⟩
    · cases halive
    · exact absurd (halone n l hold halive).symm hne

theorem Turn.length_links (h : Line.Turn s s' line) (hdialing : s.dialing = none) :
    line.links.length = s.line.links.length := by
  cases h with
  | relinked => rw [links_setLink, List.length_set]
  | opened hsome => cases hdialing.symm.trans hsome
  | tornDown hcurrent => rw [(links_tearDown hcurrent).2, List.length_set]
  | _ => rfl

theorem Alone.tearDown {l : Line} (halone : l.Alone) : l.tearDown.2.Dead := by
  intro link hmem
  obtain ⟨n, hlink⟩ := List.mem_iff_getElem?.1 hmem
  by_contra halive
  rw [Bool.not_eq_false] at halive
  cases hcurrent : l.current with
  | none =>
    have hsame : l.tearDown.2 = l := by
      unfold Line.tearDown
      rw [hcurrent]
    rw [hsame] at hlink
    have hlt := (List.getElem?_eq_some_iff.1 hlink).1
    have hn := halone n link hlink halive
    rw [links, hcurrent, hn] at hlt
    simp at hlt
  | some current =>
    rw [(links_tearDown hcurrent).2] at hlink
    rcases getElem?_set_cases (links_current hcurrent) hlink with ⟨-, rfl⟩ | ⟨hne, hold⟩
    · cases halive
    · exact hne (halone n link hold halive).symm

end Line

/-! ## Who dials -/

namespace Traffic

/-- At most one connection is alive, and none while a call dials, which has no connection then. -/
structure Tidy (target : String) (s : Traffic) : Prop where
  target : s.line.target = target
  alone : s.line.Alone
  idle : s.dialing ≠ none → s.line.Dead
  dialer : ∀ t, s.dialing = some t → ∃ call : Call, s.calls[t]? = some call ∧ call.ending = none ∧ call.connection = none
  connected : ∀ (t : Nat) (call : Call) (n : Nat),
    s.calls[t]? = some call → call.connection = some n → n < s.connections.length

theorem Tidy.start (target : String) : Tidy target (.start target) where
  target := rfl
  alone n link hlink := by simp [Line.links, Traffic.start] at hlink
  idle h := absurd rfl h
  dialer t h := by cases h
  connected t call n ht := by simp [Traffic.start] at ht

variable {s s' : Traffic} {move : Move} {target : String}

theorem Step.length_connections_le (h : s.Step move s') : s.connections.length ≤ s'.connections.length := by
  by_contra hlt
  rw [Nat.not_le] at hlt
  obtain ⟨c, hc, -⟩ := h.grown _ _ (List.getElem?_eq_getElem hlt)
  exact absurd (List.getElem?_eq_some_iff.1 hc).1 (Nat.lt_irrefl _)

theorem Tidy.dialer_step (h : s.Tidy target) (hs : s.Sound) (hstep : s.Step move s') {t : Nat}
    (ht : s'.dialing = some t) :
    ∃ call : Call, s'.calls[t]? = some call ∧ call.ending = none ∧ call.connection = none := by
  rcases hstep.dialing ht with ⟨hdialing, hgiven, hended⟩ | ⟨call, -, hc, hopen, hconnection, -, -, rfl⟩
  · obtain ⟨call, hc, hopen, hconnection⟩ := h.dialer t hdialing
    have hnumber := hs.number_of_connection hc hconnection
    obtain ⟨hplace, hmail, -⟩ := hs.fresh hc hnumber
    obtain ⟨call', ht', hturn⟩ := hs.exists_turn hstep hc
    refine ⟨call', ht', ?_⟩
    cases hturn with
    | passed => exact ⟨hopen, hconnection⟩
    | lost => exact ⟨hopen, hconnection⟩
    | answered hwaits => cases hconnection.symm.trans hwaits.connection
    | acted _ hacts =>
      exfalso
      cases hacts with
      | refused _ hfree => cases hdialing.symm.trans hfree
      | connected _ hfree => cases hdialing.symm.trans hfree
      | dials _ hfree => cases hdialing.symm.trans hfree
      | undialed => exact hended _ rfl
      | dialed => exact hended _ rfl
      | registered hsome => cases hconnection.symm.trans hsome
      | placed hsome => cases hnumber.symm.trans hsome
      | oversized hsome => cases hnumber.symm.trans hsome
      | flushed hsome => exact hsome hplace
      | broken hsome => exact hsome hnumber
      | heardLost hlost => cases hmail.symm.trans hlost
      | heardAnswer hanswer => cases hmail.symm.trans hanswer
      | abandoned => exact hgiven rfl
  · exact ⟨call, hc, hopen, hconnection⟩

theorem Tidy.connected_step (h : s.Tidy target) (hs : s.Sound) (hstep : s.Step move s') {t n : Nat} {call' : Call}
    (ht' : s'.calls[t]? = some call') (hconnection' : call'.connection = some n) : n < s'.connections.length := by
  rcases hs.exists_turn_before hstep ht' with ⟨call, ht, hturn⟩ | hfresh
  · have hsame : call'.connection = call.connection → n < s'.connections.length := fun hsame =>
      Nat.lt_of_lt_of_le (h.connected t call n ht (hsame.symm.trans hconnection')) hstep.length_connections_le
    cases hturn with
    | passed => exact hsame rfl
    | lost => exact hsame rfl
    | answered => exact hsame rfl
    | acted _ hacts =>
      cases hacts with
      | connected _ _ hready =>
        cases hconnection'
        have hlength := (Line.length_links_of_ready hready).symm.trans hs.length
        exact Nat.lt_of_lt_of_le (by omega) hstep.length_connections_le
      | dialed =>
        cases hconnection'
        cases hstep with
        | dialed => simp
        | otherEnd hforeign => cases hforeign
      | _ => exact hsame rfl
  · rw [hfresh] at hconnection'
    cases hconnection'

theorem Tidy.step (h : s.Tidy target) (hs : s.Sound) (hstep : s.Step move s') : s'.Tidy target where
  target := (hs.lineTurn hstep).target.trans h.target
  alone := (hs.lineTurn hstep).alone h.alone h.idle
  idle hdialing := by
    obtain ⟨t, ht⟩ := Option.ne_none_iff_exists'.1 hdialing
    rcases hstep.dialing ht with ⟨hdials, -⟩ | ⟨call, -, -, -, -, -, hready, rfl⟩
    · exact (hs.lineTurn hstep).dead (h.idle (by rw [hdials]; simp)) (Or.inr hdialing)
    · exact h.alone.dead_of_ready hready
  dialer _ := h.dialer_step hs hstep
  connected _ _ _ := h.connected_step hs hstep

/-! ## Channels that are closed for good -/

theorem conclude_closed (s : Traffic) (t : Nat) (call : Call) (ending : Ending) :
    (s.conclude t call ending).line.closed = s.line.closed := by
  unfold conclude
  split
  · split
    · exact Line.setLink_closed _ _ _
    · rfl
  · rfl

/-- Only a close shuts a channel, or ends its connection for good. -/
theorem Step.channel (h : s.Step move s') (hshut : move ≠ .shut) (htearDown : move ≠ .tearDown) :
    s'.line.closed = s.line.closed ∧ s'.closing = s.closing := by
  cases h with
  | shut => exact absurd rfl hshut
  | tornDown => exact absurd rfl htearDown
  | _ => exact ⟨by simp [conclude_closed, tellLost, Line.opened], rfl⟩

theorem Step.dialing_eq_none (h : s.Step move s') (hclosed : s.line.closed = true) (hdialing : s.dialing = none) :
    s'.dialing = none := by
  refine Option.eq_none_iff_forall_ne_some.2 fun t ht => ?_
  rcases h.dialing ht with ⟨hdials, -⟩ | ⟨call, -, -, -, -, -, hready, -⟩
  · cases hdialing.symm.trans hdials
  · cases (Line.ready_of_closed hclosed).symm.trans hready

/-- The channel is closed, nobody dials, and no connection is alive. -/
structure Down (s : Traffic) : Prop where
  closed : s.line.closed = true
  dialing : s.dialing = none
  dead : s.line.Dead

theorem Down.step (h : s.Down) (hs : s.Sound) (hstep : s.Step move s') :
    s'.Down ∧ s'.line.links.length = s.line.links.length := by
  have hturn := hs.lineTurn hstep
  exact ⟨⟨hturn.closed h.closed, hstep.dialing_eq_none h.closed h.dialing, hturn.dead h.dead (Or.inl h.dialing)⟩,
    hturn.length_links h.dialing⟩

end Traffic

/-! ## Calls on a channel that is closed for good -/

namespace Call

/-- The call has no connection, and if it ends, that is because its caller gave it up or because the channel is
closed. -/
structure Refused (target : String) (call : Call) : Prop where
  connection : call.connection = none
  ending : ∀ ending, call.ending = some ending →
    ending = .abandoned ∨ ending = .returned (.error (.dial (.closed target)))

/-- Nothing was answered to the call, and if it ends, that is because its caller gave it up or because it failed. -/
structure Denied (target : String) (call : Call) : Prop where
  mail : ∀ p r, call.mail ≠ .answer p r
  ending : ∀ ending, call.ending = some ending → ending = .abandoned ∨
    ∃ e, ending = .returned (.error e) ∧
      (e = .dial (.closed target) ∨ e = .lost call.request.method ∨ ∃ fault, e = .codec fault)

/-- If the call waits for anything, it has been told. -/
def Told (call : Call) : Prop := call.ending = none → call.number ≠ none → call.mail ≠ .empty

variable {s : Traffic} {t : Nat} {move : Move} {call call' : Call} {target : String}

theorem Refused.turn (h : call.Refused target) (hs : s.Sound) (hdown : s.Down) (htarget : s.line.target = target)
    (ht : s.calls[t]? = some call) (hturn : call.Turn s t move call') : call'.Refused target := by
  have hready := Line.ready_of_closed hdown.closed
  have hnumber := hs.number_of_connection ht h.connection
  obtain ⟨hplace, hmail, -⟩ := hs.fresh ht hnumber
  cases hturn with
  | passed => exact h
  | lost => exact ⟨h.connection, h.ending⟩
  | answered hwaits => cases h.connection.symm.trans hwaits.connection
  | acted _ hacts =>
    cases hacts with
    | refused _ _ hrefused =>
      refine ⟨h.connection, fun ending hending => Or.inr ?_⟩
      rw [← Option.some.inj hending, Line.closed_of_ready hrefused, htarget]
    | connected _ _ hconnected => cases hready.symm.trans hconnected
    | dials => exact h
    | undialed _ hdialing => cases hdown.dialing.symm.trans hdialing
    | dialed _ hdialing => cases hdown.dialing.symm.trans hdialing
    | registered hsome => cases h.connection.symm.trans hsome
    | placed hsome => cases hnumber.symm.trans hsome
    | oversized hsome => cases hnumber.symm.trans hsome
    | flushed hsome => exact absurd hplace hsome
    | broken hsome => exact absurd hnumber hsome
    | heardLost hlost => cases hmail.symm.trans hlost
    | heardAnswer hanswer => cases hmail.symm.trans hanswer
    | abandoned => exact ⟨h.connection, fun ending hending => Or.inl (Option.some.inj hending).symm⟩

theorem Denied.turn (h : call.Denied target) (hdown : s.Down) (htarget : s.line.target = target)
    (hturn : call.Turn s t move call') : call'.Denied target := by
  have hready := Line.ready_of_closed hdown.closed
  have hfails : ∀ e, (e = .dial (.closed target) ∨ e = .lost call.request.method ∨ ∃ fault, e = .codec fault) →
      Denied target { call with ending := some (.returned (.error e)) } := fun e he =>
    ⟨h.mail, fun ending hending => Or.inr ⟨e, (Option.some.inj hending).symm, he⟩⟩
  cases hturn with
  | passed => exact h
  | lost => exact ⟨by simp, h.ending⟩
  | answered _ hlink halive => cases (hdown.dead _ (List.mem_of_getElem? hlink)).symm.trans halive
  | acted _ hacts =>
    cases hacts with
    | refused _ _ hrefused => exact hfails _ (Or.inl (by rw [Line.closed_of_ready hrefused, htarget]))
    | connected _ _ hconnected => cases hready.symm.trans hconnected
    | dials => exact h
    | undialed _ hdialing => cases hdown.dialing.symm.trans hdialing
    | dialed _ hdialing => cases hdown.dialing.symm.trans hdialing
    | registered _ _ hlink =>
      refine ⟨h.mail, fun ending hending => Or.inr ⟨_, ?_, Or.inr (Or.inl rfl)⟩⟩
      simp only [hdown.dead _ (List.mem_of_getElem? hlink), Bool.false_eq_true, if_false] at hending
      exact (Option.some.inj hending).symm
    | placed => exact ⟨h.mail, h.ending⟩
    | oversized => exact hfails _ (Or.inr (Or.inr ⟨_, rfl⟩))
    | flushed => exact ⟨h.mail, h.ending⟩
    | broken => exact hfails _ (Or.inr (Or.inr ⟨_, rfl⟩))
    | heardLost => exact hfails _ (Or.inr (Or.inl rfl))
    | heardAnswer hanswer => exact absurd hanswer (h.mail _ _)
    | abandoned => exact ⟨h.mail, fun ending hending => Or.inl (Option.some.inj hending).symm⟩

theorem Told.turn (h : call.Told) (hs : s.Sound) (hdown : s.Down) (ht : s.calls[t]? = some call)
    (hturn : call.Turn s t move call') : call'.Told := by
  cases hturn with
  | passed => exact h
  | lost => exact fun _ _ => by simp
  | answered => exact fun _ _ => by simp
  | acted hopen hacts =>
    cases hacts with
    | connected hconnection => exact fun _ hnumber => absurd (hs.number_of_connection ht hconnection) hnumber
    | dialed hconnection => exact fun _ hnumber => absurd (hs.number_of_connection ht hconnection) hnumber
    | registered _ _ hlink =>
      intro hending
      simp [hdown.dead _ (List.mem_of_getElem? hlink)] at hending
    | dials => exact h
    | placed => exact fun _ => h hopen
    | flushed => exact fun _ => h hopen
    | _ => exact fun hending => by cases hending

end Call

namespace Traffic

variable {s s' : Traffic} {move : Move} {target : String} {first : Nat}

def RefusedFrom (target : String) (first : Nat) (s : Traffic) : Prop :=
  ∀ (t : Nat) (call : Call), first ≤ t → s.calls[t]? = some call → call.Refused target

theorem RefusedFrom.step (h : s.RefusedFrom target first) (hs : s.Sound) (htarget : s.line.target = target)
    (hdown : s.Down) (hstep : s.Step move s') : s'.RefusedFrom target first := by
  intro t call' hlate ht'
  rcases hs.exists_turn_before hstep ht' with ⟨call, ht, hturn⟩ | hfresh
  · exact (h t call hlate ht).turn hs hdown htarget ht hturn
  · rw [hfresh]
    exact ⟨rfl, fun ending hending => by cases hending⟩

def AllTold (s : Traffic) : Prop := ∀ (t : Nat) (call : Call), s.calls[t]? = some call → call.Told

theorem AllTold.step (h : s.AllTold) (hs : s.Sound) (hdown : s.Down) (hstep : s.Step move s') : s'.AllTold := by
  intro t call' ht'
  rcases hs.exists_turn_before hstep ht' with ⟨call, ht, hturn⟩ | hfresh
  · exact (h t call ht).turn hs hdown ht hturn
  · rw [hfresh]
    exact fun _ hnumber => absurd rfl hnumber

end Traffic

end PeerMesh.Tcp
