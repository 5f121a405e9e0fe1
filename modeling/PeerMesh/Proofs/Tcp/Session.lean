import PeerMesh.Proofs.Tcp.Dialing

/-!
# Closes among calls

A channel with its calls, and with any number of closes that are made at any time, also while a call dials.

* `Closer`, `Session`, `Session.step?` : what a close has come to, and what it does in turn with the calls;
* `Session.Step`, `Session.step_of_step?` : all that a move can be;
* `Session.Stage`, `Session.Sound`, `Session.Sound.step` : who has closed the channel, if anybody has, and how it is left;
* `Session.exists_run_traffic` : what a session does, its channel does.
-/

namespace PeerMesh.Tcp

inductive Closer where
  | begun
  /-- The channel takes no calls any more, and its connection has yet to be ended. -/
  | shut
  /-- The connection has been ended. -/
  | down
  | returned (result : Except DialError Unit)

/-- The close has found the channel open. -/
def Closer.First (closer : Closer) : Prop := closer = .shut ∨ closer = .down ∨ closer = .returned (.ok ())

structure Session where
  traffic : Traffic
  closers : List Closer := []

inductive SessionMove where
  /-- A call, a connection or the other end does something. -/
  | pass (move : Move)
  | close
  /-- A close finds the channel open or closed. -/
  | swap (closer : Nat)
  /-- The close that found the channel open ends the connection in use, once nobody dials. -/
  | takeDown (closer : Nat)
  | finish (closer : Nat)

namespace Session

def start (target : String) : Session := { traffic := .start target }

def setCloser (s : Session) (k : Nat) (closer : Closer) (traffic : Traffic) : Session :=
  { traffic, closers := s.closers.set k closer }

def step? (s : Session) : SessionMove → Option Session
  | .pass .shut => none
  | .pass .tearDown => none
  | .pass move => (s.traffic.step? move).map fun traffic => { s with traffic }
  | .close => some { s with closers := s.closers ++ [.begun] }
  | .swap k =>
    match s.closers[k]? with
    | some .begun =>
      match s.traffic.line.close.1 with
      | .error error => some (s.setCloser k (.returned (.error error)) s.traffic)
      | .ok () => s.traffic.shut.map (s.setCloser k .shut)
    | _ => none
  | .takeDown k =>
    match s.closers[k]? with
    | some .shut => s.traffic.tearDown.map (s.setCloser k .down)
    | _ => none
  | .finish k =>
    match s.closers[k]? with
    | some .down => some (s.setCloser k (.returned (.ok ())) s.traffic)
    | _ => none

def run : List SessionMove → Session → Option Session
  | [], s => some s
  | move :: moves, s => (s.step? move).bind (run moves)

/-- A move that is possible, by what it comes to. -/
inductive Step (s : Session) : SessionMove → Session → Prop where
  | pass {move : Move} {traffic : Traffic} (hshut : move ≠ .shut) (htearDown : move ≠ .tearDown)
      (hmove : s.traffic.step? move = some traffic) : Step s (.pass move) { s with traffic }
  | close : Step s .close { s with closers := s.closers ++ [.begun] }
  | refused {k : Nat} (hk : s.closers[k]? = some .begun) (hclosed : s.traffic.line.closed = true) :
      Step s (.swap k) (s.setCloser k (.returned (.error (.closed s.traffic.line.target))) s.traffic)
  | shut {k : Nat} {traffic : Traffic} (hk : s.closers[k]? = some .begun) (hopen : s.traffic.line.closed = false)
      (hmove : s.traffic.step? .shut = some traffic) : Step s (.swap k) (s.setCloser k .shut traffic)
  | tornDown {k : Nat} {traffic : Traffic} (hk : s.closers[k]? = some .shut)
      (hmove : s.traffic.step? .tearDown = some traffic) : Step s (.takeDown k) (s.setCloser k .down traffic)
  | finished {k : Nat} (hk : s.closers[k]? = some .down) :
      Step s (.finish k) (s.setCloser k (.returned (.ok ())) s.traffic)

variable {s s' : Session} {move : SessionMove}

theorem step_of_step? (hstep : s.step? move = some s') : s.Step move s' := by
  unfold step? at hstep
  split at hstep
  · cases hstep
  · cases hstep
  · rename_i move hshut htearDown
    obtain ⟨traffic, hmove, rfl⟩ := Option.map_eq_some_iff.1 hstep
    exact .pass hshut htearDown hmove
  · cases hstep
    exact .close
  · split at hstep
    · rename_i hk
      rw [Line.close_eq] at hstep
      split at hstep
      · rename_i hclosed
        split at hclosed
        · cases hclosed
          cases hstep
          exact .refused hk ‹_›
        · cases hclosed
      · rename_i hclosed
        split at hclosed
        · cases hclosed
        · rename_i hopen
          obtain ⟨traffic, hmove, rfl⟩ := Option.map_eq_some_iff.1 hstep
          exact .shut hk (Bool.not_eq_true _ ▸ hopen) hmove
    · cases hstep
  · split at hstep
    · rename_i hk
      obtain ⟨traffic, hmove, rfl⟩ := Option.map_eq_some_iff.1 hstep
      exact .tornDown hk hmove
    · cases hstep
  · split at hstep
    · rename_i hk
      cases hstep
      exact .finished hk
    · cases hstep

/-! ## Who closes the channel -/

def Others (target : String) (closers : List Closer) (k : Nat) : Prop :=
  ∀ j closer, j ≠ k → closers[j]? = some closer → closer = .begun ∨ closer = .returned (.error (.closed target))

variable {target : String} {closers : List Closer} {j k : Nat} {closer : Closer}

theorem Others.concat (h : Others target closers k) : Others target (closers ++ [.begun]) k := by
  intro j closer hjk hj
  rcases getElem?_concat_cases hj with hold | ⟨-, rfl⟩
  · exact h j closer hjk hold
  · exact Or.inl rfl

theorem Others.set_self (h : Others target closers k) (hk : closers[k]? = some closer) (closer' : Closer) :
    Others target (closers.set k closer') k := by
  intro j d hjk hj
  rcases getElem?_set_cases hk hj with ⟨rfl, -⟩ | ⟨-, hold⟩
  · exact absurd rfl hjk
  · exact h j d hjk hold

theorem Others.set (h : Others target closers k) (hj : closers[j]? = some closer) :
    Others target (closers.set j (.returned (.error (.closed target)))) k := by
  intro i d hik hi
  rcases getElem?_set_cases hj hi with ⟨-, rfl⟩ | ⟨-, hold⟩
  · exact Or.inr rfl
  · exact h i d hik hold

theorem Others.eq (h : Others target closers k) (hj : closers[j]? = some closer)
    (hfirst : closer.First) : j = k := by
  by_contra hjk
  rcases h j closer hjk hj with rfl | rfl <;> simp [Closer.First] at hfirst

/-- Nobody has closed the channel, or one close has, and that waits for the dial to end, or has left nothing alive. -/
inductive Stage (target : String) (s : Session) : Prop where
  | opened (hopen : s.traffic.line.closed = false) (hbegun : ∀ closer ∈ s.closers, closer = .begun)
  | shut {k : Nat} (hclosed : s.traffic.line.closed = true) (hclosing : s.traffic.closing = true)
      (hk : s.closers[k]? = some .shut) (hothers : Others target s.closers k)
  | down {k : Nat} {closer : Closer} (hdown : s.traffic.Down) (hk : s.closers[k]? = some closer)
      (hcloser : closer = .down ∨ closer = .returned (.ok ())) (hothers : Others target s.closers k)

/-- What holds of a channel with its calls and closes. -/
structure Sound (target : String) (s : Session) : Prop where
  traffic : s.traffic.Sound
  tidy : s.traffic.Tidy target
  stage : s.Stage target

theorem Sound.start (target : String) : (start target).Sound target where
  traffic := .start target
  tidy := .start target
  stage := .opened rfl fun closer hcloser => by cases hcloser

theorem Stage.pass (h : s.Stage target) (hs : s.traffic.Sound) {move : Move} {traffic : Traffic}
    (hmove : s.traffic.Step move traffic) (hshut : move ≠ .shut) (htearDown : move ≠ .tearDown) :
    Stage target { s with traffic } := by
  obtain ⟨hclosed', hclosing'⟩ := hmove.channel hshut htearDown
  cases h with
  | opened hopen hbegun => exact .opened (hclosed'.trans hopen) hbegun
  | shut hclosed hclosing hk hothers => exact .shut (hclosed'.trans hclosed) (hclosing'.trans hclosing) hk hothers
  | down hdown hk hcloser hothers => exact .down (hdown.step hs hmove).1 hk hcloser hothers

theorem Stage.close (h : s.Stage target) : Stage target { s with closers := s.closers ++ [.begun] } := by
  have hold : ∀ {k closer}, s.closers[k]? = some closer → (s.closers ++ [.begun])[k]? = some closer :=
    getElem?_of_prefix (List.prefix_append _ _)
  cases h with
  | opened hopen hbegun =>
    refine .opened hopen fun closer hcloser => ?_
    rcases List.mem_append.1 hcloser with hmem | hmem
    · exact hbegun closer hmem
    · exact List.mem_singleton.1 hmem
  | shut hclosed hclosing hk hothers => exact .shut hclosed hclosing (hold hk) hothers.concat
  | down hdown hk hcloser hothers => exact .down hdown (hold hk) hcloser hothers.concat

theorem Stage.refused (h : s.Stage target) (hk : s.closers[k]? = some .begun) (hclosed : s.traffic.line.closed = true) :
    Stage target (s.setCloser k (.returned (.error (.closed target))) s.traffic) := by
  have hold : ∀ {j : Nat} {closer : Closer}, closer ≠ .begun → s.closers[j]? = some closer →
      (s.closers.set k (.returned (.error (.closed target))))[j]? = some closer := by
    intro j closer hne hj
    rw [getElem?_set_of_some hk, if_neg, hj]
    rintro rfl
    exact hne (Option.some.inj (hj.symm.trans hk))
  cases h with
  | opened hopen => cases hclosed.symm.trans hopen
  | shut _ hclosing hj hothers => exact .shut hclosed hclosing (hold (by simp) hj) (hothers.set hk)
  | down hdown hj hcloser hothers =>
    refine .down hdown (hold ?_ hj) hcloser (hothers.set hk)
    rcases hcloser with rfl | rfl <;> simp

theorem Stage.shut_of_open (h : s.Stage target) (hk : s.closers[k]? = some .begun)
    (hopen : s.traffic.line.closed = false) {traffic : Traffic} (hmove : s.traffic.Step .shut traffic) :
    Stage target (s.setCloser k .shut traffic) := by
  cases h with
  | opened _ hbegun =>
    cases hmove with
    | shut =>
      refine .shut rfl rfl (getElem?_set_of_some_self hk _) fun j closer hjk hj => Or.inl ?_
      rcases getElem?_set_cases hk hj with ⟨rfl, -⟩ | ⟨-, hold⟩
      · exact absurd rfl hjk
      · exact hbegun closer (List.mem_of_getElem? hold)
    | otherEnd hforeign => cases hforeign
  | shut hclosed => cases hclosed.symm.trans hopen
  | down hdown => cases hdown.closed.symm.trans hopen

theorem Stage.tornDown (h : s.Stage target) (halone : s.traffic.line.Alone) (hk : s.closers[k]? = some .shut)
    {traffic : Traffic} (hmove : s.traffic.Step .tearDown traffic) : Stage target (s.setCloser k .down traffic) := by
  cases h with
  | opened _ hbegun => cases hbegun _ (List.mem_of_getElem? hk)
  | shut hclosed _ hj hothers =>
    cases hothers.eq hk (Or.inl rfl)
    cases hmove with
    | tornDown _ hdialing =>
      refine .down ⟨?_, hdialing, halone.tearDown⟩ (getElem?_set_of_some_self hk _) (Or.inl rfl) (hothers.set_self hk _)
      exact (Line.tearDown_closed _).trans hclosed
    | otherEnd hforeign => cases hforeign
  | down _ hj hcloser hothers =>
    cases hothers.eq hk (Or.inl rfl)
    cases hk.symm.trans hj
    rcases hcloser with hdown | hok
    · cases hdown
    · cases hok

theorem Stage.finished (h : s.Stage target) (hk : s.closers[k]? = some .down) :
    Stage target (s.setCloser k (.returned (.ok ())) s.traffic) := by
  cases h with
  | opened _ hbegun => cases hbegun _ (List.mem_of_getElem? hk)
  | shut _ _ hj hothers =>
    cases hothers.eq hk (Or.inr (Or.inl rfl))
    cases hk.symm.trans hj
  | down hdown _ _ hothers =>
    cases hothers.eq hk (Or.inr (Or.inl rfl))
    exact .down hdown (getElem?_set_of_some_self hk _) (Or.inr rfl) (hothers.set_self hk _)

theorem Sound.step (h : s.Sound target) (hstep : s.Step move s') : s'.Sound target := by
  have hmoved : ∀ {m : Move} {traffic : Traffic}, s.traffic.step? m = some traffic →
      traffic.Sound ∧ traffic.Tidy target := fun hmove =>
    ⟨h.traffic.step hmove, h.tidy.step h.traffic (Traffic.step_of_step? hmove)⟩
  cases hstep with
  | pass hshut htearDown hmove =>
    exact ⟨(hmoved hmove).1, (hmoved hmove).2, h.stage.pass h.traffic (Traffic.step_of_step? hmove) hshut htearDown⟩
  | close => exact ⟨h.traffic, h.tidy, h.stage.close⟩
  | refused hk hclosed =>
    rw [h.tidy.target]
    exact ⟨h.traffic, h.tidy, h.stage.refused hk hclosed⟩
  | shut hk hopen hmove =>
    exact ⟨(hmoved hmove).1, (hmoved hmove).2, h.stage.shut_of_open hk hopen (Traffic.step_of_step? hmove)⟩
  | tornDown hk hmove =>
    exact ⟨(hmoved hmove).1, (hmoved hmove).2, h.stage.tornDown h.tidy.alone hk (Traffic.step_of_step? hmove)⟩
  | finished hk => exact ⟨h.traffic, h.tidy, h.stage.finished hk⟩

theorem Sound.run {moves : List SessionMove} (h : s.Sound target) (hrun : run moves s = some s') :
    s'.Sound target := by
  induction moves generalizing s with
  | nil =>
    cases hrun
    exact h
  | cons move moves ih =>
    obtain ⟨s₁, hstep, hrun⟩ := Option.bind_eq_some_iff.1 hrun
    exact ih (h.step (step_of_step? hstep)) hrun

theorem Step.traffic (h : s.Step move s') : s'.traffic = s.traffic ∨ ∃ m, s.traffic.step? m = some s'.traffic := by
  cases h with
  | pass _ _ hmove => exact Or.inr ⟨_, hmove⟩
  | shut _ _ hmove => exact Or.inr ⟨_, hmove⟩
  | tornDown _ hmove => exact Or.inr ⟨_, hmove⟩
  | _ => exact Or.inl rfl

theorem exists_run_traffic {moves : List SessionMove} (hrun : run moves s = some s') :
    ∃ moves', Traffic.run moves' s.traffic = some s'.traffic := by
  induction moves generalizing s with
  | nil =>
    cases hrun
    exact ⟨[], rfl⟩
  | cons move moves ih =>
    obtain ⟨s₁, hstep, hrun⟩ := Option.bind_eq_some_iff.1 hrun
    obtain ⟨moves', hmoves'⟩ := ih hrun
    rcases (step_of_step? hstep).traffic with hsame | ⟨m, hm⟩
    · exact ⟨moves', hsame ▸ hmoves'⟩
    · exact ⟨m :: moves', Option.bind_eq_some_iff.2 ⟨_, hm, hmoves'⟩⟩

end Session

end PeerMesh.Tcp
