import Mathlib.Data.List.Induction
import PeerMesh.Proofs.Lists
import PeerMesh.World.Schedule

/-!
# Activities in any order of their effects

Several activities of members at the same time, with nothing said of whose turn it is. A task performs its next
effect whenever it is not asleep; what comes between two of its effects may be anything that other tasks do.

* `Crowd` : activities under way in a world, and what they did (`Deed`);
* `Crowd.Move`, `Crowd.step?` : a new activity, one effect of a task, or time that passes;
* `Crowd.run`, `Crowd.run_induction` : many moves, and what every move preserves;
* `Crowd.Passes`, `Crowd.Goes` : the crowds that a run goes through, and its moves (`Crowd.Passes.induction`);
* `Crowd.split_induction` : what every move preserves, given the moves that are yet to come;
* `Crowd.Step`, `Crowd.step_of_step?` : all that one move can do;
* `Crowd.exists_run_poll` : a scheduler that lets a task go on for as long as it can makes such moves.
-/

namespace PeerMesh

/-! ## Crowds -/

/-- What a task asked of its surroundings, and what it got. -/
structure Deed where
  task : Nat
  effect : Effect
  /-- Nothing if there will never be a result. -/
  result : Option effect.Result

/-- Activities of members under way in a world. -/
structure Crowd (σ α : Type) where
  world : World σ
  tasks : List (Task α) := []
  /-- What the tasks did, the last first. -/
  deeds : List Deed := []

namespace Crowd

variable {σ α : Type}

inductive Move (α : Type) where
  /-- A member sets out on an activity. -/
  | start (member : Nat) (activity : Activity α)
  /-- A task performs its next effect. -/
  | go (task : Nat)
  /-- The clock goes on to the given time, and the calendar is read anew. -/
  | wait (time : Nat) (date : Int64)

def Rests (s : Crowd σ α) : Prop := ∀ t ∈ s.tasks, ∃ a, t.rest = .done a

theorem rests_iff {s : Crowd σ α} : s.Rests ↔ s.tasks.all (fun t => t.value?.isSome) = true := by
  have hdone : ∀ t : Task α, (∃ a, t.rest = .done a) ↔ t.value?.isSome = true := by
    intro t
    unfold Task.value?
    cases t.rest with
    | done a => simp
    | perform e next => simp
  simp only [Rests, hdone, List.all_eq_true]

def start (s : Crowd σ α) (member : Nat) (activity : Activity α) : Crowd σ α :=
  { s with
    world := { s.world with tickets := s.world.tickets + 1 }
    tasks := s.tasks ++ [{ member, ticket := ⟨s.world.tickets⟩, rest := activity }] }

def wait (s : Crowd σ α) (time : Nat) (date : Int64) : Crowd σ α :=
  { s with world := { s.world.waitUntil time with date } }

/-- What the outcome of an effect makes of the task that performed it. A task that is blocked will ask for the same
effect again. -/
def after (s : Crowd σ α) (k : Nat) (t : Task α) {e : Effect} (next : e.Result → Activity α) :
    Outcome e.Result × World σ → Crowd σ α
  | (.ready time r, w) =>
    { world := w, tasks := s.tasks.set k { t with rest := next r, wake := time }, deeds := ⟨k, e, some r⟩ :: s.deeds }
  | (.blocked, w) => { s with world := w }
  | (.never, w) =>
    { world := w, tasks := s.tasks.set k { t with stuck := true }, deeds := ⟨k, e, none⟩ :: s.deeds }

variable [Network σ]

def go (s : Crowd σ α) (k : Nat) : Option (Crowd σ α) := do
  let t ← s.tasks[k]?
  if t.stuck ∨ s.world.elapsed < t.wake then none
  else
    match t.rest with
    | .done _ => none
    | .perform e next => some (s.after k t next (s.world.perform t.member t.ticket e))

def step? (s : Crowd σ α) : Move α → Option (Crowd σ α)
  | .start member activity => some (s.start member activity)
  | .go k => s.go k
  | .wait time date => some (s.wait time date)

def run : List (Move α) → Crowd σ α → Option (Crowd σ α)
  | [], s => some s
  | move :: moves, s => (s.step? move).bind (run moves)

/-! ## All that one move can do -/

inductive Step (s : Crowd σ α) : Move α → Crowd σ α → Prop where
  | start (member : Nat) (activity : Activity α) : Step s (.start member activity) (s.start member activity)
  | wait (time : Nat) (date : Int64) : Step s (.wait time date) (s.wait time date)
  | go {k : Nat} {t : Task α} {e : Effect} {next : e.Result → Activity α} (ht : s.tasks[k]? = some t)
      (hrest : t.rest = .perform e next) (hstuck : t.stuck = false) :
      Step s (.go k) (s.after k t next (s.world.perform t.member t.ticket e))

theorem step_of_go {s s' : Crowd σ α} {k : Nat} (h : s.go k = some s') : s.Step (.go k) s' := by
  unfold go at h
  obtain ⟨t, ht, h⟩ := Option.bind_eq_some_iff.1 h
  by_cases hasleep : t.stuck ∨ s.world.elapsed < t.wake
  · simp only [hasleep, if_true] at h
    cases h
  · simp only [hasleep, if_false] at h
    have hstuck : t.stuck = false := by
      rw [not_or] at hasleep
      simpa using hasleep.1
    cases hrest : t.rest with
    | done a =>
      rw [hrest] at h
      cases h
    | perform e next =>
      simp only [hrest, Option.some.injEq] at h
      subst h
      exact .go ht hrest hstuck

theorem step_of_step? {s s' : Crowd σ α} {m : Move α} (h : s.step? m = some s') : s.Step m s' := by
  cases m with
  | start member activity =>
    cases h
    exact .start member activity
  | go k => exact step_of_go h
  | wait time date =>
    cases h
    exact .wait time date

theorem Step.eq_after {s s' : Crowd σ α} {k : Nat} {t : Task α} {e : Effect} {next : e.Result → Activity α}
    (h : s.Step (.go k) s') (ht : s.tasks[k]? = some t) (hrest : t.rest = .perform e next) :
    t.stuck = false ∧ s' = s.after k t next (s.world.perform t.member t.ticket e) := by
  cases h with
  | go ht' hrest' hstuck =>
    cases ht.symm.trans ht'
    cases hrest.symm.trans hrest'
    exact ⟨hstuck, rfl⟩

theorem Step.exists_task {s s' : Crowd σ α} {k : Nat} (h : s.Step (.go k) s') : ∃ t, s.tasks[k]? = some t := by
  cases h with
  | go ht _ _ => exact ⟨_, ht⟩

theorem Step.ne_done {s s' : Crowd σ α} {k : Nat} {t : Task α} (h : s.Step (.go k) s') (ht : s.tasks[k]? = some t)
    (a : α) : t.rest ≠ .done a := by
  cases h with
  | go ht' hrest' _ =>
    cases ht.symm.trans ht'
    rw [hrest']
    nofun

/-! ## Many moves -/

theorem run_append (before after : List (Move α)) (s : Crowd σ α) :
    s.run (before ++ after) = (s.run before).bind fun s' => s'.run after := by
  induction before generalizing s with
  | nil => rfl
  | cons m before ih =>
    have hih : (fun s => run (before ++ after) s) = fun s => (run before s).bind fun s' => run after s' := funext ih
    show (s.step? m).bind (fun s => run (before ++ after) s) = _
    rw [hih]
    show _ = ((s.step? m).bind fun s => run before s).bind _
    rw [Option.bind_assoc]

theorem run_induction {P : Crowd σ α → Prop} {may : Move α → Prop}
    (hstep : ∀ s m s', P s → may m → s.step? m = some s' → P s') {moves : List (Move α)}
    (hmoves : ∀ m ∈ moves, may m) {s s' : Crowd σ α} (hs : P s) (h : s.run moves = some s') : P s' := by
  induction moves generalizing s with
  | nil =>
    cases h
    exact hs
  | cons m moves ih =>
    obtain ⟨r, hr, hrun⟩ := Option.bind_eq_some_iff.1 h
    have hmay : may m := hmoves m List.mem_cons_self
    apply ih (fun m' hm' => hmoves m' (List.mem_cons_of_mem m hm')) _ hrun
    exact hstep s m r hs hmay hr

/-- A crowd that a run goes through. -/
def Passes (s : Crowd σ α) (moves : List (Move α)) (r : Crowd σ α) : Prop :=
  ∃ before after, moves = before ++ after ∧ s.run before = some r

/-- A move that a run makes, from one crowd to the next. -/
def Goes (s : Crowd σ α) (moves : List (Move α)) (m : Move α) (r r' : Crowd σ α) : Prop :=
  ∃ before after, moves = before ++ m :: after ∧ s.run before = some r ∧ r.step? m = some r'

section

variable {s s' r r' : Crowd σ α} {m n : Move α} {moves : List (Move α)}

theorem Passes.refl (s : Crowd σ α) (moves : List (Move α)) : s.Passes moves s := ⟨[], moves, rfl, rfl⟩

theorem Passes.mem (h : s.run moves = some s') : s.Passes moves s' := ⟨moves, [], (List.append_nil moves).symm, h⟩

theorem Goes.passes (h : s.Goes moves m r r') : s.Passes moves r := by
  obtain ⟨before, after, rfl, hrun, -⟩ := h
  exact ⟨before, m :: after, rfl, hrun⟩

theorem run_concat {before : List (Move α)} (hrun : s.run before = some r) (hstep : r.step? m = some r') :
    s.run (before ++ [m]) = some r' := by
  rw [run_append, hrun, Option.bind_some]
  simp only [run, hstep, Option.bind_some]

theorem Goes.passes_next (h : s.Goes moves m r r') : s.Passes moves r' := by
  obtain ⟨before, after, rfl, hrun, hstep⟩ := h
  exact ⟨before ++ [m], after, by simp, run_concat hrun hstep⟩

theorem Goes.step? (h : s.Goes moves m r r') : r.step? m = some r' := by
  obtain ⟨-, -, -, -, hstep⟩ := h
  exact hstep

theorem goes_cons_iff {s₁ : Crowd σ α} (h : s.step? m = some s₁) :
    s.Goes (m :: moves) n r r' ↔ (n = m ∧ r = s ∧ r' = s₁) ∨ s₁.Goes moves n r r' := by
  constructor
  · rintro ⟨before, after, hsplit, hrun, hstep⟩
    cases before with
    | nil =>
      cases hsplit
      cases hrun
      exact Or.inl ⟨rfl, rfl, Option.some.inj (hstep.symm.trans h)⟩
    | cons m' before =>
      cases hsplit
      obtain ⟨s₂, hs₂, hrun⟩ := Option.bind_eq_some_iff.1 hrun
      cases h.symm.trans hs₂
      exact Or.inr ⟨before, after, rfl, hrun, hstep⟩
  · rintro (⟨rfl, rfl, rfl⟩ | ⟨before, after, rfl, hrun, hstep⟩)
    · exact ⟨[], moves, rfl, rfl, h⟩
    · refine ⟨m :: before, after, rfl, ?_, hstep⟩
      simp only [run, h, Option.bind_some, hrun]

theorem forall_goes_cons {P : Crowd σ α → Crowd σ α → Prop} {s₁ : Crowd σ α} (h : s.step? m = some s₁)
    (hfirst : P s s₁) (hrest : ∀ n r r', s₁.Goes moves n r r' → P r r') :
    ∀ n r r', s.Goes (m :: moves) n r r' → P r r' := by
  intro n r r' hgoes
  rcases (goes_cons_iff h).1 hgoes with ⟨-, rfl, rfl⟩ | hgoes
  · exact hfirst
  · exact hrest n r r' hgoes

theorem not_goes_nil : ¬s.Goes [] n r r' := by
  rintro ⟨before, after, hsplit, -⟩
  simp at hsplit

theorem Goes.mem (h : s.Goes moves m r r') : m ∈ moves := by
  obtain ⟨before, after, rfl, -⟩ := h
  simp

theorem Passes.after {before later : List (Move α)} (hrun : s.run before = some r) (h : r.Passes later r') :
    s.Passes (before ++ later) r' := by
  obtain ⟨first, rest, rfl, hr'⟩ := h
  refine ⟨before ++ first, rest, by rw [List.append_assoc], ?_⟩
  rw [run_append, hrun, Option.bind_some, hr']

theorem Goes.after {q : Crowd σ α} {before later : List (Move α)} (hrun : s.run before = some q)
    (h : q.Goes later m r r') : s.Goes (before ++ later) m r r' := by
  obtain ⟨first, rest, rfl, hr, hstep⟩ := h
  refine ⟨before ++ first, rest, by rw [List.append_assoc], ?_, hstep⟩
  rw [run_append, hrun, Option.bind_some, hr]

theorem Passes.exists_run (h : s.Passes moves r) (hrun : s.run moves = some s') :
    ∃ after, (∀ m ∈ after, m ∈ moves) ∧ r.run after = some s' := by
  obtain ⟨before, after, rfl, hr⟩ := h
  rw [run_append, hr, Option.bind_some] at hrun
  exact ⟨after, fun m hm => List.mem_append_right before hm, hrun⟩

theorem split_induction {P : List (Move α) → Crowd σ α → Prop} (hs : P moves s)
    (hstep : ∀ before m after r r', moves = before ++ m :: after → s.run before = some r → r.step? m = some r' →
      P (m :: after) r → P after r')
    {before after : List (Move α)} (hsplit : moves = before ++ after) (hrun : s.run before = some r) : P after r := by
  induction before using List.reverseRecOn generalizing after r with
  | nil =>
    cases hsplit
    cases hrun
    exact hs
  | append_singleton before m ih =>
    rw [run_append] at hrun
    obtain ⟨r₁, hr₁, hlast⟩ := Option.bind_eq_some_iff.1 hrun
    have hsplit' : moves = before ++ m :: after := by rw [hsplit, List.append_assoc, List.singleton_append]
    have hm : r₁.step? m = some r := by simpa [run] using hlast
    exact hstep before m after r₁ r hsplit' hr₁ hm (ih hsplit' hr₁)

theorem Passes.induction {P : Crowd σ α → Prop} (hs : P s) (hstep : ∀ m r r', s.Goes moves m r r' → P r → P r')
    (h : s.Passes moves r) : P r := by
  obtain ⟨before, after, hmoves, hrun⟩ := h
  refine split_induction (P := fun _ => P) hs (fun before m after r r' hsplit hr hm => ?_) hmoves hrun
  exact hstep m r r' ⟨before, after, hsplit, hr, hm⟩

end

/-! ## What a scheduler does -/

/-- A task that goes on until it is blocked, asleep or done makes moves of its own, one after another. -/
theorem exists_run_poll {s : Crowd σ α} {k : Nat} {t : Task α} (ht : s.tasks[k]? = some t) (hstuck : t.stuck = false)
    (hwake : t.wake ≤ s.world.elapsed) (moved : Bool) :
    ∃ moves s' t', s.run moves = some s' ∧ (∀ m ∈ moves, m = .go k) ∧ s'.tasks = s.tasks.set k t' ∧
      s'.world = (World.poll t.member t.ticket moved t.rest s.world).world ∧
      t'.rest = (World.poll t.member t.ticket moved t.rest s.world).rest ∧
      t'.stuck = (World.poll t.member t.ticket moved t.rest s.world).stuck := by
  obtain ⟨member, ticket, wake, rest, stuck⟩ := t
  dsimp only at hstuck hwake
  subst hstuck
  induction rest generalizing s wake moved with
  | done a => exact ⟨[], s, _, rfl, by simp, (set_of_some_self ht).symm, rfl, rfl, rfl⟩
  | perform e next ih =>
    have hgo : s.step? (.go k) = some (s.after k ⟨member, ticket, wake, .perform e next, false⟩ next
        (s.world.perform member ticket e)) := by
      show s.go k = _
      unfold go
      rw [ht]
      simp only [Option.bind_eq_bind, Option.bind_some, Bool.false_eq_true, false_or]
      rw [if_neg (Nat.not_lt.2 hwake)]
    have hone : ∀ m ∈ [Move.go (α := α) k], m = .go k := by simp
    simp only [World.poll]
    match he : s.world.perform member ticket e with
    | (.blocked, w) =>
      rw [he] at hgo
      refine ⟨[.go k], { s with world := w }, _, ?_, hone, (set_of_some_self ht).symm, rfl, rfl, rfl⟩
      unfold run
      rw [hgo]
      rfl
    | (.never, w) =>
      rw [he] at hgo
      refine ⟨[.go k], ⟨w, s.tasks.set k ⟨member, ticket, wake, .perform e next, true⟩, ⟨k, e, none⟩ :: s.deeds⟩, _, ?_,
        hone, rfl, rfl, rfl, rfl⟩
      unfold run
      rw [hgo]
      rfl
    | (.ready time r, w) =>
      rw [he] at hgo
      dsimp only [after] at hgo ⊢
      by_cases htime : time ≤ w.elapsed
      · rw [if_pos htime]
        have hk : k < s.tasks.length := (List.getElem?_eq_some_iff.1 ht).1
        obtain ⟨moves, s', t', hrun, hmoves, htasks, ht'⟩ := ih r
          (s := ⟨w, s.tasks.set k ⟨member, ticket, time, next r, false⟩, ⟨k, e, some r⟩ :: s.deeds⟩) true time htime
          (List.getElem?_set_self hk)
        refine ⟨.go k :: moves, s', t', ?_, ?_, ?_, ht'⟩
        · simp only [run, hgo, Option.bind_some, hrun]
        · simpa using hmoves
        · rw [htasks, List.set_set]
      · rw [if_neg htime]
        refine ⟨[.go k], ⟨w, s.tasks.set k ⟨member, ticket, time, next r, false⟩, ⟨k, e, some r⟩ :: s.deeds⟩, _, ?_,
          hone, rfl, rfl, rfl, rfl⟩
        unfold run
        rw [hgo]
        rfl

end Crowd

end PeerMesh
