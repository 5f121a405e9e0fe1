import PeerMesh.World.Basic

/-!
# Activities at the same time

* `Task` : an activity under way, at work or asleep until a moment;
* `World.poll` : a task goes on until it is blocked, asleep or done;
* `World.round` : every task in turn, and then the announcements that have come up;
* `World.together` : rounds until nothing can go on. When no task can go on before its moment comes,
  the clock goes on to the first of these moments.
-/

namespace PeerMesh

structure Task (α : Type) where
  member : Nat
  ticket : Ticket
  /-- The moment before which the task does not go on. -/
  wake : Nat := 0
  rest : Activity α
  /-- Whether the task waits for something that never comes. -/
  stuck : Bool := false

namespace Task

variable {α : Type}

def value? (t : Task α) : Option α :=
  match t.rest with
  | .done a => some a
  | .perform _ _ => none

def alive (t : Task α) : Bool := t.value?.isNone && !t.stuck

end Task

namespace World

variable {σ : Type} [Network σ] {α : Type}

structure Progress (σ α : Type) where
  world : World σ
  rest : Activity α
  wake : Nat := 0
  stuck : Bool := false
  /-- Whether any effect was performed. -/
  moved : Bool := false

def poll (member : Nat) (ticket : Ticket) (moved : Bool) :
    Activity α → World σ → Progress σ α
  | .done a, w => { world := w, rest := .done a, moved }
  | .perform e next, w =>
    match w.perform member ticket e with
    | (.ready time result, w) =>
      if time ≤ w.elapsed then poll member ticket true (next result) w
      else { world := w, rest := next result, wake := time, moved := true }
    | (.blocked, w) => { world := w, rest := .perform e next, moved }
    | (.never, w) => { world := w, rest := .perform e next, stuck := true, moved := true }

/-- Every task in turn, if its moment has come; tells whether any effect was performed. -/
def pollAll (w : World σ) : List (Task α) → List (Task α) × Bool × World σ
  | [] => ([], false, w)
  | t :: ts =>
    if t.alive && decide (t.wake ≤ w.elapsed) then
      let p := poll t.member t.ticket false t.rest w
      let (ts, moved, w) := p.world.pollAll ts
      ({ t with rest := p.rest, wake := p.wake, stuck := p.stuck } :: ts, p.moved || moved, w)
    else
      let (ts, moved, w) := w.pollAll ts
      (t :: ts, moved, w)

def tasks (w : World σ) (activities : List (Nat × Activity α)) : List (Task α) × World σ :=
  (activities.zipIdx.map fun ((member, rest), i) => { member, ticket := ⟨w.tickets + i⟩, rest },
    { w with tickets := w.tickets + activities.length })

def announcements (w : World σ) : List (Nat × Activity (Option α)) :=
  w.outbox.filterMap fun (member, notice) =>
    w.members[member]?.map fun m => (member, (fun _ => none) <$> m.profile.announce notice)

def nextWake (w : World σ) (tasks : List (Task α)) : Option Nat :=
  ((tasks.filter fun t => t.alive && decide (w.elapsed < t.wake)).map Task.wake).min?

def rounds : Nat → List (Task (Option α)) → World σ → List (Task (Option α)) × World σ
  | 0, tasks, w => (tasks, w)
  | n + 1, tasks, w =>
    let (old, moved, w) := w.pollAll tasks
    let (new, w) := w.tasks w.announcements
    let tasks := old ++ new
    if moved || !w.outbox.isEmpty then rounds n tasks { w with outbox := [] }
    else
      match w.nextWake tasks with
      | some time => rounds n tasks (w.waitUntil time)
      | none => (tasks, w)

/-- Activities of members at the same time, with all announcements that are waiting or come up. A value
is missing if its activity does not end, within so many rounds. -/
def together (w : World σ) (limit : Nat) (activities : List (Nat × Activity α)) :
    List (Option α) × World σ :=
  let (tasks, w) := w.tasks (activities.map fun a => (a.1, some <$> a.2))
  let (tasks, w) := rounds limit tasks w
  ((tasks.take activities.length).map fun t => t.value?.join, w)

end World

end PeerMesh
