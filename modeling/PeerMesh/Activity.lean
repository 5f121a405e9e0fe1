import PeerMesh.Connection.Pool
import PeerMesh.Measurement.Observation
import PeerMesh.Profile
import PeerMesh.Store

/-!
# Activities

What a node does is written without saying how its surroundings work.

* `Effect` : one thing that a node may ask of its surroundings, and `Effect.Result` what it gets;
* `Activity α` : effects one after another, each chosen by the results before it, and at last a value;
* `Activity.run` : an activity among surroundings that answer each effect by itself.

Between two effects of one activity another activity of the same node may have its turn; an effect is
never split.
-/

namespace PeerMesh

/-- One thing that a node may ask of its surroundings. -/
inductive Effect where
  /-- Change the store; the result is the store as it was before. -/
  | store (change : Store → Store)
  /-- Change the pool; the result is the pool as it was before. -/
  | pool (change : Pool → Pool)
  /-- Wait for the client of a slot, or for the turn to dial it. -/
  | claim (slot : Nat)
  | dial (target : String) (security : Security) (mode : DialMode) (limit : Option Duration)
  | call (channel : Channel) (request : Request) (limit : Duration)
  | close (channel : Channel)
  /-- Read a clock that never goes back, in nanoseconds. -/
  | elapsed
  | date
  | draw
  | observe (observation : Observation)
  /-- Make announcements in the background; nobody waits for them. -/
  | announce (notices : List Notice)

def Effect.Result : Effect → Type
  | store _ => Store
  | pool _ => Pool
  | claim _ => Option Client
  | dial .. => Except DialError Channel
  | call .. => Except CallError Response
  | close _ => Except DialError Unit
  | elapsed => Nat
  | date => Int64
  | draw => Nat
  | observe _ => Unit
  | announce _ => Unit

/-- Effects one after another, and at last a value. -/
inductive Activity (α : Type) where
  | done (value : α)
  | perform (effect : Effect) (next : effect.Result → Activity α)

namespace Activity

variable {α β : Type}

def andThen : Activity α → (α → Activity β) → Activity β
  | done a, f => f a
  | perform e next, f => perform e fun r => (next r).andThen f

instance : Monad Activity where
  pure := done
  bind := andThen

@[simp] theorem pure_eq (a : α) : (pure a : Activity α) = done a := rfl

@[simp] theorem done_bind (a : α) (f : α → Activity β) : (done a >>= f) = f a := rfl

@[simp] theorem perform_bind (e : Effect) (next : e.Result → Activity α) (f : α → Activity β) :
    (perform e next >>= f) = perform e fun r => next r >>= f := rfl

/-- An activity among surroundings in a state of type `σ` that answer every effect, or never answer. -/
def run {σ : Type} (answer : (e : Effect) → σ → Option e.Result × σ) :
    Activity α → σ → Option α × σ
  | done a, s => (some a, s)
  | perform e next, s =>
    match answer e s with
    | (some r, s) => (next r).run answer s
    | (none, s) => (none, s)

/-! ## Single effects -/

def ask (e : Effect) : Activity e.Result := perform e done

def onStore (f : Store → α × Store) : Activity α := do
  let before : Store ← ask (.store fun s => (f s).2)
  pure (f before).1

def readStore (f : Store → α) : Activity α := onStore fun s => (f s, s)

def onPool (f : Pool → α × Pool) : Activity α := do
  let before : Pool ← ask (.pool fun p => (f p).2)
  pure (f before).1

def claim (slot : Nat) : Activity (Option Client) := ask (.claim slot)

def dial (target : String) (security : Security) (mode : DialMode)
    (limit : Option Duration := none) : Activity (Except DialError Channel) :=
  ask (.dial target security mode limit)

def call (client : Client) (request : Request) : Activity (Except CallError Response) :=
  ask (.call client.channel request client.limit)

/-- Sends a request to which the answer ought to be empty. -/
def callEmpty (client : Client) (request : Request) : Activity (Except PeerError Unit) := do
  let answer ← call client request
  pure (Client.empty client.target request.method answer)

def close (channel : Channel) : Activity (Except DialError Unit) := ask (.close channel)

def elapsed : Activity Nat := ask .elapsed

def date : Activity Int64 := ask .date

def draw : Activity Nat := ask .draw

def observe (observation : Observation) : Activity Unit := ask (.observe observation)

def announce (notices : List Notice) : Activity Unit := ask (.announce notices)

end Activity

end PeerMesh
