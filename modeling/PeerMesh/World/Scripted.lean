import PeerMesh.World.Basic

/-!
# A network by script

* `Script` : items used one after the other, the last one for good; with no item all is well;
* `CallAct` : what a call meets;
* `Route` : the scripts of one target;
* `ScriptedNetwork` : routes by target. A target without a route refuses every dial.
-/

namespace PeerMesh

/-- Items that are used one after the other, the last one for good. -/
structure Script (α : Type) where
  items : List α := []
  deriving Inhabited

/-- The item to use now, or else the given one, and the script after it. -/
def Script.next {α : Type} (s : Script α) (otherwise : α) : α × Script α :=
  match s.items with
  | [] => (otherwise, s)
  | [x] => (x, s)
  | x :: xs => (x, ⟨xs⟩)

inductive CallAct where
  | respond (response : Response)
  | remote (message : String)
  | lost
  | fail (error : CallError)
  deriving Repr, Inhabited

def CallAct.result (method : Method) : CallAct → Except CallError Response
  | respond response => .ok response
  | remote message => .error (.remote method message)
  | lost => .error (.lost method)
  | fail error => .error error

structure Route where
  dials : Script (Timed (Except DialError Unit)) := {}
  calls : Script (Timed CallAct) := {}
  closes : Script (Except DialError Unit) := {}
  deriving Inhabited

structure ScriptedNetwork where
  routes : Table String Route := {}
  deriving Inhabited

namespace ScriptedNetwork

def setRoute (n : ScriptedNetwork) (target : String) (route : Route) : ScriptedNetwork :=
  ⟨n.routes.insert target route⟩

def refused (target : String) : DialError := .connect target (.other "refused")

instance : Network ScriptedNetwork where
  dial n channel _ _ :=
    match n.routes.get? channel.target with
    | none => (.now (.error (refused channel.target)), n)
    | some route =>
      let (item, dials) := route.dials.next (.now (.ok ()))
      (item, n.setRoute channel.target { route with dials })
  call n channel request :=
    match n.routes.get? channel.target with
    | none => (.reply (.now (.error (.lost request.method))), n)
    | some route =>
      let (item, calls) := route.calls.next (.now (.respond .empty))
      (.reply ⟨item.delay, item.value.result request.method⟩,
        n.setRoute channel.target { route with calls })
  close n channel :=
    match n.routes.get? channel.target with
    | none => (.ok (), n)
    | some route =>
      let (item, closes) := route.closes.next (.ok ())
      (item, n.setRoute channel.target { route with closes })

end ScriptedNetwork

end PeerMesh
