import PeerMesh.Bytes
import PeerMesh.Fault

/-!
# Files

* `Files` : what reading a file by its path gives;
* `Disk` : what is found at the places of a disk. A place is told by the names on the way from the root;
* `Disk.enter` : one step on a way;
* `Disk.read` : reads the file to which a path leads. The path as a whole is judged first, and then name
  after name.
-/

namespace PeerMesh

abbrev Files := String → Except IoFault Bytes

inductive Entry where
  | folder
  | file (content : Bytes)
  deriving DecidableEq, Repr, Inhabited

/-- What is found at the places of a disk. -/
structure Disk where
  /-- Every place on the way to one of these is a folder. -/
  entries : List (List String × Entry)
  /-- The folder from which a path leads that has no slash in front. -/
  here : List String := []
  deriving DecidableEq, Repr, Inhabited

namespace Disk

def find? (d : Disk) (place : List String) : Option Entry :=
  match d.entries.lookup place with
  | some entry => some entry
  | none =>
    if place.isPrefixOf d.here || d.entries.any fun e => place.isPrefixOf e.1 then some .folder else none

/-- One step on a way: into a folder, or out of it, or none. -/
def enter (d : Disk) (place : List String) (name : String) : Except IoFault (List String) :=
  match d.find? place with
  | none => .error .notFound
  | some (.file _) => .error .notDirectory
  | some .folder =>
    if name = "" ∨ name = "." then .ok place
    else if name = ".." then .ok place.dropLast
    else if 255 < (utf8 name).length then .error .nameTooLong
    else .ok (place ++ [name])

def locate (d : Disk) (path : String) : Except IoFault (List String) :=
  if path.toList.contains '\x00' then .error .nulInName
  else if 4096 ≤ (utf8 path).length then .error .nameTooLong
  else if path.isEmpty then .error .notFound
  else
    ((List.splitOn '/' path.toList).map String.ofList).foldlM d.enter
      (if path.toList.head? = some '/' then [] else d.here)

def read (d : Disk) : Files := fun path =>
  match d.locate path with
  | .error fault => .error fault
  | .ok place =>
    match d.find? place with
    | none => .error .notFound
    | some .folder => .error .isDirectory
    | some (.file content) => .ok content

end Disk

end PeerMesh
