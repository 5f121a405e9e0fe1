import PeerMesh.Node
import PeerMesh.Sample
import PeerMesh.Table

/-!
# The store of one node

* `Store` : the nodes and the samples a node knows of, each under its id;
* `putNode`, `addNode`, `setHealth`, `removeNode` : the four ways in which the node table changes. A
  known id keeps its address whatever is put under it, and its moment of change moves only when its
  health does;
* `node?`, `nodeNamed?`, `nodes`, `nodesIn`, `drawNodes` : the ways to read it;
* `putSample`, `sample?` : the last sample of an id wins.
-/

namespace PeerMesh

structure Store where
  nodeTable : Table NodeId Node := {}
  sampleTable : Table SampleId Sample := {}
  deriving Inhabited

namespace Store

/-! ## Nodes -/

/-- Puts a record in: a known id takes over name, health and moment, an unknown one the whole record. -/
def putNode (s : Store) (n : Node) : Store :=
  { s with nodeTable :=
      if s.nodeTable.contains n.id then
        s.nodeTable.modify n.id fun old =>
          { old with name := n.name, health := n.health, changedAt := n.changedAt }
      else s.nodeTable.insert n.id n }

/-- Puts a record in unless its id is known; tells whether it did. -/
def addNode (s : Store) (n : Node) : Bool × Store :=
  if s.nodeTable.contains n.id then (false, s)
  else (true, { s with nodeTable := s.nodeTable.insert n.id n })

def node? (s : Store) (id : NodeId) : Option Node := s.nodeTable.get? id

/-- The first record, in the order of the table, with the given name. -/
def nodeNamed? (s : Store) (name : String) : Option Node := s.nodeTable.find? fun n => n.name = name

/-- Records the health of a known node at the moment `now`; tells whether the node is known. -/
def setHealth (s : Store) (id : NodeId) (health : Health) (now : Int64) : Bool × Store :=
  (s.nodeTable.contains id,
    { s with nodeTable := s.nodeTable.modify id fun n =>
        if n.health = health then n else { n with health, changedAt := now } })

def removeNode (s : Store) (id : NodeId) : Option Node × Store :=
  (s.node? id, { s with nodeTable := s.nodeTable.erase id })

def nodes (s : Store) : List Node := s.nodeTable.values

def nodesIn (s : Store) (health : Health) : List Node := s.nodes.filter fun n => n.health = health

/-- Up to `n` members of a list at different places: the `k`-th draw chooses among those left. -/
def draw {α : Type} (draws : Nat → Nat) : Nat → List α → List α
  | 0, _ => []
  | n + 1, xs =>
    match xs[draws 0 % xs.length]? with
    | none => []
    | some x => x :: draw (fun k => draws (k + 1)) n (xs.eraseIdx (draws 0 % xs.length))

/-- Up to `n` different records with the given health, as chance has it. -/
def drawNodes (s : Store) (health : Health) (n : Nat) (draws : Nat → Nat) : List Node :=
  draw draws n (s.nodesIn health)

/-! ## Samples -/

/-- Puts a sample in, in the place of an older one with its id. -/
def putSample (s : Store) (x : Sample) : Store := { s with sampleTable := s.sampleTable.insert x.id x }

def sample? (s : Store) (id : SampleId) : Option Sample := s.sampleTable.get? id

def samples (s : Store) : List Sample := s.sampleTable.values

end Store

end PeerMesh
