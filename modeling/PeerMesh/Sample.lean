import PeerMesh.Identity

/-!
# Samples

* `Reading` : a measured value as it travels, without an id;
* `Sample` : a reading with its id. `Sample.ofReading` derives the id, `Sample.toReading` drops it.
-/

namespace PeerMesh

/-- One measured value of one edge. -/
structure Reading where
  /-- The name of the node that measured. -/
  source : String
  /-- The name of the node that was measured. -/
  dest : String
  kind : SampleKind
  /-- The value, as decimal text. -/
  value : String
  /-- The unix second of the measurement. -/
  takenAt : Int64
  deriving DecidableEq, Repr, Inhabited

/-- What is kept about a measured value. -/
structure Sample extends Reading where
  id : SampleId
  deriving DecidableEq, Repr, Inhabited

namespace Sample

/-- The record of a reading: its id follows from edge and kind. -/
def ofReading (r : Reading) : Sample := { r with id := .ofEdge r.source r.dest r.kind }

def new (source dest : String) (kind : SampleKind) (value : String) (takenAt : Int64) : Sample :=
  ofReading { source, dest, kind, value, takenAt }

end Sample

end PeerMesh
