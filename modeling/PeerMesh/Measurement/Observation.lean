import PeerMesh.Identity

/-!
# Observations

* `Observation` : a measured time, as it is reported while the node runs;
* `HistogramEntry` : an observation as a collector of histograms receives it.
-/

namespace PeerMesh

structure Observation where
  kind : SampleKind
  /-- The name of the node that was measured. -/
  peer : String
  seconds : Float
  deriving Repr, Inhabited

/-- A value for a histogram, with the labels that tell its series. -/
structure HistogramEntry where
  histogram : String
  labels : List (String × String)
  value : Float
  deriving Repr, Inhabited

namespace Observation

def roundTrips : String := "mesh_rtt_seconds"

/-- The entry for the histogram of round-trip times. -/
def entry (o : Observation) : HistogramEntry :=
  { histogram := roundTrips, labels := [("sample", o.kind.name), ("peer", o.peer)], value := o.seconds }

end Observation

end PeerMesh
