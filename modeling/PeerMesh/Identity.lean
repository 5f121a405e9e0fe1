import PeerMesh.Digest
import PeerMesh.Text.Hex

/-!
# Identities

* `NodeId` : the digest of the address under which a node is reached;
* `SampleKind` : what a sample measures, with its number and its name (`ofNumber?` refuses every
  other number);
* `SampleId` : the digest of measuring node, measured node and kind, written one after the other.
-/

namespace PeerMesh

structure NodeId where
  word : UInt32
  deriving DecidableEq, Repr, Inhabited

namespace NodeId

def ofTarget (target : String) : NodeId := ⟨digest target⟩

def text (id : NodeId) : String := Text.Hex.eight id.word

end NodeId

inductive SampleKind where
  /-- A round trip with the connection's establishment. -/
  | rttTotal
  /-- A round trip of the request alone, on an established connection. -/
  | rttRequest
  deriving DecidableEq, Repr, Inhabited

/-- A number that stands for no kind of sample. -/
structure UnknownSampleKind where
  number : UInt32
  deriving DecidableEq, Repr

def UnknownSampleKind.message (e : UnknownSampleKind) : String :=
  "invalid sample kind: " ++ toString e.number.toNat

namespace SampleKind

def number : SampleKind → UInt32
  | rttTotal => 1
  | rttRequest => 2

def name : SampleKind → String
  | rttTotal => "rtt_total"
  | rttRequest => "rtt_request"

def ofNumber? (n : UInt32) : Except UnknownSampleKind SampleKind :=
  if n = 1 then .ok rttTotal else if n = 2 then .ok rttRequest else .error ⟨n⟩

end SampleKind

structure SampleId where
  word : UInt32
  deriving DecidableEq, Repr, Inhabited

namespace SampleId

/-- The text whose digest names the sample of one edge and kind. -/
def composite (source dest : String) (kind : SampleKind) : String :=
  source ++ dest ++ toString kind.number.toNat

def ofEdge (source dest : String) (kind : SampleKind) : SampleId := ⟨digest (composite source dest kind)⟩

def text (id : SampleId) : String := Text.Hex.eight id.word

end SampleId

end PeerMesh
