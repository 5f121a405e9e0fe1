import PeerMesh.Message
import PeerMesh.Wire.Format

/-!
# The formats of what nodes send each other

Every structure is written field by field in the order of its definition; every variant by its number
and then its contents.
-/

namespace PeerMesh.Wire

def peer : Format Peer := (text.pair text).map (fun x => ⟨x.1, x.2⟩) fun p => (p.name, p.target)

def health : Format Health :=
  (tag 3).map
    (fun | 0 => .ok | 1 => .warning | 2 => .notOk)
    (fun | .ok => 0 | .warning => 1 | .notOk => 2)

def sampleKind : Format SampleKind :=
  (tag 2).map (fun | 0 => .rttTotal | 1 => .rttRequest) (fun | .rttTotal => 0 | .rttRequest => 1)

def reading : Format Reading :=
  (text.pair (text.pair (sampleKind.pair (text.pair int64)))).map
    (fun x => ⟨x.1, x.2.1, x.2.2.1, x.2.2.2.1, x.2.2.2.2⟩)
    (fun r => (r.source, r.dest, r.kind, r.value, r.takenAt))

def joinReply : Format JoinReply :=
  (bool.pair (text.pair (list peer))).map
    (fun x => ⟨x.1, x.2.1, x.2.2⟩) (fun r => (r.nameUnique, r.responder, r.nodes))

def announcement : Format Announcement :=
  (peer.pair peer).map (fun x => ⟨x.1, x.2⟩) (fun a => (a.newcomer, a.announcer))

def request : Format Request where
  encode
    | .joinMesh joiner => (tag 5).encode 0 ++ peer.encode joiner
    | .ping sender => (tag 5).encode 1 ++ peer.encode sender
    | .nodeDiscovery word => (tag 5).encode 2 ++ announcement.encode word
    | .pushSamples readings => (tag 5).encode 3 ++ (list reading).encode readings
    | .rtt => (tag 5).encode 4
  decode := do
    match ← (tag 5).decode with
    | 0 => .joinMesh <$> peer.decode
    | 1 => .ping <$> peer.decode
    | 2 => .nodeDiscovery <$> announcement.decode
    | 3 => .pushSamples <$> (list reading).decode
    | 4 => pure .rtt

def response : Format Response where
  encode
    | .joinMesh reply => (tag 3).encode 0 ++ joinReply.encode reply
    | .empty => (tag 3).encode 1
    | .failure message => (tag 3).encode 2 ++ text.encode message
  decode := do
    match ← (tag 3).decode with
    | 0 => .joinMesh <$> joinReply.decode
    | 1 => pure .empty
    | 2 => .failure <$> text.decode

def frame {α : Type} (f : Format α) : Format (Frame α) :=
  (word64.pair f).map (fun x => ⟨x.1, x.2⟩) (fun x => (x.callId, x.body))

end PeerMesh.Wire
