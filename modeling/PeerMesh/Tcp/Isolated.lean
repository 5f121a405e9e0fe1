import PeerMesh.Tcp.Network

/-!
# A machine without a network

* `Isolated` : a machine that is joined to no network, not even with itself;
* `Isolated.locate` : the number of a host. Nobody can be asked for it, so only one name is known;
* `Isolated.reach` : no address is reached;
* `Isolated.bind` : any address of version 4 may be listened on that nobody listens on yet, and of version
  6 only all addresses at once.
-/

namespace PeerMesh.Tcp

structure Isolated where
  /-- The addresses on which connections are accepted already. -/
  taken : List (Bytes × UInt16) := []

namespace Isolated

/-- Whether a text may be the name of a host: labels of letters, digits, hyphens and underscores, with
dots in between and one that may follow, and no hyphen in front. -/
def isHostName (chars : List Char) : Bool :=
  let labels := List.splitOn '.' (if chars.getLast? = some '.' then chars.dropLast else chars)
  let wellFormed (label : List Char) : Bool :=
    !label.isEmpty && decide (label.length ≤ 63) && label.all fun c => c.isAlphanum || c = '-' || c = '_'
  chars = ['.'] ||
    decide (chars.length ≤ 254) && chars.head? ≠ some '-' && labels.all wellFormed

def locate (host : String) : Except IoFault Ip :=
  match hostNumber? host.toList with
  | some ip => .ok { ip with octets := versionFour ip.octets }
  | none =>
    if host.toLower = "localhost" then .ok { octets := [127, 0, 0, 1] }
    else .error (if isHostName host.toList then .lookupFailed else .hostUnknown)

/-- Whether an address of version 6 is that of many hosts at once. -/
def isGroup (octets : Bytes) : Bool := octets.length = 16 && octets.head? = some 0xFF

/-- Whether an address of version 6 means something on one interface only. -/
def isLinkLocal (octets : Bytes) : Bool :=
  match octets with
  | 0xFE :: b :: _ => octets.length = 16 && b &&& 0xC0 = 0x80
  | _ => false

def reach (address : Address) : Except IoFault Endpoint := do
  let ip ← locate address.host
  throw <|
    if ip.octets.length = 4 ∨ isGroup ip.octets then .networkUnreachable
    else if isLinkLocal ip.octets ∧ ip.scope = 0 then .invalidArgument
    else .addressUnavailable

/-- Whether octets stand for all addresses of the machine. -/
def isAny (octets : Bytes) : Bool := octets.all (· = 0)

/-- Whether two addresses cannot both be listened on. The port zero stands for one that is free. -/
def clash (a b : Bytes × UInt16) : Bool :=
  a.2 ≠ 0 && a.2 = b.2 && (a.1 = b.1 || isAny a.1 || isAny b.1)

/-- Starts to accept connections on the address that a text stands for. Of interfaces there is only the
first. -/
def bind (m : Isolated) (text : String) : Except IoFault Unit := do
  let address ← Address.read text
  let ip ← locate address.host
  if ip.octets.length = 4 ∨ isAny ip.octets then
    if m.taken.any (clash (ip.octets, address.port)) then throw .addressInUse
  else if isGroup ip.octets ∨ isLinkLocal ip.octets ∧ ip.scope = 0 then throw .invalidArgument
  else if isLinkLocal ip.octets ∧ ip.scope ≠ 1 then throw .noDevice
  else throw .addressUnavailable

def network : TcpNetwork := { reach }

end Isolated

end PeerMesh.Tcp
