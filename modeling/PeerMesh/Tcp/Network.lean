import PeerMesh.Tcp.Address
import PeerMesh.Tcp.Line
import PeerMesh.Text.Blank
import PeerMesh.World.Basic

/-!
# A network of TCP addresses

* `Endpoint` : what accepts connections at an address: the certificate it shows, if any, and what it does
  with requests;
* `TcpNetwork` : what is found at each address, and the lines of all channels;
* `TcpNetwork.connect` : the steps of connecting: the address is read, the host is reached, and with
  security the server proves itself by a certificate that is trusted;
* `TcpNetwork.openLine` : a channel to any text, which is judged when a call connects. A dial refuses a
  blank target before that.
-/

namespace PeerMesh.Tcp

/-- What accepts connections at an address. -/
structure Endpoint where
  /-- The certificate that it proves itself by. -/
  certificate : Option Bytes := none
  react : Request → Reaction

/-- What is found at each address, and the lines of all channels. -/
structure TcpNetwork where
  reach : Address → Except IoFault Endpoint
  lines : Table Nat (Line × Security) := {}

namespace TcpNetwork

/-- Whether the server proves itself to the client. -/
def handshake (target : String) (endpoint : Endpoint) (credentials : ClientCredentials) :
    Except DialError Unit :=
  match ServerName.ofTarget? target, endpoint.certificate with
  | none, _ => .error (.invalidTarget target)
  | some _, none => .error (.tls target (.other "tls handshake eof"))
  | some _, some shown =>
    if credentials.roots.any fun root => root.encoded = shown then .ok ()
    else .error (.tls target (.other "invalid peer certificate: BadSignature"))

def connect (n : TcpNetwork) (target : String) (security : Security) : Except DialError Endpoint := do
  let address ← (Address.read target).mapError (.connect target)
  let endpoint ← (n.reach address).mapError (.connect target)
  match security with
  | .insecure => pure endpoint
  | .tls credentials => do
    handshake target endpoint credentials
    pure endpoint

def openLine (n : TcpNetwork) (channel : Channel) (security : Security) : TcpNetwork :=
  { n with lines := n.lines.insert channel.number ({ target := channel.target }, security) }

def connected (n : TcpNetwork) (line : Line) (security : Security) : Except DialError (Endpoint × Line) :=
  match line.ready with
  | .refused error => .error error
  | .connected _ => (n.connect line.target security).map fun endpoint => (endpoint, line)
  | .mustDial => (n.connect line.target security).map fun endpoint => (endpoint, line.opened)

/-- What becomes of a request on a connection. A server that shows a certificate does not understand a
client that does not ask for it. -/
def exchange (endpoint : Endpoint) (security : Security) (number : UInt64) (request : Request) : Reaction :=
  match Wire.send (Wire.frame Wire.request) ⟨number, request⟩ with
  | .error error => .reply (.now (.error (.codec error)))
  | .ok _ =>
    if endpoint.certificate.isSome && !security.isSecure then
      .reply (.now (.error (.lost request.method)))
    else endpoint.react request

instance : Network TcpNetwork where
  dial n channel security mode :=
    if Text.allBlank channel.target then (.now (.error (.invalidTarget channel.target)), n)
    else
      let n := n.openLine channel security
      match mode with
      | .lazy => (.now (.ok ()), n)
      | .blocking =>
        match n.connected { target := channel.target } security with
        | .error error => (.now (.error error), n)
        | .ok (_, line) =>
          (.now (.ok ()), { n with lines := n.lines.insert channel.number (line, security) })
  call n channel request :=
    match n.lines.get? channel.number with
    | none => (.reply (.now (.error (.lost request.method))), n)
    | some (line, security) =>
      match n.connected line security with
      | .error error => (.reply (.now (.error (.dial error))), n)
      | .ok (endpoint, line) =>
        let (number, _, link) := (line.current.getD {}).register ⟨0⟩
        let line := { line with current := some (link.abandon number) }
        (exchange endpoint security number request,
          { n with lines := n.lines.insert channel.number (line, security) })
  close n channel :=
    match n.lines.get? channel.number with
    | none => (.error (.closed channel.target), n)
    | some (line, security) =>
      let (result, _, line) := line.close
      (result, { n with lines := n.lines.insert channel.number (line, security) })

end TcpNetwork

end PeerMesh.Tcp
