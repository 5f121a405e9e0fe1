import PeerMesh.Credentials.Loading
import PeerMesh.Tcp.Address
import Std.Async.DNS
import Std.Async.TCP

/-!
# Files and sockets of this machine

The outer layer: what the library takes as given is asked of the system here.

* `Machine.faultOf` : a refusal of the system as a fault of the library;
* `Machine.readFile` : the octets of a file;
* `Machine.resolve`, `Machine.connect`, `Machine.listen` : sockets for addresses given as text.
-/

namespace PeerMesh.Machine

open Std.Async Std.Net

/-- A refusal of the system by its number and its text. Sockets give the number with its sign turned. -/
def faultNumbered (code : UInt32) (details : String) : IoFault :=
  let number := if code.toInt32 < 0 then (-code.toInt32).toInt else code.toInt32.toInt
  if number = 2 then .notFound
  else if number = 19 then .noDevice
  else if number = 20 then .notDirectory
  else if number = 21 then .isDirectory
  else if number = 22 then .invalidArgument
  else if number = 36 then .nameTooLong
  else if number = 98 then .addressInUse
  else if number = 99 then .addressUnavailable
  else if number = 101 then .networkUnreachable
  else if number = 111 then .connectionRefused
  else if number = 3001 then .lookupFailed
  else if number = 3008 then .hostUnknown
  else .other (details ++ " (os error " ++ toString number ++ ")")

/-- A refusal of the system as a fault of the library. -/
def faultOf : IO.Error → IoFault
  | .noFileOrDirectory _ code details => faultNumbered code details
  | .inappropriateType _ code details => faultNumbered code details
  | .noSuchThing _ code details => faultNumbered code details
  | .permissionDenied _ code details => faultNumbered code details
  | .resourceBusy code details => faultNumbered code details
  | .resourceVanished code details => faultNumbered code details
  | .illegalOperation code details => faultNumbered code details
  | .otherError code details => faultNumbered code details
  | e => .other (toString e)

/-- Runs an action and turns its refusal into a fault. -/
def attempt {α : Type} (action : Async α) : Async (Except IoFault α) := do
  try
    let a ← action
    pure (.ok a)
  catch e => pure (.error (faultOf e))

def readFile (path : String) : IO (Except IoFault Bytes) := do
  if path.toList.contains '\x00' then pure (.error .nulInName)
  else
    match ← (IO.FS.readBinFile path).toBaseIO with
    | .ok bytes => pure (.ok bytes.data.toList)
    | .error e => pure (.error (faultOf e))

def ipOf (octets : Bytes) : IPAddr :=
  match octets with
  | [a, b, c, d] => .v4 (.ofParts a b c d)
  | bs =>
    let group (i : Nat) : UInt16 := .ofNat (ofBE ((bs.drop (2 * i)).take 2))
    .v6 (.ofParts (group 0) (group 1) (group 2) (group 3) (group 4) (group 5) (group 6) (group 7))

def socketAddress (ip : IPAddr) (port : UInt16) : SocketAddress :=
  match ip with
  | .v4 addr => .v4 ⟨addr, port⟩
  | .v6 addr => .v6 ⟨addr, port⟩

/-- The socket addresses that a text stands for. -/
def resolve (text : String) : Async (Except IoFault (List SocketAddress)) := do
  match Tcp.Address.read text with
  | .error fault => pure (.error fault)
  | .ok address =>
    match Tcp.hostNumber? address.host.toList with
    | some ip => pure (.ok [socketAddress (ipOf ip.octets) address.port])
    | none =>
      let found ← attempt (DNS.getAddrInfo address.host "")
      pure (found.map fun ips => ips.toList.map fun ip => socketAddress ip address.port)

/-- Tries one address after the other; the fault is that of the last. -/
def firstThat {α : Type} (use : SocketAddress → Async α) : List SocketAddress → Async (Except IoFault α)
  | [] => pure (.error (.other "could not resolve to any address"))
  | [address] => attempt (use address)
  | address :: rest => do
    match ← attempt (use address) with
    | .ok a => pure (.ok a)
    | .error _ => firstThat use rest

/-- A connection to the place that a text stands for. -/
def connect (text : String) : Async (Except IoFault TCP.Socket.Client) := do
  match ← resolve text with
  | .error fault => pure (.error fault)
  | .ok addresses =>
    firstThat (fun address => do
      let socket ← TCP.Socket.Client.mk
      socket.connect address
      socket.noDelay
      pure socket) addresses

def listen (text : String) : Async (Except IoFault TCP.Socket.Server) := do
  match ← resolve text with
  | .error fault => pure (.error fault)
  | .ok addresses =>
    firstThat (fun address => do
      let socket ← TCP.Socket.Server.mk
      socket.bind address
      socket.listen 1024
      pure socket) addresses

end PeerMesh.Machine
