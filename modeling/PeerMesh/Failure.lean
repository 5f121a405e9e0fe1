import PeerMesh.Duration
import PeerMesh.Text.Quoted
import PeerMesh.Wire.Framing

/-!
# Why a conversation between nodes fails

* `DialError` : there is no connection to a target;
* `CallError` : a call on a connection brought no answer that can be used;
* `PeerError` : an operation on a peer failed, with the target it was about.

Each has its wording (`message`) and a `chain`: the wording, then that of the error behind it, and so
on. A wording ends in that of the error behind it, so a chain tells the same cause several times.
-/

namespace PeerMesh

/-- There is no connection to a target. -/
inductive DialError where
  /-- The text names no place to connect to. -/
  | invalidTarget (target : String)
  | connect (target : String) (fault : IoFault)
  | tls (target : String) (fault : IoFault)
  /-- The channel was closed from this side. -/
  | closed (target : String)
  | timeout (target : String) (limit : Duration)
  deriving DecidableEq, Repr, Inhabited

namespace DialError

def message : DialError → String
  | invalidTarget target => "invalid target " ++ Text.quoted target
  | connect target fault => "failed to connect to " ++ target ++ ": " ++ fault.message
  | tls target fault => "tls handshake with " ++ target ++ " failed: " ++ fault.message
  | closed target => "connection to " ++ target ++ " is closed"
  | timeout target limit => "connecting to " ++ target ++ " timed out after " ++ limit.text

def chain (e : DialError) : List String :=
  e.message :: match e with
    | connect _ fault => [fault.message]
    | tls _ fault => [fault.message]
    | _ => []

end DialError

/-- A call brought no answer that can be used. -/
inductive CallError where
  | dial (error : DialError)
  | codec (error : Wire.CodecError)
  | deadline (method : Method) (limit : Duration)
  /-- The connection ended while the call was waiting. -/
  | lost (method : Method)
  /-- The other side answered that it failed. -/
  | remote (method : Method) (message : String)
  /-- The answer is of another kind than the request asks for. -/
  | unexpected (method : Method)
  deriving DecidableEq, Repr, Inhabited

namespace CallError

def message : CallError → String
  | dial error => "transport: " ++ error.message
  | codec error => "codec: " ++ error.message
  | deadline method limit => method.path ++ " exceeded deadline of " ++ limit.text
  | lost method => "connection lost before " ++ method.path ++ " completed"
  | remote method text => "remote error on " ++ method.path ++ ": " ++ text
  | unexpected method => "unexpected response to " ++ method.path

def chain (e : CallError) : List String :=
  e.message :: match e with
    | dial error => error.chain
    | codec error => error.chain
    | _ => []

end CallError

/-- An operation on a peer failed. -/
inductive PeerError where
  | dial (target : String) (error : DialError)
  | call (target : String) (error : CallError)
  /-- The name that this node wants belongs to another node. -/
  | nameConflict (name : String)
  /-- No candidate for joining could be reached. -/
  | exhausted
  | noConnection (id : NodeId)
  deriving DecidableEq, Repr, Inhabited

namespace PeerError

def message : PeerError → String
  | dial target error => "connection to " ++ target ++ " failed: " ++ error.message
  | call target error => "rpc to " ++ target ++ " failed: " ++ error.message
  | nameConflict name => "node name " ++ Text.quoted name ++ " is not unique in the mesh"
  | exhausted => "no join candidate was reachable"
  | noConnection id => "no connection cached for node " ++ id.text

def chain (e : PeerError) : List String :=
  e.message :: match e with
    | dial _ error => error.chain
    | call _ error => error.chain
    | _ => []

end PeerError

end PeerMesh
