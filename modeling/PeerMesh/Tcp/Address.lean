import PeerMesh.Fault
import PeerMesh.Tcp.Ip

/-!
# Addresses

* `Address.read` : a host and a port, from a text with a colon between them. The port is judged before
  the host;
* `ServerName` : the name by which a server proves itself, a domain name or a number of four or sixteen
  octets; `ServerName.ofTarget?` takes it from the target that is dialed.
-/

namespace PeerMesh.Tcp

structure Address where
  host : String
  port : UInt16
  deriving DecidableEq, Repr, Inhabited

def port? (chars : List Char) : Option UInt16 :=
  ((Text.decimal? chars).filter (· < 65536)).map UInt16.ofNat

def splitLastColon (chars : List Char) : Option (List Char × List Char) :=
  match chars.reverse.span (· ≠ ':') with
  | (after, _ :: before) => some (before.reverse, after.reverse)
  | (_, []) => none

/-- The host without its brackets, if it is an IP address of version 6 in brackets; the port must not have
a sign then. -/
def unbracketed (host port : List Char) : List Char :=
  match host, host.getLast? with
  | '[' :: rest, some ']' =>
    if port.head? ≠ some '+' ∧ (scoped? rest.dropLast).isSome then rest.dropLast else host
  | _, _ => host

def Address.read (text : String) : Except IoFault Address :=
  match splitLastColon text.toList with
  | none => .error .noPort
  | some (host, port) =>
    match port? port with
    | none => .error .badPort
    | some number =>
      if host.contains '\x00' then .error .nulInName
      else .ok ⟨String.ofList (unbracketed host port), number⟩

/-! ## Server names -/

/-- Whether a text is a domain name: labels of letters, digits, underscores and inner hyphens, with dots
in between and one that may follow; the last label is not a number. -/
def isDomain (chars : List Char) : Bool :=
  let labels := List.splitOn '.' (if chars.getLast? = some '.' then chars.dropLast else chars)
  let wellFormed (label : List Char) : Bool :=
    !label.isEmpty && decide (label.length ≤ 63) && label.head? ≠ some '-' &&
      label.getLast? ≠ some '-' && label.all fun c => c.isAlphanum || c = '-' || c = '_'
  decide (chars.length ≤ 253) && labels.all wellFormed &&
    (labels.getLast?.map fun label => !label.all Char.isDigit).getD false

/-- The name by which a server proves itself. -/
inductive ServerName where
  | domain (name : String)
  | ip (octets : Bytes)
  deriving DecidableEq, Repr, Inhabited

/-- The name of the server behind a target: what stands before the last colon, without brackets. -/
def ServerName.ofTarget? (target : String) : Option ServerName :=
  let host := match splitLastColon target.toList with
    | some (host, _) => host
    | none => target.toList
  let host := (host.dropWhile (· = '[')).reverse.dropWhile (· = ']') |>.reverse
  match quad? host <|> eightGroups? host with
  | some octets => some (.ip octets)
  | none => if isDomain host then some (.domain (String.ofList host)) else none

end PeerMesh.Tcp
