import PeerMesh.Bytes
import PeerMesh.Text.Decimal
import PeerMesh.Text.Hex

/-!
# IP addresses

* `quad?` : an address of version 4, four octets, in its plain form;
* `eightGroups?` : an address of version 6, sixteen octets;
* `dotted?` : an address of version 4 as hosts may also be given, by fewer numbers and in other bases;
* `Ip`, `hostNumber?` : the address that the text of a host spells. One of version 6 may name the interface
  by which it is reached;
* `versionFour` : an address of version 4 inside one of version 6 by itself.
-/

namespace PeerMesh.Tcp

def octet? (chars : List Char) : Option UInt8 :=
  let n := Text.digitsValue chars
  if chars.isEmpty ∨ 3 < chars.length ∨ ¬chars.all Char.isDigit ∨ 255 < n then none
  else if 1 < chars.length ∧ chars.head? = some '0' then none
  else some (.ofNat n)

def quad? (chars : List Char) : Option Bytes :=
  match List.splitOn '.' chars with
  | [a, b, c, d] => [a, b, c, d].mapM octet?
  | _ => none

def group? (chars : List Char) : Option Bytes :=
  if chars.isEmpty ∨ 4 < chars.length then none
  else (chars.mapM Text.Hex.value?).map fun ds => toBE 2 (ds.foldl (fun n d => 16 * n + d) 0)

/-- Groups of an IP address of version 6 with colons in between; no groups at all are the empty text. -/
def groups? (chars : List Char) : Option Bytes :=
  if chars.isEmpty then some [] else ((List.splitOn ':' chars).mapM group?).map List.flatten

/-- As `groups?`, but the last may be an address of version 4. -/
def groupsThenQuad? (chars : List Char) : Option Bytes :=
  groups? chars <|> do
    let parts := List.splitOn ':' chars
    let front ← parts.dropLast.mapM group?
    let last ← parts.getLast? >>= quad?
    pure (front.flatten ++ last)

def cutsAtDoubleColon (before : List Char) : List Char → List (List Char × List Char)
  | ':' :: ':' :: rest =>
    (before.reverse, rest) :: cutsAtDoubleColon (':' :: before) (':' :: rest)
  | c :: rest => cutsAtDoubleColon (c :: before) rest
  | [] => []

/-- An IP address of version 6: eight groups, of which zeros in a row may be left out once. -/
def eightGroups? (chars : List Char) : Option Bytes :=
  match cutsAtDoubleColon [] chars with
  | [] => (groupsThenQuad? chars).filter fun bs => bs.length = 16
  | (before, after) :: _ =>
    match groups? before, groupsThenQuad? after with
    | some front, some back =>
      if front.length + back.length ≤ 14 then
        some (front ++ List.replicate (16 - front.length - back.length) 0 ++ back)
      else none
    | _, _ => none

def inBase? (base : Nat) (chars : List Char) : Option Nat :=
  if chars.isEmpty then none
  else chars.foldlM (fun n c => ((Text.Hex.value? c).filter (· < base)).map (base * n + ·)) 0

/-- A number: hexadecimal after `0x`, octal after a zero, decimal otherwise. -/
def anyBase? : List Char → Option Nat
  | '0' :: 'x' :: rest => inBase? 16 rest
  | '0' :: 'X' :: rest => inBase? 16 rest
  | '0' :: rest => inBase? 8 ('0' :: rest)
  | chars => inBase? 10 chars

/-- An IP address of version 4: up to four numbers with dots in between, of which the last fills the
octets that the others leave. -/
def dotted? (chars : List Char) : Option Bytes := do
  let numbers ← (List.splitOn '.' chars).mapM anyBase?
  let last ← numbers.getLast?
  let front := numbers.dropLast
  if front.length ≤ 3 ∧ front.all (· < 256) ∧ last < Nat.pow 256 (4 - front.length) then
    pure (front.map UInt8.ofNat ++ toBE (4 - front.length) last)
  else none

structure Ip where
  octets : Bytes
  /-- The number of the interface by which the address is reached; zero when none is named. -/
  scope : Nat := 0
  deriving DecidableEq, Repr, Inhabited

def scope? (chars : List Char) : Option Nat :=
  if chars.isEmpty ∨ ¬chars.all Char.isDigit then none
  else (some (Text.digitsValue chars)).filter (· < Nat.pow 2 32)

/-- An IP address of version 6, and the number of an interface after a percent sign. -/
def scoped? (chars : List Char) : Option Ip :=
  match chars.span (· ≠ '%') with
  | (address, []) => (eightGroups? address).map fun octets => ⟨octets, 0⟩
  | (address, _ :: scope) => do pure ⟨← eightGroups? address, ← scope? scope⟩

/-- The address that a host's text spells in digits. -/
def hostNumber? (chars : List Char) : Option Ip :=
  (dotted? chars).map (fun octets => ⟨octets, 0⟩) <|> scoped? chars

/-- An address of version 4 inside one of version 6 by itself. -/
def versionFour (octets : Bytes) : Bytes :=
  if octets.length = 16 ∧ octets.take 12 = List.replicate 10 0 ++ [255, 255] then octets.drop 12
  else octets

end PeerMesh.Tcp
