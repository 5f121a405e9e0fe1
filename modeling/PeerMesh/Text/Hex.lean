import PeerMesh.Bytes

/-!
# Hexadecimal digits

* `digits n` : lower-case digits of a number, none in front that is zero;
* `eight w` : a 32-bit word in exactly eight digits;
* `ofBytes`, `toBytes?` : octets as pairs of digits, and back.
-/

namespace PeerMesh.Text.Hex

def digit (n : Nat) : Char := Nat.digitChar n

/-- The digits of `n`, without leading zeros; zero has one digit. -/
def digits (n : Nat) : String := String.ofList (Nat.toDigits 16 n)

def eight (w : UInt32) : String :=
  String.ofList ((List.range 8).map fun i => digit (w.toNat / Nat.pow 16 (7 - i) % 16))

def ofBytes (bs : Bytes) : String :=
  String.ofList (bs.flatMap fun b => [digit (b.toNat / 16), digit (b.toNat % 16)])

def value? (c : Char) : Option Nat :=
  if '0' ≤ c ∧ c ≤ '9' then some (c.toNat - '0'.toNat)
  else if 'a' ≤ c ∧ c ≤ 'f' then some (c.toNat - 'a'.toNat + 10)
  else if 'A' ≤ c ∧ c ≤ 'F' then some (c.toNat - 'A'.toNat + 10)
  else none

/-- The octets written as pairs of digits, onto those read already (in reverse). -/
def pairs? (read : Bytes) : List Char → Option Bytes
  | [] => some read.reverse
  | [_] => none
  | a :: b :: rest =>
    match value? a, value? b with
    | some x, some y => pairs? (UInt8.ofNat (16 * x + y) :: read) rest
    | _, _ => none

/-- The octets that a text of digit pairs stands for. -/
def toBytes? (s : String) : Option Bytes := pairs? [] s.toList

end PeerMesh.Text.Hex
