import PeerMesh.Bytes

/-!
# Base64

* `Base64Fault` : why octets are no base64;
* `decode` : the octets that base64 text stands for. Blanks are skipped; the padding of the last group
  may be left out, but what there is must complete the group.

Text is read in rows of eight symbols. That a row with padding is not the last shows when the next symbol
comes, and then nothing after it counts.
-/

namespace PeerMesh.Credentials

/-- Why octets are no base64. -/
inductive Base64Fault where
  | badCharacter (found : UInt8)
  /-- Padding stands before the last group. -/
  | earlyPadding
  /-- The last group is no beginning of a group, or is padded wrongly. -/
  | badEnd
  deriving DecidableEq, Repr, Inhabited

def Base64Fault.message : Base64Fault → String
  | badCharacter found => "InvalidCharacter(" ++ toString found.toNat ++ ")"
  | earlyPadding => "PrematurePadding"
  | badEnd => "InvalidTrailingPadding"

namespace Base64

inductive Symbol where
  | blank
  | pad
  | digit (value : Nat)

def symbol? (b : UInt8) : Option Symbol :=
  let n := b.toNat
  if 0x41 ≤ n ∧ n ≤ 0x5A then some (.digit (n - 0x41))
  else if 0x61 ≤ n ∧ n ≤ 0x7A then some (.digit (n - 0x61 + 26))
  else if 0x30 ≤ n ∧ n ≤ 0x39 then some (.digit (n - 0x30 + 52))
  else if n = 0x2B then some (.digit 62)
  else if n = 0x2F then some (.digit 63)
  else if n = 0x3D then some .pad
  else if n = 0x20 ∨ (0x09 ≤ n ∧ n ≤ 0x0D) then some .blank
  else none

/-- The digits and paddings of a text, a padding as `none`, when the row so far has `count` symbols and
`padded` tells of padding among them. -/
def symbolsFrom (count : Nat) (padded : Bool) : Bytes → Except Base64Fault (List (Option Nat))
  | [] => .ok []
  | b :: bs =>
    match symbol? b with
    | none => .error (.badCharacter b)
    | some .blank => symbolsFrom count padded bs
    | some symbol =>
      let digit : Option Nat := match symbol with
        | .digit n => some n
        | _ => none
      if count < 8 then (digit :: ·) <$> symbolsFrom (count + 1) (padded || digit.isNone) bs
      else if padded then .error .earlyPadding
      else (digit :: ·) <$> symbolsFrom 1 digit.isNone bs

/-- The octets of a number of 24 bits, most significant first, the first `k` of them. -/
def group (k n : Nat) : Bytes := (toBE 3 n).take k

def groups : List (Option Nat) → Except Base64Fault Bytes
  | [] => .ok []
  | [some a, some b] => .ok (group 1 (a * 0x40000 + b * 0x1000))
  | [some a, some b, none, none] => .ok (group 1 (a * 0x40000 + b * 0x1000))
  | [some a, some b, some c] => .ok (group 2 (a * 0x40000 + b * 0x1000 + c * 0x40))
  | [some a, some b, some c, none] => .ok (group 2 (a * 0x40000 + b * 0x1000 + c * 0x40))
  | some a :: some b :: some c :: some d :: rest =>
    (group 3 (a * 0x40000 + b * 0x1000 + c * 0x40 + d) ++ ·) <$> groups rest
  | _ :: _ :: _ :: _ :: _ :: _ => .error .earlyPadding
  | _ => .error .badEnd

def decode (bs : Bytes) : Except Base64Fault Bytes := symbolsFrom 0 false bs >>= groups

end Base64

end PeerMesh.Credentials
