import PeerMesh.Wire.Format

/-!
# The distinguished encoding

Certificates and keys are trees of elements, each a tag, a length and its contents.

* `element?` : the first element of a text of octets. Tags are one octet, lengths as short as they can be
  and below 65535;
* `expect?`, `only?` : an element that must have a tag, or besides be the only one;
* `natural?`, `small?`, `bits?` : the contents of integers that are not negative, and of bit strings;
* `wrap`, `wrapNatural`, `wrapBits` : elements from their contents.
-/

namespace PeerMesh.Credentials.Der

def boolean : UInt8 := 0x01

def integer : UInt8 := 0x02

def bitString : UInt8 := 0x03

def octetString : UInt8 := 0x04

def objectName : UInt8 := 0x06

def sequence : UInt8 := 0x30

/-- The tag of the `n`-th context-specific element. -/
def plainContext (n : UInt8) : UInt8 := 0x80 + n

/-- The tag of the `n`-th context-specific element that holds elements. -/
def context (n : UInt8) : UInt8 := 0xA0 + n

/-! ## Reading -/

/-- The length of an element and what follows it: one octet, or up to two after their number. -/
def length? : Bytes → Option (Nat × Bytes)
  | 0x81 :: a :: rest => if a.toNat < 0x80 then none else some (a.toNat, rest)
  | 0x82 :: a :: b :: rest =>
    let n := 0x100 * a.toNat + b.toNat
    if n < 0x100 ∨ n = 0xFFFF then none else some (n, rest)
  | a :: rest => if a < 0x80 then some (a.toNat, rest) else none
  | [] => none

/-- The first element: its tag, its contents, and what follows it. -/
def element? : Bytes → Option (UInt8 × Bytes × Bytes)
  | [] => none
  | tag :: rest => do
    if tag &&& 0x1F = 0x1F then none
    let (n, rest) ← length? rest
    let (contents, rest) ← Wire.split? n rest
    pure (tag, contents, rest)

/-- The first element, which must have the given tag: its contents and what follows it. -/
def expect? (tag : UInt8) (bs : Bytes) : Option (Bytes × Bytes) := do
  let (found, contents, rest) ← element? bs
  if found = tag then pure (contents, rest) else none

/-- The contents of the only element, which must have the given tag. -/
def only? (tag : UInt8) (bs : Bytes) : Option Bytes := do
  let (contents, rest) ← expect? tag bs
  if rest.isEmpty then pure contents else none

/-- An integer that is not negative, in as few octets as it can be. -/
def natural? (bs : Bytes) : Option (Nat × Bytes) := do
  let (contents, rest) ← expect? integer bs
  match contents with
  | [] => none
  | [a] => if a < 0x80 then pure (a.toNat, rest) else none
  | a :: b :: _ => if a < 0x80 ∧ ¬(a = 0 ∧ b < 0x80) then pure (ofBE contents, rest) else none

def small? (bs : Bytes) : Option (Nat × Bytes) := do
  let (n, rest) ← natural? bs
  if n < 256 then pure (n, rest) else none

/-- The octets of a bit string, of which none may be filled up. -/
def bits? (contents : Bytes) : Option Bytes :=
  match contents with
  | 0 :: bs => some bs
  | _ => none

/-! ## Writing -/

/-- The octets of a number, as few as it takes. -/
def digits (n : Nat) : Bytes := toBE ((n.log2 + 8) / 8) n

def wrap (tag : UInt8) (contents : Bytes) : Bytes :=
  let n := contents.length
  if n < 0x80 then tag :: UInt8.ofNat n :: contents
  else tag :: UInt8.ofNat (0x80 + (digits n).length) :: (digits n ++ contents)

def wrapNatural (n : Nat) : Bytes :=
  let bs := digits n
  wrap integer (if (bs.headD 0) < 0x80 then bs else 0 :: bs)

def wrapBits (bs : Bytes) : Bytes := wrap bitString (0 :: bs)

end PeerMesh.Credentials.Der
