import PeerMesh.Credentials.Curve
import PeerMesh.Credentials.Der
import PeerMesh.Credentials.Edwards

/-!
# Private keys

* `KeyForm` : how a private key is written: bare, for two kinds of keys, or wrapped with the name of its
  algorithm;
* `PrivateKey` : a private key, by the public key that belongs to it;
* `unwrap?` : what is wrapped, and the public key that may come with it;
* `Rsa.read?`, `Curve.readKey?`, `readEdwards?` : keys of the three kinds. A key is refused when its parts
  do not belong together;
* `PrivateKey.read?` : a key of any kind.
-/

namespace PeerMesh.Credentials

inductive KeyForm where
  /-- A bare key of the kind that multiplies two primes. -/
  | rsa
  /-- Wrapped with the name of the algorithm. -/
  | wrapped
  /-- A bare key on a prime curve. -/
  | curve
  deriving DecidableEq, Repr

structure PrivateKey where
  encoded : Bytes
  /-- The public key that belongs to it, with the name of its algorithm. -/
  keyInfo : Bytes
  deriving DecidableEq, Repr

/-- The name of a kind of keys: a number in the octets of its encoding, and what narrows it down. -/
structure Algorithm where
  name : Bytes
  detail : Bytes

namespace Algorithm

def encoded (a : Algorithm) : Bytes := Der.wrap Der.objectName a.name ++ a.detail

/-- A public key with the name of its algorithm. -/
def keyInfo (a : Algorithm) (publicKey : Bytes) : Bytes :=
  Der.wrap Der.sequence a.encoded ++ Der.wrapBits publicKey

def rsa : Algorithm := ⟨[0x2A, 0x86, 0x48, 0x86, 0xF7, 0x0D, 0x01, 0x01, 0x01], [0x05, 0x00]⟩

def p256Name : Bytes := Der.wrap Der.objectName [0x2A, 0x86, 0x48, 0xCE, 0x3D, 0x03, 0x01, 0x07]

def p384Name : Bytes := Der.wrap Der.objectName [0x2B, 0x81, 0x04, 0x00, 0x22]

def onCurve (curveName : Bytes) : Algorithm := ⟨[0x2A, 0x86, 0x48, 0xCE, 0x3D, 0x02, 0x01], curveName⟩

def edwards : Algorithm := ⟨[0x2B, 0x65, 0x70], []⟩

end Algorithm

/-- What is wrapped as a key of the given algorithm, and the public key that comes with it in the second
version of wrappings. -/
def unwrap? (algorithm : Algorithm) (bs : Bytes) : Option (Bytes × Option Bytes) := do
  let fields ← Der.only? Der.sequence bs
  let (version, rest) ← Der.small? fields
  let (found, rest) ← Der.expect? Der.sequence rest
  if found ≠ algorithm.encoded ∨ 1 < version then none
  let (key, rest) ← Der.expect? Der.octetString rest
  let rest ← if rest.head? = some (Der.context 0) then Prod.snd <$> Der.expect? (Der.context 0) rest
    else some rest
  if version = 0 then if rest.isEmpty then some (key, none) else none
  else if rest.head? = some (Der.context 1) then
    let bits ← Der.only? (Der.context 1) rest >>= Der.only? Der.bitString
    let publicKey ← Der.bits? bits
    some (key, some publicKey)
  else
    let publicKey ← Der.only? (Der.plainContext 1) rest >>= Der.bits?
    some (key, some publicKey)

/-- What is wrapped as a key of the given algorithm in the first version of wrappings. -/
def unwrapFirst? (algorithm : Algorithm) (bs : Bytes) : Option Bytes :=
  match unwrap? algorithm bs with
  | some (key, none) => some key
  | _ => none

/-! ## Products of two primes -/

namespace Rsa

def bits (n : Nat) : Nat := if n = 0 then 0 else n.log2 + 1

def naturals? : Nat → Bytes → Option (List Nat × Bytes)
  | 0, bs => some ([], bs)
  | k + 1, bs => do
    let (n, bs) ← Der.natural? bs
    let (ns, bs) ← naturals? k bs
    some (n :: ns, bs)

/-- Whether the numbers of a key belong together: the modulus `n` of up to 4096 bits, the exponents `e`
and `d`, the primes `p` and `q`, and `d` and the inverse of `q` as they are used modulo the primes. -/
def consistent (n e d p q dp dq qInv : Nat) : Bool :=
  let half := (bits n + 1) / 2
  2048 ≤ (bits n + 7) / 8 * 8 && bits n ≤ 4096 && n % 2 = 1 &&
    65537 ≤ e && e < Nat.pow 2 33 && e % 2 = 1 &&
    p % 2 = 1 && q % 2 = 1 && bits p = half && bits q = half && half % 512 = 0 &&
    p * q % n = 0 &&
    d % 2 = 1 && half < bits d && d < n &&
    dp % 2 = 1 && dp < p && dq % 2 = 1 && dq < q &&
    qInv < p && qInv * q % p = 1

/-- The public key in the numbers of a bare private key. -/
def read? (bs : Bytes) : Option Bytes := do
  let fields ← Der.only? Der.sequence bs
  match ← naturals? 9 fields with
  | ([0, n, e, d, p, q, dp, dq, qInv], []) =>
    if consistent n e d p q dp dq qInv then
      some (Der.wrap Der.sequence (Der.wrapNatural n ++ Der.wrapNatural e))
    else none
  | _ => none

end Rsa

/-! ## Prime curves -/

/-- The octets of a point: a mark, and the two coordinates. -/
def Curve.publicKey (c : Curve) (secret : Nat) : Option Bytes :=
  (c.affine (c.times secret)).map fun (x, y) => 0x04 :: (toBE c.width x ++ toBE c.width y)

/-- The public key in a bare private key on a curve of the given name. It must stand there, and be that of
the secret number. -/
def Curve.readKey? (c : Curve) (curveName : Bytes) (bs : Bytes) : Option Bytes := do
  let fields ← Der.only? Der.sequence bs
  let (version, rest) ← Der.small? fields
  if version ≠ 1 then none
  let (secret, rest) ← Der.expect? Der.octetString rest
  let rest ← if rest.head? = some (Der.context 0) then do
      let (found, rest) ← Der.expect? (Der.context 0) rest
      if found = curveName then some rest else none
    else some rest
  let found ← Der.only? (Der.context 1) rest >>= Der.only? Der.bitString >>= Der.bits?
  let k := ofBE secret
  if secret.length ≠ c.width ∨ k = 0 ∨ c.order ≤ k then none
  let publicKey ← c.publicKey k
  if found = publicKey then some publicKey else none

/-! ## The Edwards curve -/

def readEdwards? (bs : Bytes) : Option Bytes := do
  let (key, found) ← unwrap? .edwards bs
  let secret ← Der.only? Der.octetString key
  if secret.length ≠ 32 then none
  let publicKey := Edwards.publicKey secret
  if found.all fun k => k = publicKey then some publicKey else none

/-! ## Keys of any kind -/

namespace PrivateKey

def curves : List (Curve × Bytes) := [(.p256, Algorithm.p256Name), (.p384, Algorithm.p384Name)]

/-- The public key, with the name of its algorithm, of a private key. -/
def keyInfo? : KeyForm → Bytes → Option Bytes
  | .rsa, bs => (Rsa.read? bs).map Algorithm.rsa.keyInfo
  | .curve, bs => curves.findSome? fun (c, name) => (c.readKey? name bs).map (Algorithm.onCurve name).keyInfo
  | .wrapped, bs =>
    ((unwrapFirst? .rsa bs >>= Rsa.read?).map Algorithm.rsa.keyInfo) <|>
      (curves.findSome? fun (c, name) =>
        (unwrapFirst? (.onCurve name) bs >>= c.readKey? name).map (Algorithm.onCurve name).keyInfo) <|>
      ((readEdwards? bs).map Algorithm.edwards.keyInfo)

def read? (form : KeyForm) (encoded : Bytes) : Option PrivateKey :=
  (keyInfo? form encoded).map fun keyInfo => { encoded, keyInfo }

end PrivateKey

end PeerMesh.Credentials
