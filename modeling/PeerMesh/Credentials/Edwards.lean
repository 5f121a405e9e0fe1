import PeerMesh.Credentials.Curve
import PeerMesh.Credentials.Sha512

/-!
# Keys on the twisted Edwards curve

The curve `y² - x² = 1 + d x² y²` modulo `2²⁵⁵ - 19`.

* `Point` : a point as `(x / z, y / z)`, with `t = x y / z`;
* `add`, `times` : sums of points, and multiples of the base point;
* `publicKey` : the public key of a secret of 32 octets.
-/

namespace PeerMesh.Credentials.Edwards

/-- The coordinates are numbers modulo this prime. -/
def prime : Nat := Nat.pow 2 255 - 19

def twiceD : Nat :=
  2 * 37095705934669439343138083508754565189542113879843219016388785533085940283555 % prime

structure Point where
  x : Nat
  y : Nat
  z : Nat
  t : Nat

def neutral : Point := ⟨0, 1, 1, 0⟩

def base : Point :=
  let x := 15112221349535400772501151409588531511454012693041857206046113283949847762202
  let y := 46316835694926478169428394003475163141307993866256225615783033603165251855960
  ⟨x, y, 1, x * y % prime⟩

def add (p q : Point) : Point :=
  let a := subMod p.y p.x prime * subMod q.y q.x prime
  let b := (p.y + p.x) * (q.y + q.x)
  let c := p.t * q.t % prime * twiceD % prime
  let d := 2 * p.z * q.z % prime
  let e := subMod b a prime
  let f := subMod d c prime
  let g := d + c
  let h := (b + a) % prime
  ⟨e * f % prime, g * h % prime, f * g % prime, e * h % prime⟩

/-- `k` times the base point, for `k < 2 ^ 256`. -/
def times (k : Nat) : Point :=
  (List.range 256).foldr
    (fun i p => add p p |> fun p => if k.testBit i then add p base else p) neutral

/-- The 32 octets of a point: `y`, and the last bit of `x` in front. -/
def encode (p : Point) : Bytes :=
  let i := inverse p.z prime
  toLE 32 (p.y * i % prime + Nat.pow 2 255 * (p.x * i % prime % 2))

/-- The number that a secret stands for: half of its digest, with the lowest three bits and the highest
cleared, and the second highest set. -/
def scalar (secret : Bytes) : Nat :=
  let n := ofLE ((Sha512.sha512 secret).take 32)
  n % Nat.pow 2 254 / 8 * 8 + Nat.pow 2 254

def publicKey (secret : Bytes) : Bytes := encode (times (scalar secret))

end PeerMesh.Credentials.Edwards
