/-!
# Points of elliptic curves

The two prime curves on which a server's key may be, in the form `y² = x³ - 3x + b`.

* `powMod`, `inverse` : powers and inverses of numbers modulo a prime;
* `Curve` : the numbers that make a curve, `p256` and `p384` the curves;
* `Point` : a point as `(x / z², y / z³)`, the point at infinity where `z` is zero;
* `Curve.times` : a multiple of the base point, by doubling and adding;
* `Curve.affine` : the two coordinates of a point.
-/

namespace PeerMesh.Credentials

def powMod (b e m : Nat) : Nat :=
  if e = 0 then 1 % m
  else
    let half := powMod (b * b % m) (e / 2) m
    if e % 2 = 1 then half * b % m else half
termination_by e
decreasing_by omega

def inverse (a p : Nat) : Nat := powMod a (p - 2) p

def subMod (a b m : Nat) : Nat := (a + (m - b % m)) % m

structure Curve where
  /-- The coordinates are numbers modulo this prime. -/
  prime : Nat
  /-- How often the base point is added to itself until it is at infinity. -/
  order : Nat
  baseX : Nat
  baseY : Nat
  /-- The number of octets of a coordinate. -/
  width : Nat

structure Point where
  x : Nat
  y : Nat
  z : Nat

namespace Curve

def infinity : Point := ⟨1, 1, 0⟩

def base (c : Curve) : Point := ⟨c.baseX, c.baseY, 1⟩

def double (c : Curve) (a : Point) : Point :=
  let p := c.prime
  let delta := a.z * a.z % p
  let gamma := a.y * a.y % p
  let beta := a.x * gamma % p
  let alpha := 3 * subMod a.x delta p * (a.x + delta) % p
  let x := subMod (alpha * alpha) (8 * beta) p
  let z := subMod ((a.y + a.z) * (a.y + a.z)) (gamma + delta) p
  ⟨x, subMod (alpha * subMod (4 * beta) x p) (8 * gamma * gamma) p, z⟩

def add (c : Curve) (a b : Point) : Point :=
  let p := c.prime
  if a.z = 0 then b
  else if b.z = 0 then a
  else
    let az := a.z * a.z % p
    let bz := b.z * b.z % p
    let u := a.x * bz % p
    let s := a.y * bz * b.z % p
    let h := subMod (b.x * az) u p
    let r := subMod (b.y * az * a.z) s p
    if h = 0 then if r = 0 then c.double a else infinity
    else
      let hh := h * h % p
      let v := u * hh % p
      let x := subMod (r * r) (hh * h + 2 * v) p
      ⟨x, subMod (r * subMod v x p) (s * hh * h) p, h * a.z * b.z % p⟩

def times (c : Curve) (k : Nat) : Point :=
  (List.range (8 * c.width)).foldr
    (fun i a => a |> c.double |> fun a => if k.testBit i then c.add a c.base else a) infinity

/-- The coordinates of a point, unless it is at infinity. -/
def affine (c : Curve) (a : Point) : Option (Nat × Nat) :=
  if a.z = 0 then none
  else
    let i := inverse a.z c.prime
    some (a.x * i * i % c.prime, a.y * i * i * i % c.prime)

def p256 : Curve where
  prime := 0xFFFFFFFF00000001000000000000000000000000FFFFFFFFFFFFFFFFFFFFFFFF
  order := 0xFFFFFFFF00000000FFFFFFFFFFFFFFFFBCE6FAADA7179E84F3B9CAC2FC632551
  baseX := 0x6B17D1F2E12C4247F8BCE6E563A440F277037D812DEB33A0F4A13945D898C296
  baseY := 0x4FE342E2FE1A7F9B8EE7EB4A7C0F9E162BCE33576B315ECECBB6406837BF51F5
  width := 32

def p384 : Curve where
  prime := 0xFFFFFFFFFFFFFFFFFFFFFFFFFFFFFFFFFFFFFFFFFFFFFFFFFFFFFFFFFFFFFFFEFFFFFFFF0000000000000000FFFFFFFF
  order := 0xFFFFFFFFFFFFFFFFFFFFFFFFFFFFFFFFFFFFFFFFFFFFFFFFC7634D81F4372DDF581A0DB248B0A77AECEC196ACCC52973
  baseX := 0xAA87CA22BE8B05378EB1C71EF320AD746E1D3B628BA79B9859F741E082542A385502F25DBF55296C3A545E3872760AB7
  baseY := 0x3617DE4A96262C6F5D9E98BF9292DC29F8F41DBD289A147CE9DA3113B5F0B8C00A60B1CE1D7E819D7A431D7C90EA0E5F
  width := 48

end Curve

end PeerMesh.Credentials
