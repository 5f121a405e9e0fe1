import PeerMesh.Bytes

/-!
# The 512-bit digest

The digest SHA-512 over a sequence of octets.

* `rootFraction` : the first 64 bits after the point of a cube or square root, from which the constants
  come: cube roots of the first eighty primes, square roots of the first eight;
* `padded` : the octets, filled up to whole blocks with their number of bits at the end;
* `schedule` : the eighty words of a block;
* `State.absorb` : the eight words of state after one more block;
* `sha512` : the digest.
-/

namespace PeerMesh.Credentials.Sha512

/-- The greatest `r` below `2 ^ bits` with `r ^ k ≤ n`. -/
def rootBelow (k n : Nat) (bits : Nat) : Nat :=
  (List.range bits).foldr (fun i r => if Nat.pow (r + Nat.pow 2 i) k ≤ n then r + Nat.pow 2 i else r) 0

/-- The first 64 bits after the point of the `k`-th root of `n`. -/
def rootFraction (k n : Nat) : UInt64 := UInt64.ofNat (rootBelow k (n * Nat.pow 2 (64 * k)) 72)

def primes : List Nat :=
  (List.range 410).filter fun n => 2 ≤ n && (List.range n).all fun d => d < 2 || n % d ≠ 0

def constants : List UInt64 := primes.map (rootFraction 3)

structure State where
  a : UInt64
  b : UInt64
  c : UInt64
  d : UInt64
  e : UInt64
  f : UInt64
  g : UInt64
  h : UInt64

namespace State

def start : State :=
  ⟨rootFraction 2 2, rootFraction 2 3, rootFraction 2 5, rootFraction 2 7, rootFraction 2 11,
    rootFraction 2 13, rootFraction 2 17, rootFraction 2 19⟩

def words (s : State) : List UInt64 := [s.a, s.b, s.c, s.d, s.e, s.f, s.g, s.h]

def add (s t : State) : State :=
  ⟨s.a + t.a, s.b + t.b, s.c + t.c, s.d + t.d, s.e + t.e, s.f + t.f, s.g + t.g, s.h + t.h⟩

end State

/-- `x` turned right by `r` bits, for `0 < r < 64`. -/
def rotr (x r : UInt64) : UInt64 := (x >>> r) ||| (x <<< (64 - r))

/-- The octets, filled up to blocks of 128. -/
def padded (bs : Bytes) : Bytes :=
  let zeros := (111 + 128 - bs.length % 128) % 128
  bs ++ 0x80 :: List.replicate zeros 0 ++ toBE 16 (8 * bs.length)

/-- The next word of a schedule, of which the last sixteen are given, the last first. -/
def nextWord (w : List UInt64) : UInt64 :=
  let x := w.getD 14 0
  let y := w.getD 1 0
  let low := rotr x 1 ^^^ rotr x 8 ^^^ (x >>> 7)
  let high := rotr y 19 ^^^ rotr y 61 ^^^ (y >>> 6)
  w.getD 15 0 + low + w.getD 6 0 + high

/-- `n` more words of a schedule, of which those so far are given, the last first. -/
def extend : Nat → List UInt64 → List UInt64
  | 0, w => w
  | n + 1, w => extend n (nextWord w :: w)

/-- The first `n` words of eight octets each. -/
def wordsOf : Nat → Bytes → List UInt64
  | 0, _ => []
  | n + 1, bs => UInt64.ofNat (ofBE (bs.take 8)) :: wordsOf n (bs.drop 8)

def schedule (block : Bytes) : List UInt64 := (extend 64 (wordsOf 16 block).reverse).reverse

def round (s : State) (kw : UInt64 × UInt64) : State :=
  let high := rotr s.e 14 ^^^ rotr s.e 18 ^^^ rotr s.e 41
  let choice := (s.e &&& s.f) ^^^ (~~~s.e &&& s.g)
  let x := s.h + high + choice + kw.1 + kw.2
  let low := rotr s.a 28 ^^^ rotr s.a 34 ^^^ rotr s.a 39
  let majority := (s.a &&& s.b) ^^^ (s.a &&& s.c) ^^^ (s.b &&& s.c)
  ⟨x + (low + majority), s.a, s.b, s.c, s.d + x, s.e, s.f, s.g⟩

def State.absorb (s : State) (block : Bytes) : State :=
  s.add ((constants.zip (schedule block)).foldl round s)

def blocks : Nat → State → Bytes → State
  | 0, s, _ => s
  | n + 1, s, bs => blocks n (s.absorb (bs.take 128)) (bs.drop 128)

def sha512 (bs : Bytes) : Bytes :=
  let text := padded bs
  (blocks (text.length / 128) .start text).words.flatMap fun w => toBE 8 w.toNat

end PeerMesh.Credentials.Sha512
