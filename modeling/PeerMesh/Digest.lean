import PeerMesh.Bytes

/-!
# The 32-bit digest

The xxHash digest of 32 bits over a sequence of octets, with seed 0:

* `Lanes` : four accumulators, each fed one word of every 16-octet stripe (`Lanes.absorb`);
* `stripes` : the accumulators after all whole stripes, and the octets left over;
* `tail` : the left-over octets, four at a time and then one at a time;
* `avalanche` : the final mixing;
* `xxh32` : the digest, `digest s` the digest of a text's UTF-8 form.
-/

namespace PeerMesh.Digest

def prime1 : UInt32 := 0x9E3779B1

def prime2 : UInt32 := 0x85EBCA77

def prime3 : UInt32 := 0xC2B2AE3D

def prime4 : UInt32 := 0x27D4EB2F

def prime5 : UInt32 := 0x165667B1

/-- `x` turned left by `r` bits, for `0 < r < 32`. -/
def rotl (x r : UInt32) : UInt32 := (x <<< r) ||| (x >>> (32 - r))

/-- The word whose octets are `a b c d`, least significant first. -/
def word (a b c d : UInt8) : UInt32 :=
  a.toUInt32 ||| (b.toUInt32 <<< 8) ||| (c.toUInt32 <<< 16) ||| (d.toUInt32 <<< 24)

def round (acc w : UInt32) : UInt32 := rotl (acc + w * prime2) 13 * prime1

structure Lanes where
  v1 : UInt32
  v2 : UInt32
  v3 : UInt32
  v4 : UInt32

namespace Lanes

/-- The accumulators before any input, for seed 0. -/
def start : Lanes := ⟨prime1 + prime2, prime2, 0, 0 - prime1⟩

/-- Each accumulator takes its word of one stripe. -/
def absorb (l : Lanes) (w1 w2 w3 w4 : UInt32) : Lanes :=
  ⟨round l.v1 w1, round l.v2 w2, round l.v3 w3, round l.v4 w4⟩

def merge (l : Lanes) : UInt32 := rotl l.v1 1 + rotl l.v2 7 + rotl l.v3 12 + rotl l.v4 18

end Lanes

/-- The accumulators after the whole stripes of the input, and what is left of it. -/
def stripes (l : Lanes) : Bytes → Lanes × Bytes
  | a0 :: a1 :: a2 :: a3 :: b0 :: b1 :: b2 :: b3 :: c0 :: c1 :: c2 :: c3 :: d0 :: d1 :: d2 :: d3 :: rest =>
    stripes (l.absorb (word a0 a1 a2 a3) (word b0 b1 b2 b3) (word c0 c1 c2 c3) (word d0 d1 d2 d3)) rest
  | rest => (l, rest)

def mixWord (h w : UInt32) : UInt32 := rotl (h + w * prime3) 17 * prime4

def mixOctet (h : UInt32) (b : UInt8) : UInt32 := rotl (h + b.toUInt32 * prime5) 11 * prime1

/-- Mixes in what the stripes left over. -/
def tail (h : UInt32) : Bytes → UInt32
  | a :: b :: c :: d :: rest => tail (mixWord h (word a b c d)) rest
  | rest => rest.foldl mixOctet h

/-- The final mixing, a permutation of the words. -/
def avalanche (h : UInt32) : UInt32 :=
  let h := (h ^^^ (h >>> 15)) * prime2
  let h := (h ^^^ (h >>> 13)) * prime3
  h ^^^ (h >>> 16)

def xxh32 (bs : Bytes) : UInt32 :=
  let length := UInt32.ofNat bs.length
  if bs.length < 16 then avalanche (tail (prime5 + length) bs)
  else
    let (lanes, rest) := stripes .start bs
    avalanche (tail (lanes.merge + length) rest)

end PeerMesh.Digest

namespace PeerMesh

def digest (s : String) : UInt32 := Digest.xxh32 (utf8 s)

end PeerMesh
