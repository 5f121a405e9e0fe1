/-!
# Durations

* `Duration` : a length of time in nanoseconds;
* `ofMillis`, `ofSeconds`, `between` : from whole units, and between two moments (zero when the second
  is not later);
* `wholeMillis` : rounded up to milliseconds;
* `Duration.text` : the largest of `s`, `ms`, `µs`, `ns` in which the value is at least one, as an
  integer part and the exact fraction without trailing zeros;
* `Duration.seconds` : the value in seconds, as a floating-point number.
-/

namespace PeerMesh

structure Duration where
  /-- Nanoseconds. -/
  nanos : Nat
  deriving DecidableEq, Repr, Inhabited

namespace Duration

def zero : Duration := ⟨0⟩

def ofMillis (n : Nat) : Duration := ⟨n * 1000000⟩

def ofSeconds (n : Nat) : Duration := ⟨n * 1000000000⟩

instance : Add Duration := ⟨fun a b => ⟨a.nanos + b.nanos⟩⟩

instance : LE Duration := ⟨fun a b => a.nanos ≤ b.nanos⟩

instance (a b : Duration) : Decidable (a ≤ b) := inferInstanceAs (Decidable (a.nanos ≤ b.nanos))

/-- The whole number of milliseconds that is next above, or the same. -/
def wholeMillis (d : Duration) : Duration := ofMillis ((d.nanos + 999999) / 1000000)

/-- From `start` to `stop`, or zero when `stop` is not later. -/
def between (start stop : Nat) : Duration := ⟨stop - start⟩

/-- The fraction `n / 10 ^ places`, for `n < 10 ^ places`, without trailing zeros. -/
def fraction : Nat → Nat → String
  | 0, _ => ""
  | places + 1, n =>
    if n = 0 then ""
    else if n % 10 = 0 then fraction places (n / 10)
    else
      let digits := toString n
      "." ++ "".pushn '0' (places + 1 - digits.length) ++ digits

/-- The value in units of `10 ^ places` nanoseconds. -/
def inUnits (d : Duration) (places : Nat) (unit : String) : String :=
  toString (d.nanos / Nat.pow 10 places) ++ fraction places (d.nanos % Nat.pow 10 places) ++ unit

/-- The value in the largest unit of which there is at least one. -/
def text (d : Duration) : String :=
  if Nat.pow 10 9 ≤ d.nanos then d.inUnits 9 "s"
  else if Nat.pow 10 6 ≤ d.nanos then d.inUnits 6 "ms"
  else if Nat.pow 10 3 ≤ d.nanos then d.inUnits 3 "µs"
  else d.inUnits 0 "ns"

/-- The value in seconds: the whole seconds plus the rest over a thousand million. -/
def seconds (d : Duration) : Float :=
  Float.ofNat (d.nanos / 1000000000) + Float.ofNat (d.nanos % 1000000000) / 1e9

end Duration

end PeerMesh
