/-!
# Decimal numbers

* `decimal?` : the number that digits stand for, after a plus sign that may be missing.
-/

namespace PeerMesh.Text

def digitsValue (digits : List Char) : Nat :=
  digits.foldl (fun n c => 10 * n + (c.toNat - '0'.toNat)) 0

/-- The number that digits stand for, after a plus sign that may be missing. -/
def decimal? (chars : List Char) : Option Nat :=
  let digits := match chars with
    | '+' :: rest => rest
    | chars => chars
  if digits.isEmpty ∨ ¬digits.all Char.isDigit then none else some (digitsValue digits)

end PeerMesh.Text
