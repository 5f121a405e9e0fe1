/-!
# Bytes and the numbers written in them

* `Bytes` : a finite sequence of octets, as a list;
* `utf8 s` : the UTF-8 form of a text;
* `toLE w n`, `ofLE` : `n` in `w` octets, least significant first, and back;
* `toBE w n`, `ofBE` : the same, most significant first.
-/

namespace PeerMesh

abbrev Bytes := List UInt8

def utf8 (s : String) : Bytes := s.toUTF8.data.toList

/-- The low `w` octets of `n`, least significant first. -/
def toLE : Nat → Nat → Bytes
  | 0, _ => []
  | w + 1, n => UInt8.ofNat n :: toLE w (n / 256)

def ofLE : Bytes → Nat
  | [] => 0
  | b :: bs => b.toNat + 256 * ofLE bs

/-- The low `w` octets of `n`, most significant first. -/
def toBE (w n : Nat) : Bytes := (toLE w n).reverse

def ofBE (bs : Bytes) : Nat := ofLE bs.reverse

@[simp] theorem length_toLE (w n : Nat) : (toLE w n).length = w := by
  induction w generalizing n with
  | zero => rfl
  | succ w ih => simp [toLE, ih]

@[simp] theorem length_toBE (w n : Nat) : (toBE w n).length = w := by simp [toBE]

end PeerMesh
