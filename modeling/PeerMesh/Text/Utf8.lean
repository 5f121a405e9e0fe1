import PeerMesh.Bytes

/-!
# Octets that are no text

* `decode? bs` : the text whose UTF-8 form is `bs`;
* `Utf8Fault` : where a sequence of octets stops being UTF-8, and how many octets are to blame;
* `fault bs` : the first such place. A character that breaks off at the end of the input is incomplete;
  otherwise the octets to blame are those before the first that cannot go on (at least one);
* `lossy bs` : the text all the same, with U+FFFD for the octets to blame.
-/

namespace PeerMesh.Text

def decode? (bs : Bytes) : Option String := String.fromUTF8? ⟨bs.toArray⟩

/-- The first place at which octets stop being UTF-8. -/
structure Utf8Fault where
  /-- How many octets before it are well-formed. -/
  index : Nat
  /-- How many octets are to blame; none when the input ends inside a character. -/
  length : Option Nat
  deriving DecidableEq, Repr, Inhabited

def Utf8Fault.message (f : Utf8Fault) : String :=
  match f.length with
  | some n => "invalid utf-8 sequence of " ++ toString n ++ " bytes from index " ++ toString f.index
  | none => "incomplete utf-8 byte sequence from index " ++ toString f.index

/-- After a first octet of a longer character: the least and the greatest second octet, and how many
octets follow the second. -/
def afterLead (b : UInt8) : Option (UInt8 × UInt8 × Nat) :=
  if 0xC2 ≤ b ∧ b ≤ 0xDF then some (0x80, 0xBF, 0)
  else if b = 0xE0 then some (0xA0, 0xBF, 1)
  else if b = 0xED then some (0x80, 0x9F, 1)
  else if 0xE1 ≤ b ∧ b ≤ 0xEF then some (0x80, 0xBF, 1)
  else if b = 0xF0 then some (0x90, 0xBF, 2)
  else if b = 0xF4 then some (0x80, 0x8F, 2)
  else if 0xF1 ≤ b ∧ b ≤ 0xF3 then some (0x80, 0xBF, 2)
  else none

def continues (b : UInt8) : Bool := 0x80 ≤ b && b ≤ 0xBF

/-- The first fault of octets of which the first stands at index `i`. -/
def faultFrom (i : Nat) : Bytes → Utf8Fault
  | [] => ⟨i, none⟩
  | b :: rest =>
    if b < 0x80 then faultFrom (i + 1) rest
    else match afterLead b, rest with
      | none, _ => ⟨i, some 1⟩
      | some _, [] => ⟨i, none⟩
      | some (lo, hi, more), c :: rest =>
        if ¬(lo ≤ c ∧ c ≤ hi) then ⟨i, some 1⟩
        else match more, rest with
          | 0, rest => faultFrom (i + 2) rest
          | _ + 1, [] => ⟨i, none⟩
          | more + 1, d :: rest =>
            if !continues d then ⟨i, some 2⟩
            else match more, rest with
              | 0, rest => faultFrom (i + 3) rest
              | _ + 1, [] => ⟨i, none⟩
              | _ + 1, e :: rest =>
                if !continues e then ⟨i, some 3⟩ else faultFrom (i + 4) rest

/-- The first fault of octets that are not UTF-8. -/
def fault (bs : Bytes) : Utf8Fault := faultFrom 0 bs

/-- The text of octets, with one replacement character for each of at most `n` faults. -/
def lossyUpTo : Nat → Bytes → String
  | 0, _ => ""
  | n + 1, bs =>
    match decode? bs with
    | some s => s
    | none =>
      let f := fault bs
      let before := (decode? (bs.take f.index)).getD ""
      match f.length with
      | none => before ++ "\uFFFD"
      | some k => before ++ "\uFFFD" ++ lossyUpTo n (bs.drop (f.index + k))

/-- The text of octets, with a replacement character for each fault. -/
def lossy (bs : Bytes) : String := lossyUpTo (bs.length + 1) bs

end PeerMesh.Text
