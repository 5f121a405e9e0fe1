import PeerMesh.Text.Utf8

/-!
# Formats: writing values as octets and reading them back

* `DecodeFault` : why octets are no written value;
* `Decoder α` : reads a value off the front of the octets and leaves the rest;
* `Format α` : a writer and a reader of the same values;
* `word32`, `word64`, `int64`, `bool`, `text`, `list` : the basic formats. Numbers have a fixed width,
  least significant octet first; a text and a list are preceded by their length in 64 bits;
* `Format.pair`, `Format.map` : formats of structures; `tag` : the number of a variant in 32 bits.
-/

namespace PeerMesh.Wire

inductive DecodeFault where
  /-- A number, a tag or a length breaks off. -/
  | cutShort
  /-- A text is said to be longer than what is left. -/
  | cutText
  | badBool (found : UInt8)
  /-- A tag that numbers none of the variants. -/
  | badTag (found : UInt32) (variants : Nat)
  | badText (fault : Text.Utf8Fault)
  deriving DecidableEq, Repr, Inhabited

def DecodeFault.message : DecodeFault → String
  | cutShort => "io error: unexpected end of file"
  | cutText => "io error: "
  | badBool found =>
    "invalid u8 while decoding bool, expected 0 or 1, found " ++ toString found.toNat
  | badTag found variants =>
    "invalid value: integer `" ++ toString found.toNat ++ "`, expected variant index 0 <= i < " ++
      toString variants
  | badText fault => "string is not valid utf8: " ++ fault.message

/-- Reads a value off the front of the octets and leaves the rest. -/
abbrev Decoder (α : Type) := StateT Bytes (Except DecodeFault) α

/-- A writer and a reader of the same values. -/
structure Format (α : Type) where
  encode : α → Bytes
  decode : Decoder α

/-- The first `n` octets and the rest, onto those taken already (in reverse). -/
def splitOnto (taken : Bytes) : Nat → Bytes → Option (Bytes × Bytes)
  | 0, bs => some (taken.reverse, bs)
  | _ + 1, [] => none
  | n + 1, b :: bs => splitOnto (b :: taken) n bs

def split? (n : Nat) (bs : Bytes) : Option (Bytes × Bytes) := splitOnto [] n bs

theorem splitOnto_eq (taken : Bytes) (n : Nat) (bs : Bytes) :
    splitOnto taken n bs =
      if n ≤ bs.length then some (taken.reverse ++ bs.take n, bs.drop n) else none := by
  induction n generalizing taken bs with
  | zero => simp [splitOnto]
  | succ n ih =>
    cases bs with
    | nil => simp [splitOnto]
    | cons b bs => simp [splitOnto, ih]

theorem split?_eq (n : Nat) (bs : Bytes) :
    split? n bs = if n ≤ bs.length then some (bs.take n, bs.drop n) else none := by
  simp [split?, splitOnto_eq]

/-- The next `n` octets; a shortage is the given fault. -/
def octets (n : Nat) (shortage : DecodeFault) : Decoder Bytes := fun bs =>
  match split? n bs with
  | some parts => .ok parts
  | none => .error shortage

namespace Format

def pair {α β : Type} (f : Format α) (g : Format β) : Format (α × β) where
  encode x := f.encode x.1 ++ g.encode x.2
  decode := do
    let a ← f.decode
    let b ← g.decode
    pure (a, b)

/-- The format of a type whose values go to and fro into those of another. -/
def map {α β : Type} (f : Format α) (read : α → β) (write : β → α) : Format β where
  encode b := f.encode (write b)
  decode := read <$> f.decode

end Format

def number (w : Nat) : Format Nat where
  encode n := toLE w n
  decode := ofLE <$> octets w .cutShort

def word32 : Format UInt32 := (number 4).map UInt32.ofNat UInt32.toNat

def word64 : Format UInt64 := (number 8).map UInt64.ofNat UInt64.toNat

/-- Negative numbers in two's complement. -/
def int64 : Format Int64 := word64.map UInt64.toInt64 Int64.toUInt64

/-- False is 0 and true is 1. -/
def bool : Format Bool where
  encode b := [if b then 1 else 0]
  decode := do
    match ← octets 1 .cutShort with
    | [1] => pure true
    | [0] => pure false
    | bs => throw (.badBool (bs.headD 0))

/-- The UTF-8 form after its length. -/
def text : Format String where
  encode s := toLE 8 (utf8 s).length ++ utf8 s
  decode := do
    let n ← (number 8).decode
    let bs ← octets n .cutText
    match Text.decode? bs with
    | some s => pure s
    | none => throw (.badText (Text.fault bs))

def many {α : Type} (f : Format α) : Nat → Decoder (List α)
  | 0 => pure []
  | n + 1 => do
    let x ← f.decode
    let xs ← many f n
    pure (x :: xs)

def list {α : Type} (f : Format α) : Format (List α) where
  encode xs := toLE 8 xs.length ++ xs.flatMap f.encode
  decode := do
    let n ← (number 8).decode
    many f n

/-- The number of one of `n` variants. -/
def tag (n : Nat) : Format (Fin n) where
  encode i := toLE 4 i.val
  decode := do
    let i ← word32.decode
    if h : i.toNat < n then pure ⟨i.toNat, h⟩ else throw (.badTag i n)

end PeerMesh.Wire
