import PeerMesh.Credentials.Der

/-!
# Certificates

* `Certificate` : a certificate and the public key it certifies;
* `CertificateFault` : why octets are no certificate that is understood;
* `Strictness` : whether an unknown extension may be critical;
* `Certificate.read` : a certificate of version 3. Its extensions are read as far as they may forbid its
  use: none that is known may come twice;
* `Certificate.readRoot` : a certificate that is trusted as it is, whatever extensions it has. It may be of
  version 1.
-/

namespace PeerMesh.Credentials

structure Certificate where
  encoded : Bytes
  /-- The certified public key, with the name of its algorithm. -/
  keyInfo : Bytes
  deriving DecidableEq, Repr

/-- Why octets are no certificate that is understood. -/
inductive CertificateFault where
  | badEncoding
  | unsupportedVersion
  /-- The certificate is said to be signed in two different ways. -/
  | algorithmMismatch
  | unknownCriticalExtension
  | repeatedExtension
  deriving DecidableEq, Repr, Inhabited

def CertificateFault.message : CertificateFault → String
  | badEncoding => "BadEncoding"
  | unsupportedVersion => "Other(OtherError(UnsupportedCertVersion))"
  | algorithmMismatch => "Other(OtherError(SignatureAlgorithmMismatch))"
  | unknownCriticalExtension => "Other(OtherError(UnsupportedCriticalExtension))"
  | repeatedExtension => "Other(OtherError(ExtensionValueInvalid))"

/-- What becomes of an extension that is critical, but not known. -/
inductive Strictness where
  /-- The certificate is refused. -/
  | strict
  /-- The extension is passed over. -/
  | lenient
  deriving DecidableEq, Repr, Inhabited

namespace Certificate

def encoded? {α : Type} : Option α → Except CertificateFault α
  | some a => .ok a
  | none => .error .badEncoding

def next (tag : UInt8) (bs : Bytes) : Except CertificateFault (Bytes × Bytes) := encoded? (Der.expect? tag bs)

/-- The version, which must be the third, and what follows it. -/
def skipVersion (bs : Bytes) : Except CertificateFault Bytes :=
  match Der.expect? (Der.context 0) bs with
  | none => .error .unsupportedVersion
  | some (version, rest) => do
    let (n, more) ← encoded? (Der.small? version)
    if n = 2 ∧ more.isEmpty then pure rest else throw .unsupportedVersion

/-! ## Extensions -/

/-- The numbers of the known extensions, among those of the standard. -/
def knownExtensions : List UInt8 := [15, 17, 19, 30, 31, 37]

def known? (name : Bytes) : Option UInt8 :=
  match name with
  | [0x55, 0x1D, n] => if n ∈ knownExtensions then some n else none
  | _ => none

/-- Whether an extension is critical, which it is not unless it says so, and what follows. -/
def critical (bs : Bytes) : Except CertificateFault (Bool × Bytes) :=
  if bs.head? = some Der.boolean then do
    let (contents, rest) ← next Der.boolean bs
    match contents with
    | [0xFF] => pure (true, rest)
    | [0x00] => pure (false, rest)
    | _ => throw .badEncoding
  else .ok (false, bs)

/-- Reads one extension when the known ones in `seen` have come before. -/
def extension (strictness : Strictness) (seen : List UInt8) (bs : Bytes) : Except CertificateFault (List UInt8) := do
  let (name, bs) ← next Der.objectName bs
  let (critical, bs) ← critical bs
  let (value, rest) ← next Der.octetString bs
  let seen ← match known? name with
    | none => if critical && strictness = .strict then throw .unknownCriticalExtension else pure seen
    | some n =>
      if n ∈ seen then throw .repeatedExtension
      else if n = 15 then pure (n :: seen)
      else do
        let _ ← encoded? (Der.only? Der.sequence value)
        pure (n :: seen)
  if rest.isEmpty then pure seen else throw .badEncoding

/-- Reads all extensions; each takes at least one octet, so the fuel is the number of octets. -/
def extensions (strictness : Strictness) : Nat → List UInt8 → Bytes → Except CertificateFault Unit
  | _, _, [] => .ok ()
  | 0, _, _ => .error .badEncoding
  | fuel + 1, seen, bs => do
    let (contents, rest) ← next Der.sequence bs
    let seen ← extension strictness seen contents
    extensions strictness fuel seen rest

/-! ## Whole certificates -/

def parts (encoded : Bytes) : Except CertificateFault (Bytes × Bytes) := do
  let outer ← encoded? (Der.only? Der.sequence encoded)
  let (body, rest) ← next Der.sequence outer
  let (algorithm, rest) ← next Der.sequence rest
  let signature ← encoded? (Der.only? Der.bitString rest)
  let _ ← encoded? (Der.bits? signature)
  pure (body, algorithm)

def read (strictness : Strictness) (encoded : Bytes) : Except CertificateFault Certificate := do
  let (body, algorithm) ← parts encoded
  let body ← skipVersion body
  let (_serial, body) ← next Der.integer body
  let (signedBy, body) ← next Der.sequence body
  if signedBy ≠ algorithm then throw .algorithmMismatch
  let (_issuer, body) ← next Der.sequence body
  let (_validity, body) ← next Der.sequence body
  let (_subject, body) ← next Der.sequence body
  let (keyInfo, body) ← next Der.sequence body
  unless body.isEmpty do
    let tagged ← encoded? (Der.expect? (Der.context 3) body)
    let list ← encoded? (Der.expect? Der.sequence tagged.1)
    extensions strictness list.1.length [] list.1
    unless tagged.2.isEmpty && list.2.isEmpty do throw .badEncoding
  pure { encoded, keyInfo }

/-- Reads a certificate of version 1, which tells neither its version nor extensions. -/
def readFirst (encoded : Bytes) : Option Certificate := do
  let outer ← Der.only? Der.sequence encoded
  let (body, rest) ← Der.expect? Der.sequence outer
  let (_, rest) ← Der.expect? Der.sequence rest
  let _ ← Der.only? Der.bitString rest
  let (_serial, body) ← Der.expect? Der.integer body
  let (_signedBy, body) ← Der.expect? Der.sequence body
  let (_issuer, body) ← Der.expect? Der.sequence body
  let (_validity, body) ← Der.expect? Der.sequence body
  let (_subject, body) ← Der.expect? Der.sequence body
  let keyInfo ← Der.only? Der.sequence body
  pure { encoded, keyInfo }

def readRoot (encoded : Bytes) : Except CertificateFault Certificate :=
  match read .lenient encoded with
  | .error .unsupportedVersion => encoded? (readFirst encoded)
  | result => result

end Certificate

end PeerMesh.Credentials
