import PeerMesh.Credentials.Base64
import PeerMesh.Text.Quoted
import PeerMesh.Text.Utf8

/-!
# PEM text

PEM text has sections between a `BEGIN` line and the `END` line of the same label; lines outside are
ignored.

* `Label` : the labels whose sections are read; sections of other labels are skipped;
* `PemFault` : why a text cannot be read on;
* `sections bs` : the sections up to the first fault, and that fault;
* `all label bs` : every section of a label, a fault anywhere being fatal;
* `first? f bs` : what `f` makes of the first section that it makes anything of, a later fault being
  harmless.
-/

namespace PeerMesh.Credentials

/-- Why PEM text cannot be read on. -/
inductive PemFault where
  /-- A line begins like a `BEGIN` line and does not end like one. -/
  | badStart (line : Bytes)
  /-- The text ends inside the section of this label. -/
  | missingEnd (label : Bytes)
  | badContent (fault : Base64Fault)
  deriving DecidableEq, Repr, Inhabited

def PemFault.message : PemFault → String
  | badStart line => "illegal section start: " ++ Text.quoted (Text.lossy line)
  | missingEnd label => "section end " ++ Text.quoted (Text.lossy label) ++ " missing"
  | badContent fault => fault.message

namespace Pem

/-- The labels whose sections are read. -/
inductive Label where
  | certificate
  | publicKey
  | rsaKey
  | privateKey
  | ecKey
  | revocations
  | request
  | echConfig
  deriving DecidableEq, Repr

def Label.ofBytes? (bs : Bytes) : Option Label :=
  if bs = utf8 "CERTIFICATE" then some .certificate
  else if bs = utf8 "PUBLIC KEY" then some .publicKey
  else if bs = utf8 "RSA PRIVATE KEY" then some .rsaKey
  else if bs = utf8 "PRIVATE KEY" then some .privateKey
  else if bs = utf8 "EC PRIVATE KEY" then some .ecKey
  else if bs = utf8 "X509 CRL" then some .revocations
  else if bs = utf8 "CERTIFICATE REQUEST" then some .request
  else if bs = utf8 "ECHCONFIG" then some .echConfig
  else none

structure Section where
  label : Label
  content : Bytes
  deriving DecidableEq, Repr

/-- The lines of a text, each with the line feed or carriage return that ends it; `line` holds the
beginning of the first one (in reverse). -/
def linesFrom (line : Bytes) : Bytes → List Bytes
  | [] => if line.isEmpty then [] else [line.reverse]
  | b :: bs =>
    if b = 0x0A ∨ b = 0x0D then (b :: line).reverse :: linesFrom [] bs else linesFrom (b :: line) bs

def beginMark : Bytes := utf8 "-----BEGIN "

def endMark (label : Bytes) : Bytes := utf8 "-----END " ++ label ++ utf8 "-----"

/-- The label of a `BEGIN` line: it stands before five dashes, among which and after which only
blanks and line ends may stand. -/
def labelOf? (line : Bytes) : Option Bytes :=
  let trailer := line.reverse.takeWhile fun b => b = 0x2D || b = 0x0A || b = 0x0D || b = 0x20
  if trailer.count 0x2D = 5 then
    let blanks := (trailer.reverse.takeWhile fun b => b ≠ 0x2D).length
    some ((line.take (line.length - trailer.length + blanks)).drop beginMark.length)
  else none

/-- The sections in the given lines, when a section of label `inside` has begun and holds `body` so
far, up to the first fault. -/
def sectionsFrom (inside : Option Bytes) (body : Bytes) : List Bytes → List Section × Option PemFault
  | [] => ([], inside.map .missingEnd)
  | line :: lines =>
    if beginMark.isPrefixOf line then
      match labelOf? line with
      | none => ([], some (.badStart line))
      | some label => sectionsFrom (some label) body lines
    else
      match inside with
      | none => sectionsFrom none body lines
      | some label =>
        if (endMark label).isPrefixOf line then
          match Label.ofBytes? label with
          | none => sectionsFrom none [] lines
          | some known =>
            match Base64.decode body with
            | .error fault => ([], some (.badContent fault))
            | .ok content =>
              let (more, fault) := sectionsFrom none [] lines
              (⟨known, content⟩ :: more, fault)
        else sectionsFrom inside (body ++ line) lines

/-- The sections of a text up to the first fault, and that fault. -/
def sections (text : Bytes) : List Section × Option PemFault := sectionsFrom none [] (linesFrom [] text)

def all (label : Label) (text : Bytes) : Except PemFault (List Bytes) :=
  match sections text with
  | (_, some fault) => .error fault
  | (found, none) => .ok ((found.filter fun s => s.label = label).map Section.content)

/-- What `f` makes of the first section that it makes anything of. -/
def first? {α : Type} (f : Section → Option α) (text : Bytes) : Except PemFault (Option α) :=
  match sections text with
  | (found, fault) =>
    match found.findSome? f, fault with
    | some a, _ => .ok (some a)
    | none, some fault => .error fault
    | none, none => .ok none

end Pem

end PeerMesh.Credentials
