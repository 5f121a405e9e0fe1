import PeerMesh.Credentials.Certificate
import PeerMesh.Credentials.Pem
import PeerMesh.Credentials.PrivateKey
import PeerMesh.Files
import PeerMesh.Text.Blank

/-!
# Loading credentials

* `CredentialError` : why there are no credentials;
* `ClientCredentials` : the certificates that a client trusts. `ClientCredentials.load` takes them from
  a file, or else from a text that is not blank;
* `ServerCredentials` : the certificates and the key that a server shows. `ServerCredentials.load` reads
  the certificate's file before the key's;
* `Security` : how a connection is protected. Where no credentials can be loaded it is open
  (`Security.ofLoaded`): being reachable goes before being private.
-/

namespace PeerMesh

open Credentials

/-- Why a chain of certificates and a key do not make a configuration. -/
inductive TlsFault where
  | badCertificate (fault : CertificateFault)
  | badKey
  | keyMismatch
  deriving DecidableEq, Repr, Inhabited

def TlsFault.message : TlsFault → String
  | badCertificate fault => "invalid peer certificate: " ++ fault.message
  | badKey => "unexpected error: failed to parse private key as RSA, ECDSA, or EdDSA"
  | keyMismatch => "keys may not be consistent: KeyMismatch"

/-- Why there are no credentials. -/
inductive CredentialError where
  | notConfigured
  | read (path : String) (fault : IoFault)
  | noCertificates
  | noPrivateKey
  | pem (fault : PemFault)
  | tls (fault : TlsFault)
  deriving DecidableEq, Repr, Inhabited

namespace CredentialError

def message : CredentialError → String
  | notConfigured => "no CA certificate configured"
  | read path fault => "failed to read " ++ path ++ ": " ++ fault.message
  | noCertificates => "no certificates found in PEM input"
  | noPrivateKey => "no private key found in PEM input"
  | pem fault => "malformed PEM: " ++ fault.message
  | tls fault => "tls: " ++ fault.message

def chain (e : CredentialError) : List String :=
  e.message :: match e with
    | read _ fault => [fault.message]
    | tls fault => [fault.message]
    | _ => []

end CredentialError

/-- The contents of the certificates in PEM text, of which there must be one. -/
def certificatesIn (pem : Bytes) : Except CredentialError (List Bytes) :=
  match Pem.all .certificate pem with
  | .error fault => .error (.pem fault)
  | .ok [] => .error .noCertificates
  | .ok found => .ok found

/-- How the key in a section is written, if the section holds one. -/
def keyForm? : Pem.Label → Option KeyForm
  | .rsaKey => some .rsa
  | .privateKey => some .wrapped
  | .ecKey => some .curve
  | _ => none

def keyIn (pem : Bytes) : Except CredentialError (KeyForm × Bytes) :=
  match Pem.first? (fun s => (keyForm? s.label).map (·, s.content)) pem with
  | .error fault => .error (.pem fault)
  | .ok none => .error .noPrivateKey
  | .ok (some found) => .ok found

def readPem (files : Files) (path : String) : Except CredentialError Bytes :=
  (files path).mapError (.read path)

/-! ## Clients -/

structure ClientCredentials where
  roots : List Certificate
  deriving DecidableEq, Repr

namespace ClientCredentials

def ofPem (pem : Bytes) : Except CredentialError ClientCredentials := do
  let found ← certificatesIn pem
  let roots ← found.mapM fun encoded =>
    (Certificate.readRoot encoded).mapError fun fault => .tls (.badCertificate fault)
  pure { roots }

/-- Credentials from a file, or else from a text that is not blank. -/
def load (files : Files) (path text : Option String) : Except CredentialError ClientCredentials :=
  match path, text with
  | some path, _ => readPem files path >>= ofPem
  | none, some text => if Text.allBlank text then .error .notConfigured else ofPem (utf8 text)
  | none, none => .error .notConfigured

end ClientCredentials

/-! ## Servers -/

structure ServerCredentials where
  certificates : List Bytes
  key : PrivateKey
  deriving DecidableEq, Repr

namespace ServerCredentials

def check (key : PrivateKey) (certificate : Bytes) : Except TlsFault Unit :=
  match Certificate.read .strict certificate with
  | .error fault => .error (.badCertificate fault)
  | .ok certificate => if certificate.keyInfo = key.keyInfo then .ok () else .error .keyMismatch

/-- The first certificate is the server's own, the first key its key. -/
def ofPem (certificates key : Bytes) : Except CredentialError ServerCredentials := do
  let certificates ← certificatesIn certificates
  let (form, encoded) ← keyIn key
  match PrivateKey.read? form encoded with
  | none => throw (.tls .badKey)
  | some key =>
    (check key (certificates.headD [])).mapError .tls
    pure { certificates, key }

def load (files : Files) (certificatePath keyPath : String) : Except CredentialError ServerCredentials := do
  let certificates ← readPem files certificatePath
  let key ← readPem files keyPath
  ofPem certificates key

end ServerCredentials

inductive Security where
  | tls (credentials : ClientCredentials)
  /-- Open, and the other side unknown. -/
  | insecure
  deriving DecidableEq, Repr

namespace Security

/-- Protected when there are credentials, open otherwise. -/
def ofLoaded : Except CredentialError ClientCredentials → Security
  | .ok credentials => .tls credentials
  | .error _ => .insecure

def isSecure : Security → Bool
  | tls _ => true
  | insecure => false

end Security

end PeerMesh
