import BetterParsec.Updater.Canon

set_option autoImplicit false
set_option linter.all false

/-!
# The complete-set manifest

The signed inventory of `tools/updater/src/manifest.rs`: what is signed, and the
checks that a manifest passes before any file is looked at. Ed25519 is a parameter.
-/

namespace BetterParsec

inductive Role where
  | client
  | host
  | shared
  deriving DecidableEq

structure ComponentEntry where
  name : String
  role : Role
  sha256 : String
  size : UInt64
  deriving DecidableEq

structure ProtocolVersions where
  fec : UInt32
  connectionTerminatedCodes : UInt32
  deriving DecidableEq

structure Manifest where
  setVersion : String
  protocol : ProtocolVersions
  components : List ComponentEntry
  signingKeyId : String
  deriving DecidableEq

structure SignedManifest where
  manifest : Manifest
  signature : String

inductive VerifyError where
  | badSignature
  | malformedSignature (message : String)
  | mixedVersionSet (name : String)
  | protocolMismatch (manifest running : ProtocolVersions)
  | missingComponent (name reason : String)
  | sizeMismatch (name : String) (expected actual : Nat)
  | hashMismatch (name : String)
  | canonicalization (error : CanonError)
  | unlistedFile (name : String)
  | enumerationFailed (message : String)
  | unsafeComponentName (name : String)

def manifestFileName : String := "manifest.json"

-- `#[serde(rename_all = "snake_case")]`
def Role.toValue : Role → Value
  | client => .string "client"
  | host => .string "host"
  | shared => .string "shared"

def ComponentEntry.toValue (component : ComponentEntry) : Value :=
  .object [("name", .string component.name), ("role", component.role.toValue),
    ("sha256", .string component.sha256), ("size", .number (.posInt component.size))]

def ProtocolVersions.toValue (protocol : ProtocolVersions) : Value :=
  .object [("fec", .number (.posInt protocol.fec.toUInt64)),
    ("connection_terminated_codes",
      .number (.posInt protocol.connectionTerminatedCodes.toUInt64))]

namespace Manifest

def toValue (manifest : Manifest) : Value :=
  .object [("set_version", .string manifest.setVersion), ("protocol", manifest.protocol.toValue),
    ("components", .array (manifest.components.map ComponentEntry.toValue)),
    ("signing_key_id", .string manifest.signingKeyId)]

def canonicalBytes (manifest : Manifest) : Except VerifyError ByteArray :=
  match canonicalize manifest.toValue with
  | .ok text => .ok text.toUTF8
  | .error error => .error (.canonicalization error)

-- The loop over the components with the entries `seen` so far.
def checkConsistent (seen : String → Option (String × UInt64)) :
    List ComponentEntry → Except VerifyError Unit
  | [] => .ok ()
  | component :: rest =>
      match seen component.name with
      | some (sha256, size) =>
          if sha256 ≠ component.sha256 ∨ size ≠ component.size then
            .error (.mixedVersionSet component.name)
          else
            checkConsistent (Function.update seen component.name
              (some (component.sha256, component.size))) rest
      | none =>
          checkConsistent (Function.update seen component.name
            (some (component.sha256, component.size))) rest

def checkInternallyConsistent (manifest : Manifest) : Except VerifyError Unit :=
  checkConsistent (fun _ => none) manifest.components

def checkProtocolCompatible (manifest : Manifest) (running : ProtocolVersions) :
    Except VerifyError Unit :=
  if manifest.protocol.fec ≠ running.fec ∨
      manifest.protocol.connectionTerminatedCodes ≠ running.connectionTerminatedCodes then
    .error (.protocolMismatch manifest.protocol running)
  else .ok ()

end Manifest

-- `hex::decode`, SHA-256 as lowercase hex, and Ed25519 verification under a key.
structure Crypto (Key : Type) where
  hexDecode : String → Except String (List UInt8)
  sha256 : List UInt8 → String
  verify : Key → ByteArray → List UInt8 → Bool

def verifySignature {Key : Type} (crypto : Crypto Key) (signed : SignedManifest)
    (trustRoot : Key) : Except VerifyError Unit :=
  match crypto.hexDecode signed.signature with
  | .error message => .error (.malformedSignature message)
  | .ok signature =>
      if signature.length ≠ 64 then .error (.malformedSignature "signature is not 64 bytes")
      else
        match signed.manifest.canonicalBytes with
        | .error error => .error error
        | .ok bytes =>
            if crypto.verify trustRoot bytes signature then .ok () else .error .badSignature

-- `split` on the separators; there is one segment more than there are separators.
def segments (isSeparator : Char → Bool) : List Char → List (List Char)
  | [] => [[]]
  | c :: rest =>
      if isSeparator c then [] :: segments isSeparator rest
      else (segments isSeparator rest).modifyHead (c :: ·)

def isSlash (c : Char) : Bool := c = '/' || c = '\\'

-- `name.get(1..2)` is the second byte if both it and the first are characters of their own.
def hasDrive : List Char → Bool
  | first :: second :: _ => first.toNat < 0x80 && second = ':'
  | _ => false

def validateComponentName (name : String) : Except VerifyError Unit :=
  if name.toList.head?.any isSlash || hasDrive name.toList ||
      (segments isSlash name.toList).any (· = ['.', '.']) then
    .error (.unsafeComponentName name)
  else .ok ()

end BetterParsec
