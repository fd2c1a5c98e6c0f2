import DeviceUniqueness.Intake.Validate
import DeviceUniqueness.Text.Base64

/-! Android device evidence: how it is read out of a body, and what it takes for it to verify.

    The three fields of the evidence are read here once more, from the JSON itself and not from the
    decoded request. Evidence binds a challenge, the authenticated account and the device together
    through the challenge of an attested key; hashing and the verification of the certificate chain
    are parameters. -/

namespace DeviceUniqueness

/-! ### Reading -/

inductive EvidenceError where
  | malformed (why : String)
  | invalid (why : String)
  deriving DecidableEq, Repr

def EvidenceError.toUsernames : EvidenceError → UsernamesError
  | .malformed _ => .deviceEvidenceMalformed
  | .invalid _ => .deviceEvidenceInvalid

structure RawEvidence where
  chainDer : List Bytes
  challenge : FixedBytes 32
  deviceId : FixedBytes 32
  deriving DecidableEq

def minChainEntries : Nat := 2
def maxChainEntries : Nat := 10
def maxEntryChars : Nat := 8192

def decodeEntry (i : Nat) (entry : Json) : Except EvidenceError Bytes :=
  let name := "attestationChain[" ++ toString i ++ "]"
  match entry with
  | .str raw =>
      if maxEntryChars < (utf8 raw).length then
        .error (.malformed (name ++ " exceeds " ++ toString maxEntryChars ++ " chars"))
      else match base64Decode (utf8 (trim raw)) with
        | some der => .ok der
        | none => .error (.malformed (name ++ " is not valid base64"))
  | _ => .error (.malformed (name ++ " must be a string"))

def decodeEntries : Nat → List Json → Except EvidenceError (List Bytes)
  | _, [] => .ok []
  | i, entry :: entries => do
      let der ← decodeEntry i entry
      let rest ← decodeEntries (i + 1) entries
      return der :: rest

def decode32 (field : String) (value : Json) : Except EvidenceError (FixedBytes 32) :=
  match value with
  | .str raw =>
      match base64Decode (utf8 (trim raw)) with
      | some bytes =>
          if h : bytes.length = 32 then .ok ⟨bytes, h⟩
          else .error (.malformed (field ++ " must be exactly 32 bytes"))
      | none => .error (.malformed (field ++ " is not valid base64"))
  | _ => .error (.malformed (field ++ " must be a string"))

def extract (body : Json) : Except EvidenceError (Option RawEvidence) :=
  match body.get "attestationChain", body.get "deviceChallenge", body.get "deviceId" with
  | none, none, none => .ok none
  | some chain, some challenge, some deviceId => do
      let entries ← match chain with
        | .arr entries => .ok entries
        | _ => .error (.malformed "attestationChain must be an array of strings")
      if entries.length < minChainEntries ∨ maxChainEntries < entries.length then
        .error (.malformed ("attestationChain has " ++ toString entries.length ++
          " entries, expected " ++ toString minChainEntries ++ "..=" ++ toString maxChainEntries))
      else do
        let chainDer ← decodeEntries 0 entries
        let challenge ← decode32 "deviceChallenge" challenge
        let deviceId ← decode32 "deviceId" deviceId
        return some { chainDer, challenge, deviceId }
  | _, _, _ =>
      .error (.malformed
        "attestationChain, deviceChallenge and deviceId must be present together")

/-! ### Verifying -/

structure WidevineConfig where
  enforce : Bool
  hmacKey : FixedBytes 32

/-- What the chain of an attested key is verified against. -/
structure ChainParams where
  challenge : Bytes
  packageNames : List String
  playstoreDigest : FixedBytes 32
  websiteDigest : FixedBytes 32
  revokedSerials : List String
  nowUnix : Int

/-- What else the libraries decide. -/
structure GateExt extends Ext where
  describe : SerdeError → String
  sha256 : Bytes → FixedBytes 32
  hmacSha256 : FixedBytes 32 → Bytes → FixedBytes 32
  verifyChain : List Bytes → ChainParams → Except String Unit

/-- What the gates read of the configuration, beside what validation reads. -/
structure GateConfig extends IntakeConfig where
  enforceAuth : Bool
  queueEnabled : Bool
  deviceCheck : Bool
  widevine : Option WidevineConfig
  androidPackageNames : List String
  androidSigningDigestPlaystore : Option (FixedBytes 32)
  androidSigningDigestWebsite : Option (FixedBytes 32)

structure VerifiedEvidence where
  challenge : FixedBytes 32
  hmac : FixedBytes 32
  deriving DecidableEq

def poudDomain : Bytes := utf8 "dub/poud/android/v1"

def deviceHmac (ext : GateExt) (key deviceId : FixedBytes 32) : FixedBytes 32 :=
  ext.hmacSha256 key (utf8 "poud:v1" ++ deviceId.1)

def verifyEvidence (ext : GateExt) (config : GateConfig) (widevine : WidevineConfig)
    (revokedSerials : List String) (subjectPubkey : FixedBytes 32) (nowUnix : Int)
    (evidence : RawEvidence) : Except EvidenceError VerifiedEvidence :=
  let expectedChallenge := ext.sha256
    (poudDomain ++ evidence.challenge.1 ++ subjectPubkey.1 ++ evidence.deviceId.1)
  match config.androidSigningDigestPlaystore, config.androidSigningDigestWebsite with
  | some playstoreDigest, some websiteDigest =>
      match ext.verifyChain evidence.chainDer
          { challenge := expectedChallenge.1, packageNames := config.androidPackageNames,
            playstoreDigest, websiteDigest, revokedSerials, nowUnix } with
      | .ok () => .ok ⟨evidence.challenge, deviceHmac ext widevine.hmacKey evidence.deviceId⟩
      | .error e => .error (.invalid e)
  | _, _ => .error (.invalid "android signing digests are not configured")

end DeviceUniqueness
