import DeviceUniqueness.Auth.Headers

/-! The evidence behind a token: the client's proof, an App Attest assertion, a Play Integrity token,
    an Android key attestation.

    Hashes, signatures, certificates and the decoding of JSON and CBOR are the libraries' and stay
    parameters (`AuthExt`); what the service itself looks at in them is modelled. -/

namespace DeviceUniqueness

/-! ### App Attest -/

/-- A CBOR value; nothing is read of the kinds under `other`. -/
inductive Cbor where
  | bytes (bytes : Bytes)
  | text (text : String)
  | array (items : List Cbor)
  | map (entries : List (Cbor × Cbor))
  | other

namespace Cbor

def asText : Cbor → Option String
  | .text s => some s
  | _ => none

def asBytes : Cbor → Option Bytes
  | .bytes bs => some bs
  | _ => none

def asArray : Cbor → Option (List Cbor)
  | .array items => some items
  | _ => none

def asMap : Cbor → Option (List (Cbor × Cbor))
  | .map entries => some entries
  | _ => none

end Cbor

def mapGet (map : List (Cbor × Cbor)) (key : String) : Option Cbor :=
  (map.find? fun (k, _) => k.asText = some key).map Prod.snd

inductive AttestError where
  | malformed (why : String)
  | chain (why : String)
  | nonce
  | keyId
  | appId
  | counter
  | aaguid
  | signature
  | signCount
  deriving DecidableEq

def AttestError.text : AttestError → String
  | .malformed why => "malformed attestation payload: " ++ why
  | .chain why => "certificate chain rejected: " ++ why
  | .nonce => "attestation nonce mismatch"
  | .keyId => "key id mismatch"
  | .appId => "no configured App ID matches rpIdHash"
  | .counter => "attestation counter is not 0"
  | .aaguid => "unrecognized AAGUID"
  | .signature => "assertion signature invalid"
  | .signCount => "assertion sign count did not increase"

/-- `ok_or`. -/
def okOr {ε α : Type} (e : ε) : Option α → Except ε α
  | some x => .ok x
  | none => .error e

/-- A certificate, as far as it is read. -/
structure Certificate where
  der : Bytes
  extensions : List (String × Bytes)
  subjectPublicKey : Bytes
  deriving DecidableEq

/-- The number of big-endian bytes. -/
def bigEndian (bytes : Bytes) : Nat := bytes.foldl (fun n b => 256 * n + b.toNat) 0

/-- `data[from..to]`. -/
def slice (data : Bytes) (start stop : Nat) : Bytes := (data.take stop).drop start

structure AuthenticatorData where
  rpIdHash : Bytes
  counter : Nat
  aaguid : Option Bytes
  credentialId : Option Bytes
  deriving DecidableEq

def AuthenticatorData.parse (data : Bytes) : Except AttestError AuthenticatorData :=
  if data.length < 37 then .error (.malformed "authenticator data too short")
  else
    let rpIdHash := slice data 0 32
    let counter := bigEndian (slice data 33 37)
    if 55 ≤ data.length then
      let length := bigEndian (slice data 53 55)
      if 55 + length ≤ data.length then
        .ok ⟨rpIdHash, counter, some (slice data 37 53), some (slice data 55 (55 + length))⟩
      else .error (.malformed "credential id out of bounds")
    else .ok ⟨rpIdHash, counter, none, none⟩

/-! ### Play Integrity -/

inductive PlayIntegrityMode where
  | strict
  | relaxedDevice
  | relaxedAll
  deriving DecidableEq

inductive PlayIntegrityError where
  | malformed (why : String)
  | decrypt (why : String)
  | signature
  | nonce
  | rejected (codes : List String)
  deriving DecidableEq

def PlayIntegrityError.text : PlayIntegrityError → String
  | .malformed why => "malformed integrity token: " ++ why
  | .decrypt why => "integrity token decryption failed: " ++ why
  | .signature => "integrity token signature invalid"
  | .nonce => "integrity token nonce mismatch"
  | .rejected codes => "integrity verdicts rejected: " ++ ",".intercalate codes

structure RequestDetails where
  nonce : Option String

structure AppIntegrity where
  appRecognitionVerdict : Option String
  packageName : Option String
  certificateSha256Digest : Option (List String)

structure DeviceIntegrity where
  deviceRecognitionVerdict : Option (List String)

structure AccountDetails where
  appLicensingVerdict : Option String

structure TokenPayload where
  requestDetails : Option RequestDetails
  appIntegrity : Option AppIntegrity
  deviceIntegrity : Option DeviceIntegrity
  accountDetails : Option AccountDetails

structure PolicyParams where
  expectedNonce : FixedBytes 32
  mode : PlayIntegrityMode
  packageNames : List String
  playstoreDigest : FixedBytes 32
  websiteDigest : FixedBytes 32

structure ModePolicy where
  acceptAppRecognition : List String
  acceptDeviceRecognition : List String
  acceptEmptyDeviceRecognition : Bool
  acceptAppLicensing : List String
  acceptMissingAppIntegrity : Bool

def ModePolicy.strict : ModePolicy where
  acceptAppRecognition := ["PLAY_RECOGNIZED"]
  acceptDeviceRecognition := ["MEETS_STRONG_INTEGRITY", "MEETS_DEVICE_INTEGRITY"]
  acceptEmptyDeviceRecognition := false
  acceptAppLicensing := ["LICENSED"]
  acceptMissingAppIntegrity := false

def ModePolicy.relaxedDevice : ModePolicy where
  acceptAppRecognition := ["PLAY_RECOGNIZED"]
  acceptDeviceRecognition :=
    ["MEETS_DEVICE_INTEGRITY", "MEETS_BASIC_INTEGRITY", "MEETS_STRONG_INTEGRITY"]
  acceptEmptyDeviceRecognition := false
  acceptAppLicensing := ["LICENSED"]
  acceptMissingAppIntegrity := false

def ModePolicy.relaxedAll : ModePolicy where
  acceptAppRecognition := ["PLAY_RECOGNIZED", "UNRECOGNIZED_VERSION", "UNEVALUATED"]
  acceptDeviceRecognition :=
    ["MEETS_DEVICE_INTEGRITY", "MEETS_BASIC_INTEGRITY", "MEETS_STRONG_INTEGRITY",
      "MEETS_VIRTUAL_INTEGRITY"]
  acceptEmptyDeviceRecognition := true
  acceptAppLicensing := ["LICENSED", "UNLICENSED", "UNEVALUATED"]
  acceptMissingAppIntegrity := true

def knownAppRecognition : List String :=
  ["PLAY_RECOGNIZED", "UNRECOGNIZED_VERSION", "UNEVALUATED"]

def knownDeviceRecognition : List String :=
  ["MEETS_DEVICE_INTEGRITY", "MEETS_BASIC_INTEGRITY", "MEETS_STRONG_INTEGRITY",
    "MEETS_VIRTUAL_INTEGRITY"]

def knownAppLicensing : List String := ["LICENSED", "UNLICENSED", "UNEVALUATED"]

def PlayIntegrityMode.policy : PlayIntegrityMode → ModePolicy
  | .strict => .strict
  | .relaxedDevice => .relaxedDevice
  | .relaxedAll => .relaxedAll

def known (value : Option String) (knownValues : List String) : Option String :=
  value.filter fun v => v ∈ knownValues

/-- A symbol of the URL-safe alphabet in the standard one. -/
def urlSymbol (b : UInt8) : UInt8 :=
  if b = 45 then 43 else if b = 95 then 47 else if b = 43 ∨ b = 47 then 0 else b

/-- Base64 in the URL-safe alphabet, without padding or with all of it. -/
def b64url (input : String) : Option Bytes :=
  let trimmed := utf8 (trim input)
  let unpadded := if 61 ∈ trimmed then none else
    base64Decode (trimmed.map urlSymbol ++ List.replicate ((4 - trimmed.length % 4) % 4) 61)
  unpadded <|> base64Decode (trimmed.map urlSymbol)

/-- The verdicts of a payload against the policy: whether Play distributed the app. -/
def validatePayload (payload : TokenPayload) (params : PolicyParams) :
    Except PlayIntegrityError Bool :=
  let policy := params.mode.policy
  let appRecognition := known (payload.appIntegrity.bind (·.appRecognitionVerdict))
    knownAppRecognition
  let deviceVerdicts := ((payload.deviceIntegrity.bind (·.deviceRecognitionVerdict)).getD []).filter
    fun v => v ∈ knownDeviceRecognition
  let deviceOk := if deviceVerdicts.isEmpty then policy.acceptEmptyDeviceRecognition
    else deviceVerdicts.any fun v => v ∈ policy.acceptDeviceRecognition
  let licensing := known (payload.accountDetails.bind (·.appLicensingVerdict)) knownAppLicensing
  let tokenDigests := ((payload.appIntegrity.bind (·.certificateSha256Digest)).getD []).filterMap
    b64url
  let fingerprintOk := if tokenDigests.isEmpty then policy.acceptMissingAppIntegrity
    else tokenDigests.any fun d => d = params.playstoreDigest.1 || d = params.websiteDigest.1
  let packageOk := match payload.appIntegrity.bind (·.packageName) with
    | some name => params.packageNames.any (· = name)
    | none => policy.acceptMissingAppIntegrity
  let codes :=
    (if appRecognition.any (· ∈ policy.acceptAppRecognition) then [] else ["APP_INTEGRITY_FAILED"]) ++
    (if deviceOk then [] else ["DEVICE_INTEGRITY_FAILED"]) ++
    (if licensing.any (· ∈ policy.acceptAppLicensing) then [] else ["LICENSE_CHECK_FAILED"]) ++
    (if fingerprintOk then [] else ["APK_FINGERPRINT_MISMATCH"]) ++
    (if packageOk then [] else ["PACKAGE_NAME_MISMATCH"])
  if codes ≠ [] then .error (.rejected codes)
  else
    -- the signing digest alone does not say who distributed the app
    let playDistributed :=
      appRecognition = some "PLAY_RECOGNIZED" && licensing = some "LICENSED"
    .ok (playDistributed && tokenDigests.any fun d => d = params.playstoreDigest.1)

def checkPayload (payload : TokenPayload) (policy : PolicyParams) :
    Except PlayIntegrityError Bool :=
  match (payload.requestDetails.bind (·.nonce)).bind b64url with
  | some nonce =>
      if nonce = policy.expectedNonce.1 then validatePayload payload policy else .error .nonce
  | none => .error .nonce

/-! ### What the libraries decide -/

/-- Beside what the gates leave to them: JSON and CBOR, certificates, P-256, and the encryption and
    signature of an integrity token. -/
structure AuthExt extends GateExt where
  jsonFromSlice : Bytes → Except String Json
  cborFromReader : Bytes → Except String Cbor
  certFromDer : Bytes → Except String Certificate
  checkValidity : Certificate → Int → Except String Unit
  verifySignedBy : Certificate → Certificate → Except String Unit
  p256Key : Bytes → Except String Unit
  p256Signature : Bytes → Bool
  p256Verify : Bytes → Bytes → Bytes → Bool
  decryptAndVerify : String → FixedBytes 32 → Bytes → Except PlayIntegrityError TokenPayload
  appleRootCa : Bytes

variable (ext : AuthExt)

/-! ### The client's proof -/

def clientDataHash (challenge : Bytes) (clientId : FixedBytes 32) (body : Bytes) : FixedBytes 32 :=
  ext.sha256 (challenge ++ clientId.1 ++ (ext.sha256 body).1)

def proofVerify (challenge : Bytes) (clientId : FixedBytes 32) (body : Bytes)
    (proof : FixedBytes 64) : Bool :=
  ext.verify proof (clientDataHash ext challenge clientId body).1 clientId

/-! ### Assertions and attestations -/

def checkAppId (rpIdHash : Bytes) (appIds : List String) : Except AttestError Unit :=
  if appIds.any fun appId => (ext.sha256 (utf8 appId)).1 = rpIdHash then .ok () else .error .appId

def decodeCbor (bytes : Bytes) : Except AttestError Cbor :=
  (ext.cborFromReader bytes).mapError fun e => .malformed ("cbor: " ++ e)

def decodeAssertion (bytes : Bytes) : Except AttestError (Bytes × Bytes) := do
  let value ← decodeCbor ext bytes
  let map ← okOr (.malformed "assertion is not a map") value.asMap
  let signature ← okOr (.malformed "missing signature") ((mapGet map "signature").bind Cbor.asBytes)
  let authData ← okOr (.malformed "missing authenticatorData")
    ((mapGet map "authenticatorData").bind Cbor.asBytes)
  return (signature, authData)

/-- The counter of an assertion that verifies and is above `prevSignCount`. -/
def verifyAssertion (assertion : Bytes) (clientDataHash : FixedBytes 32) (publicKey : Bytes)
    (appIds : List String) (prevSignCount : Int) : Except AttestError Int := do
  let (signatureDer, authData) ← decodeAssertion ext assertion
  let auth ← AuthenticatorData.parse authData
  let nonce := ext.sha256 (authData ++ clientDataHash.1)
  (ext.p256Key publicKey).mapError fun e => .malformed ("stored public key: " ++ e)
  if !ext.p256Signature signatureDer then .error .signature
  if !ext.p256Verify publicKey nonce.1 signatureDer then .error .signature
  checkAppId ext auth.rpIdHash appIds
  let next : Int := auth.counter
  if next ≤ prevSignCount then .error .signCount
  return next

structure AttestationDoc where
  credCert : Bytes
  intermediateCert : Bytes
  receipt : Bytes
  authData : Bytes

def decodeAttestation (bytes : Bytes) : Except AttestError AttestationDoc := do
  let value ← decodeCbor ext bytes
  let map ← okOr (.malformed "attestation is not a map") value.asMap
  let fmt ← okOr (.malformed "missing fmt") ((mapGet map "fmt").bind Cbor.asText)
  if fmt ≠ "apple-appattest" then .error (.malformed ("unexpected fmt " ++ debugText fmt))
  let attStmt ← okOr (.malformed "missing attStmt") ((mapGet map "attStmt").bind Cbor.asMap)
  let authData ← okOr (.malformed "missing authData") ((mapGet map "authData").bind Cbor.asBytes)
  let receipt ← okOr (.malformed "missing receipt") ((mapGet attStmt "receipt").bind Cbor.asBytes)
  let x5c ← okOr (.malformed "missing x5c") ((mapGet attStmt "x5c").bind Cbor.asArray)
  match x5c with
  | [cred, intermediate] =>
      let credCert ← okOr (.malformed "x5c entry is not bytes") cred.asBytes
      let intermediateCert ← okOr (.malformed "x5c entry is not bytes") intermediate.asBytes
      return { credCert, intermediateCert, receipt, authData }
  | _ => .error (.malformed
      ("x5c has " ++ toString x5c.length ++ " certificates, expected exactly 2"))

def appAttestNonceOid : String := "1.2.840.113635.100.8.2"

def prodAaguid : Bytes := utf8 "appattest" ++ List.replicate 7 0
def devAaguid : Bytes := utf8 "appattestdevelop"

structure AttestedKey where
  publicKey : Bytes
  receipt : Bytes
  deriving DecidableEq

def parseCert (what : String) (der : Bytes) : Except AttestError Certificate :=
  (ext.certFromDer der).mapError fun e => .malformed (what ++ " cert: " ++ e)

def verifyCert (child parent : Certificate) (nowUnix : Int) : Except AttestError Unit := do
  (ext.checkValidity child nowUnix).mapError .chain
  (ext.verifySignedBy child parent).mapError .chain

def verifyAttestation (attestation challenge keyId : Bytes) (appIds : List String)
    (trustedRootDer : Bytes) (nowUnix : Int) : Except AttestError AttestedKey := do
  let doc ← decodeAttestation ext attestation
  let auth ← AuthenticatorData.parse doc.authData
  let root ← parseCert ext "root" trustedRootDer
  let cred ← parseCert ext "cred" doc.credCert
  let intermediate ← parseCert ext "intermediate" doc.intermediateCert
  verifyCert ext cred intermediate nowUnix
  verifyCert ext intermediate root nowUnix
  let nonce := ext.sha256 (doc.authData ++ (ext.sha256 challenge).1)
  let extension ← okOr .nonce (cred.extensions.lookup appAttestNonceOid)
  -- the nonce is the end of the extension
  if extension.length < 32 then .error .nonce
  if extension.drop (extension.length - 32) ≠ nonce.1 then .error .nonce
  let publicKey := cred.subjectPublicKey
  if (ext.sha256 publicKey).1 ≠ keyId then .error .keyId
  if auth.credentialId ≠ some keyId then .error .keyId
  checkAppId ext auth.rpIdHash appIds
  if auth.counter ≠ 0 then .error .counter
  if auth.aaguid ≠ some prodAaguid ∧ auth.aaguid ≠ some devAaguid then .error .aaguid
  return { publicKey, receipt := doc.receipt }

/-! ### Integrity tokens and key attestations -/

def verifyToken (integrityToken : String) (decryptionKey : FixedBytes 32)
    (verificationKeyDer : Bytes) (policy : PolicyParams) : Except PlayIntegrityError Bool := do
  let payload ← ext.decryptAndVerify integrityToken decryptionKey verificationKeyDer
  checkPayload payload policy

def chainEntry (i : Nat) (entry : String) : Except String Bytes :=
  let name := "attestationChain[" ++ toString i ++ "]"
  if maxEntryChars < (utf8 entry).length then
    .error (name ++ " exceeds " ++ toString maxEntryChars ++ " chars")
  else okOr (name ++ " is not valid base64") (base64Decode (utf8 (trim entry)))

def chainEntries : Nat → List String → Except String (List Bytes)
  | _, [] => .ok []
  | i, entry :: entries => do
      let der ← chainEntry i entry
      let rest ← chainEntries (i + 1) entries
      return der :: rest

def attestationChainField : Json → Decoded (Option (List String)) :=
  Json.asOption (Json.asVec Json.asString)

def decodeChainBody : Json → Decoded (Option (List String)) :=
  Json.asStruct "Body" [("attestationChain", shape attestationChainField)] fun fields =>
    fields.defaulted "attestationChain" 0 none attestationChainField

def chainFromBody (body : Bytes) : Except String (List Bytes) := do
  let json ← (ext.jsonFromSlice body).mapError fun e => "body is not valid JSON: " ++ e
  let field ← (decodeChainBody json).mapError fun e =>
    "body is not valid JSON: " ++ ext.describe e.error
  let chain ← okOr "body has no attestationChain field" field
  if chain.length < minChainEntries ∨ maxChainEntries < chain.length then
    .error ("attestationChain has " ++ toString chain.length ++ " entries, expected " ++
      toString minChainEntries ++ "..=" ++ toString maxChainEntries)
  chainEntries 0 chain

end DeviceUniqueness
