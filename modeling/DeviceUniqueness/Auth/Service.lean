import DeviceUniqueness.Auth.Evidence
import DeviceUniqueness.Intake.Machine

/-! The auth routes, from a request to its answer.

    `/auth/challenges` hands out a challenge, `/auth/app-attest/attestations` registers the key of an
    iOS device, `/auth/token` turns a spent challenge, a proof and the evidence of a platform into a
    pair of tokens, and `/auth/token/refresh` turns a refresh token into the next pair. -/

namespace DeviceUniqueness

open Schemes

/-! ### What the service asks of the world -/

/-- What the claims of an access token say, and what is kept of them for the next one. -/
structure Session where
  accountId : String
  appFromOfficialStore : Bool
  platform : Option String
  deriving DecidableEq

structure NewToken where
  token : String
  session : Session
  expiresAt : Time
  deriving DecidableEq

/-- A row of `refresh_tokens`. -/
structure RefreshRow where
  token : String
  session : Session
  expiresAt : Time
  usedAt : Option Time
  replacedBy : Option String
  deriving DecidableEq

structure StoredKey where
  publicKey : Bytes
  signCount : Int
  deriving DecidableEq

/-- What the auth routes read of the configuration, and whether there are Google credentials. -/
structure AuthConfig where
  authEnabled : Bool
  enforceAuth : Bool
  accessTtl : Nat
  refreshTtl : Nat
  challengeTtl : Nat
  iosPackageNames : List String
  appleAppAttestAppIds : List String
  androidPackageNames : List String
  androidSigningDigestPlaystore : Option (FixedBytes 32)
  androidSigningDigestWebsite : Option (FixedBytes 32)
  playIntegrityMode : PlayIntegrityMode
  playIntegrityDecryptionKey : Option (FixedBytes 32)
  playIntegrityVerificationKey : Option Bytes
  playIntegrityGoogle : Bool

structure AppAttestRequest where
  keyId : String
  challenge : String
  attestation : String

inductive AuthRequest where
  | challenge
  | register (req : AppAttestRequest)
  | token (headers : Headers) (body : Bytes)
  | refresh (refreshToken : String)

/-- The operations of one request; the first is to take it. A statement named `tx…` runs in the
    request's transaction. -/
inductive AuthAsk where
  | accept
  | random
  | nowUtc
  | insertChallenge (challenge : FixedBytes 32) (expiresAt : Time)
  | consumeChallenge (challenge : Bytes)
  | findKey (keyId : Bytes)
  | commitSignCount (keyId : Bytes) (signCount : Int)
  | upsertKey (keyId publicKey receipt : Bytes)
  | revokedSerials
  | googleDecode (packageName integrityToken : String)
  | signToken (session : Session) (ttl : Nat)
  | insertToken (new : NewToken)
  | begin
  | txSelect (token : String)
  | txMarkUsed (token replacedBy : String)
  | txInsertToken (new : NewToken)
  | commit
  | rollback

@[reducible] def AuthAsk.Ans : AuthAsk → Type
  | .accept => AuthConfig × AuthRequest
  | .random => FixedBytes 32
  | .nowUtc => Time
  | .consumeChallenge _ | .commitSignCount .. => Reply Bool
  | .findKey _ => Reply (Option StoredKey)
  | .revokedSerials => Except String (List String)
  | .googleDecode .. => Except String TokenPayload
  | .signToken .. => String
  | .txSelect _ => Reply (Option RefreshRow)
  | .insertChallenge .. | .upsertKey .. | .insertToken _ | .begin | .txMarkUsed .. |
    .txInsertToken _ | .commit | .rollback => Reply Unit

/-- The world as the auth routes see it. -/
abbrev AuthWorld : Iface := ⟨AuthAsk, AuthAsk.Ans⟩

abbrev Serving (α : Type) := Act AuthWorld Unit AppError α

def request (o : AuthAsk) : Serving o.Ans := Act.op (I := AuthWorld) o

/-- A statement; a database error is an internal error. -/
def orFail {α : Type} (reply : Reply α) : Serving α :=
  match reply.answer with
  | .ok out => pure out
  | .error e => Act.fail (.internal e)

/-- A statement inside the transaction, which is dropped if the statement goes wrong. -/
def orDrop {α : Type} (reply : Reply α) : Serving α := do
  match reply.answer with
  | .ok out => pure out
  | .error e =>
      let _ ← request .rollback
      Act.fail (.internal e)

/-! ### Challenges -/

def challengeCreate (ttl : Nat) : Serving String := do
  let bytes ← request .random
  let now ← request .nowUtc
  orFail (← request (.insertChallenge bytes (now + seconds (asI64 ttl))))
  return ofAscii (base64Encode bytes.1)

/-! ### Refresh tokens -/

def randomToken : Serving String := do
  return ofAscii (base64Encode (← request .random).1)

def mint (session : Session) (ttl : Nat) : Serving String := do
  let token ← randomToken
  let now ← request .nowUtc
  orFail (← request (.insertToken ⟨token, session, now + seconds (asI64 ttl)⟩))
  return token

/-- Mark the presented token used and put the next one in its place, in the open transaction. -/
def replaceToken (presented : String) (session : Session) (ttl : Nat) :
    Serving (Option (Session × String)) := do
  let newToken ← randomToken
  let now ← request .nowUtc
  orDrop (← request (.txMarkUsed presented newToken))
  orDrop (← request (.txInsertToken ⟨newToken, session, now + seconds (asI64 ttl)⟩))
  orFail (← request .commit)
  return some (session, newToken)

/-- Leave the transaction without a token. -/
def dropToken : Serving (Option (Session × String)) := do
  let _ ← request .rollback
  return none

def rotateToken (presented : String) (ttl : Nat) : Serving (Option (Session × String)) := do
  orFail (← request .begin)
  match ← orDrop (← request (.txSelect presented)) with
  | none => dropToken
  | some row =>
      if row.usedAt.isSome then dropToken
      else
        let now ← request .nowUtc
        if row.expiresAt ≤ now then dropToken else replaceToken presented row.session ttl

/-! ### Evidence -/

section Handlers

variable (ext : AuthExt) (config : AuthConfig)

/-- What an integrity token is held against. -/
def integrityPolicy (challenge : Bytes) (clientId : FixedBytes 32) (body : Bytes)
    (playstoreDigest websiteDigest : FixedBytes 32) : PolicyParams where
  expectedNonce := clientDataHash ext challenge clientId body
  mode := config.playIntegrityMode
  packageNames := config.androidPackageNames
  playstoreDigest := playstoreDigest
  websiteDigest := websiteDigest

def playIntegrityVerdict (headers : Headers) (challenge : Bytes) (clientId : FixedBytes 32)
    (body : Bytes) : Serving (Except String Bool) := do
  match headers.text "auth-android-package" with
  | none => pure (.error "missing Auth-Android-Package header")
  | some packageName =>
  if !config.androidPackageNames.any (· = packageName) then
    pure (.error ("unknown Android package " ++ packageName))
  else
  match headers.text "auth-payload" with
  | none => pure (.error "missing Auth-Payload integrity token")
  | some integrityToken =>
  match config.androidSigningDigestPlaystore, config.androidSigningDigestWebsite with
  | some playstoreDigest, some websiteDigest =>
      let policy :=
        integrityPolicy ext config challenge clientId body playstoreDigest websiteDigest
      match config.playIntegrityDecryptionKey, config.playIntegrityVerificationKey with
      | some decryptionKey, some verificationKey =>
          pure ((verifyToken ext integrityToken decryptionKey verificationKey policy).mapError (·.text))
      | _, _ =>
          if config.playIntegrityGoogle then
            match ← request (.googleDecode packageName integrityToken) with
            | .error e => pure (.error ("google decode fallback: " ++ e))
            | .ok payload => pure ((checkPayload payload policy).mapError (·.text))
          else
            pure (.error
              "play integrity is not configured (neither self-managed keys nor GOOGLE_CREDENTIALS)")
  | _, _ => pure (.error "android signing digests are not configured")

/-- What the chain of an attested key is held against. -/
def chainParams (challenge : Bytes) (playstoreDigest websiteDigest : FixedBytes 32)
    (revokedSerials : List String) (now : Time) : ChainParams where
  challenge := challenge
  packageNames := config.androidPackageNames
  playstoreDigest := playstoreDigest
  websiteDigest := websiteDigest
  revokedSerials := revokedSerials
  nowUnix := now / 1000000

def keyAttestationVerdict (challenge body : Bytes) : Serving (Except String Bool) := do
  match chainFromBody ext body with
  | .error reason => pure (.error reason)
  | .ok chain =>
  match config.androidSigningDigestPlaystore, config.androidSigningDigestWebsite with
  | some playstoreDigest, some websiteDigest =>
      match ← request .revokedSerials with
      | .error e =>
          if config.enforceAuth then Act.fail .crlUnavailable
          else pure (.error ("attestation CRL unavailable: " ++ e))
      | .ok revokedSerials =>
          let now ← request .nowUtc
          let params :=
            chainParams config challenge playstoreDigest websiteDigest revokedSerials now
          pure ((ext.verifyChain chain params).map fun _ => false)
  | _, _ => pure (.error "android signing digests are not configured")

def iosAttestationVerdict (headers : Headers) (challenge : Bytes) (clientId : FixedBytes 32)
    (body : Bytes) : Serving (Except String Unit) := do
  match headers.text "auth-ios-package" with
  | none => pure (.error "no iOS package header; platform attestation unavailable")
  | some packageName =>
  if !config.iosPackageNames.any (· = packageName) then
    pure (.error ("unknown iOS package " ++ packageName))
  else
  match decodeHeader headers "auth-payload" with
  | .error _ => pure (.error "missing or invalid Auth-Payload assertion")
  | .ok assertion =>
  match decodeHeader headers "auth-ios-keyid" with
  | .error _ => pure (.error "missing or invalid Auth-iOS-KeyId")
  | .ok keyId =>
  match ← orFail (← request (.findKey keyId)) with
  | none => pure (.error "unregistered App Attest key")
  | some key =>
      match verifyAssertion ext assertion (clientDataHash ext challenge clientId body) key.publicKey
          config.appleAppAttestAppIds key.signCount with
      | .error err => pure (.error err.text)
      | .ok nextSignCount =>
          if ← orFail (← request (.commitSignCount keyId nextSignCount)) then pure (.ok ())
          else pure (.error "assertion sign count no longer monotonic")

def attestationVerdict (headers : Headers) (challenge : Bytes) (clientId : FixedBytes 32)
    (body : Bytes) : Serving (Except String Bool) := do
  if headers.containsKey "auth-ios-package" then
    return (← iosAttestationVerdict ext config headers challenge clientId body).map fun _ => true
  else
    match headers.text "auth-attestation-type" with
    | none =>
        pure (.error "no attestation evidence (no Auth-iOS-Package or Auth-Attestation-Type)")
    | some kind =>
        if kind = "key-attestation" then keyAttestationVerdict ext config challenge body
        else if kind = "play-integrity" then
          playIntegrityVerdict ext config headers challenge clientId body
        else pure (.error ("unknown Auth-Attestation-Type " ++ debugText kind))

/-- Whether the app comes from an official store, as far as the mode asks for evidence of it. -/
def officialStore (headers : Headers) (challenge : Bytes) (clientId : FixedBytes 32)
    (body : Bytes) : Serving Bool := do
  if config.authEnabled then
    match ← attestationVerdict ext config headers challenge clientId body with
    | .ok fromStore => pure fromStore
    | .error reason =>
        if config.enforceAuth then Act.fail (.integrityFailed reason) else pure false
  else pure true

/-! ### The handlers -/

inductive AuthResponse where
  | created (challenge : String)
  | tokens (token refreshToken : String)
  | accepted
  | rejected (tag error : String)
  deriving DecidableEq

def issue (headers : Headers) (body : Bytes) : Serving AuthResponse := do
  let clientId ← Act.ofExcept (decodeHeaderFixed 32 headers "auth-clientid")
  let clientProof ← Act.ofExcept (decodeHeaderFixed 64 headers "auth-clientproof")
  let challenge ← Act.ofExcept (decodeHeader headers "auth-challenge")
  let consumed ← orFail (← request (.consumeChallenge challenge))
  if !consumed then Act.fail .unauthorized
  else if !proofVerify ext challenge clientId body clientProof then Act.fail .unauthorized
  else do
    let appFromOfficialStore ← officialStore ext config headers challenge clientId body
    let session : Session :=
      { accountId := hexEncode clientId.1
        appFromOfficialStore
        platform := detectPlatform headers }
    let token ← request (.signToken session config.accessTtl)
    let refreshToken ← mint session config.refreshTtl
    return .tokens token refreshToken

def rotate (refreshToken : String) : Serving AuthResponse := do
  match ← rotateToken refreshToken config.refreshTtl with
  | some (session, newToken) =>
      let token ← request (.signToken session config.accessTtl)
      return .tokens token newToken
  | none => Act.fail .unauthorized

@[irreducible] def decodeB64Field (value name : String) : Except AppError Bytes :=
  okOr (.badRequest ("body field " ++ name ++ " is not valid base64"))
    (base64Decode (utf8 (trim value)))

def registerKey (req : AppAttestRequest) : Serving AuthResponse := do
  if !config.authEnabled then return .accepted
  else
    let keyId ← Act.ofExcept (decodeB64Field req.keyId "keyId")
    let challengeBytes ← Act.ofExcept (decodeB64Field req.challenge "challenge")
    let attestation ← Act.ofExcept (decodeB64Field req.attestation "attestation")
    if !(← orFail (← request (.consumeChallenge challengeBytes))) then
      return .rejected "CHALLENGE_NOT_FOUND" "Challenge Not Found"
    else
      let now ← request .nowUtc
      match verifyAttestation ext attestation challengeBytes keyId config.appleAppAttestAppIds
          ext.appleRootCa (now / 1000000) with
      | .ok attested =>
          orFail (← request (.upsertKey keyId attested.publicKey attested.receipt))
          return .accepted
      | .error err =>
          if config.enforceAuth then return .rejected "VERIFY_ATTESTATION_FAILED" err.text
          else return .accepted

/-- The route of a request. -/
def handle : AuthRequest → Serving AuthResponse
  | .challenge => do return .created (← challengeCreate config.challengeTtl)
  | .register req => registerKey ext config req
  | .token headers body => issue ext config headers body
  | .refresh refreshToken => rotate config refreshToken

end Handlers

/-- A request is taken, by a replica with its configuration, and served. -/
def serve (ext : AuthExt) : Serving AuthResponse := do
  let taken ← request .accept
  handle ext taken.1 taken.2

end DeviceUniqueness
