import DeviceUniqueness.Attest.Extension
import DeviceUniqueness.Intake.Widevine

/-! The certificate chain of an attested key.

    A chain is taken in either order: one that begins with a self-issued certificate is turned
    around. Then every certificate names the next as its issuer and is signed by it, the last is
    signed by a trusted root, and only the first carries a key description, which has to satisfy the
    policy. Parsing certificates, comparing names and the cryptography are parameters. -/

namespace DeviceUniqueness.KeyAttest

open Schemes

/-! ### Certificates -/

structure KeyUsage where
  digitalSignature : Bool
  keyCertSign : Bool
  deriving DecidableEq

/-- What is read of a certificate: `keyUsage` if there is one that can be read, and the curve of the
    key, if its parameters name one. -/
structure Certificate (Name : Type) where
  subject : Name
  issuer : Name
  serial : Nat
  rawSerial : Bytes
  notBefore : Int
  notAfter : Int
  keyUsage : Option KeyUsage
  extensions : List (String × Bytes)
  signatureAlgorithm : String
  tbs : Bytes
  signature : Bytes
  keyBytes : Bytes
  curve : Option String

inductive Hash where
  | sha256
  | sha384

inductive Curve where
  | p256
  | p384

def Curve.name : Curve → String
  | p256 => "P-256"
  | p384 => "P-384"

/-- What the libraries decide: how certificates are parsed and names compared, which times there are,
    and the cryptography. Bytes are no key, or no signature, with a reason. -/
structure X509Ext (Name : Type) where
  fromDer : Bytes → Except String (Certificate Name)
  sameName : Name → Name → Bool
  asn1Time : Int → Except String Int
  digest : Hash → Bytes → Bytes
  rsaKeyError : Bytes → Option String
  rsaVerifies : Hash → (key prehash signature : Bytes) → Bool
  ecKeyError : Curve → Bytes → Option String
  ecSignatureError : Curve → Bytes → Option String
  ecVerifies : Curve → (key prehash signature : Bytes) → Bool

inductive KeyAttestError where
  | malformed (why : String)
  | chain (why : String)
  | rootNotTrusted
  | revoked (serial : String)
  | extension (why : String)
  | securityLevel (attestation key : Nat)
  | rootOfTrust (why : String)
  | challenge
  | package (name : String)
  | signingDigest (why : String)
  deriving DecidableEq

/-- What a chain is verified against, with the roots and the boot keys that are trusted. -/
structure VerifyParams extends ChainParams where
  trustedRootsDer : List Bytes
  trustedVerifiedBootKeys : List String

variable {Name : Type} (ext : X509Ext Name)

/-! ### Signatures and validity -/

def ecdsaWithSha256 : String := "1.2.840.10045.4.3.2"
def ecdsaWithSha384 : String := "1.2.840.10045.4.3.3"
def sha256WithRsa : String := "1.2.840.113549.1.1.11"
def sha384WithRsa : String := "1.2.840.113549.1.1.12"
def curveP256 : String := "1.2.840.10045.3.1.7"
def curveP384 : String := "1.3.132.0.34"

def checkValidity (cert : Certificate Name) (nowUnix : Int) : Except String Unit :=
  match ext.asn1Time nowUnix with
  | .error e => .error ("timestamp: " ++ e)
  | .ok time =>
      if cert.notBefore ≤ time ∧ time ≤ cert.notAfter then .ok ()
      else .error "certificate outside validity window"

def verifyEc (curve : Curve) (keyBytes prehash signature : Bytes) : Except String Bool :=
  match ext.ecKeyError curve keyBytes with
  | some e => .error ("parent " ++ curve.name ++ " key: " ++ e)
  | none =>
      match ext.ecSignatureError curve signature with
      | some e => .error ("signature: " ++ e)
      | none => .ok (ext.ecVerifies curve keyBytes prehash signature)

/-- The hash of a signature algorithm, and whether the algorithm is RSA. -/
def signatureScheme (alg : String) : Option (Hash × Bool) :=
  if alg = ecdsaWithSha256 then some (.sha256, false)
  else if alg = sha256WithRsa then some (.sha256, true)
  else if alg = ecdsaWithSha384 then some (.sha384, false)
  else if alg = sha384WithRsa then some (.sha384, true)
  else none

/-- Whether the signature of the child is one of the parent's key. -/
def signatureVerifies (hash : Hash) (rsa : Bool) (child parent : Certificate Name) :
    Except String Bool :=
  let prehash := ext.digest hash child.tbs
  if rsa then
    match ext.rsaKeyError parent.keyBytes with
    | some e => .error ("parent RSA key: " ++ e)
    | none => .ok (ext.rsaVerifies hash parent.keyBytes prehash child.signature)
  else
    match parent.curve with
    | none => .error "parent key has no curve"
    | some curve =>
        if curve = curveP256 then verifyEc ext .p256 parent.keyBytes prehash child.signature
        else if curve = curveP384 then verifyEc ext .p384 parent.keyBytes prehash child.signature
        else .error ("unsupported curve " ++ curve)

def verifySignedBy (child parent : Certificate Name) : Except String Unit :=
  match signatureScheme child.signatureAlgorithm with
  | none => .error ("unsupported signature alg " ++ child.signatureAlgorithm)
  | some (hash, rsa) =>
      match signatureVerifies ext hash rsa child parent with
      | .error e => .error e
      | .ok verified => if verified then .ok () else .error "signature verification failed"

/-! ### Each certificate -/

def androidAttestationOid : String := "1.3.6.1.4.1.11129.2.1.17"

def findAttestationExtension (cert : Certificate Name) : Option Bytes :=
  (cert.extensions.find? fun e => e.1 == androidAttestationOid).map Prod.snd

def checkKeyUsage (cert : Certificate Name) (index len : Nat) : Except String Unit :=
  match cert.keyUsage with
  | none => .ok ()
  | some usage =>
      if index = 0 ∧ usage.digitalSignature = false then
        .error ("leaf certificate " ++ toString index ++ " missing digitalSignature")
      else if 0 < index ∧ index < len - 1 ∧ usage.keyCertSign = false then
        .error ("intermediate certificate " ++ toString index ++ " missing keyCertSign")
      else .ok ()

/-- How a serial may be written in the revocation list. -/
def serialSpellings (cert : Certificate Name) : List String :=
  [toStrRadix 16 cert.serial, hexLower cert.rawSerial, toStrRadix 10 cert.serial]

def isRevoked (cert : Certificate Name) (revoked : List String) : Bool :=
  (serialSpellings cert).any fun candidate => revoked.contains candidate

def checkRevocation (cert : Certificate Name) (revoked : List String) :
    Except KeyAttestError Unit :=
  if isRevoked cert revoked then .error (.revoked (toStrRadix 16 cert.serial)) else .ok ()

/-! ### The policy -/

def bootStateVerified : Nat := 0
def bootStateSelfSigned : Nat := 1

/-- The test keys that anyone can sign with. -/
def knownPublicVerifiedBootKeys : List String :=
  ["22de3994532196f61c039e90260d78a93a4c57362c7e789be928036e80b77c8c",
   "7728e30f50bfa5cea165f473175a08803f6a8346642b5aa10913e9d9e6defef6",
   "e15e2365469ce672a91d02cc8d9c2f29b787481e574d3b56ac774153d7ced614"]

def levelOk (level : Nat) : Bool := level == 1 || level == 2

def checkRootOfTrust (root : RootOfTrust) (trusted : List String) : Except KeyAttestError Unit :=
  let keyHex := hexLower root.verifiedBootKey
  if keyHex ∈ knownPublicVerifiedBootKeys then
    .error (.rootOfTrust ("known-public AVB test key " ++ keyHex))
  else if root.verifiedBootState ≠ bootStateVerified ∧
      root.verifiedBootState ≠ bootStateSelfSigned then
    .error (.rootOfTrust ("verified boot state " ++ toString root.verifiedBootState ++
      " is not Verified or SelfSigned"))
  else if root.verifiedBootState = bootStateSelfSigned ∧ keyHex ∉ trusted then
    .error (.rootOfTrust ("untrusted self-signed verified-boot key " ++ keyHex))
  else if root.deviceLocked = false then .error (.rootOfTrust "bootloader is not locked")
  else .ok ()

def checkPackages (names allowed : List String) : Except KeyAttestError Unit :=
  if names = [] then .error (.package "")
  else
    match names.find? fun name => name ∉ allowed with
    | some name => .error (.package name)
    | none => .ok ()

def checkSigningDigest (digests : List Bytes) (params : VerifyParams) :
    Except KeyAttestError Unit :=
  match digests with
  | [digest] =>
      if digest = params.playstoreDigest.1 ∨ digest = params.websiteDigest.1 then .ok ()
      else .error (.signingDigest ("unknown digest " ++ hexLower digest))
  | _ =>
      .error (.signingDigest ("expected one attested digest, got " ++ toString digests.length))

def checkPolicy (description : KeyDescription) (params : VerifyParams) :
    Except KeyAttestError Unit :=
  if !levelOk description.attestationSecurityLevel || !levelOk description.keySecurityLevel then
    .error (.securityLevel description.attestationSecurityLevel description.keySecurityLevel)
  else
    match description.rootOfTrust with
    | none => .error (.rootOfTrust "missing")
    | some root => do
        checkRootOfTrust root params.trustedVerifiedBootKeys
        if description.attestationChallenge ≠ params.challenge then .error .challenge
        else do
          checkPackages description.packageNames params.packageNames
          checkSigningDigest description.signingDigests params

/-! ### The chain -/

def maxChainLength : Nat := 10

/-- The certificates, from the given place on. -/
def parseCerts : Nat → List Bytes → Except KeyAttestError (List (Certificate Name))
  | _, [] => .ok []
  | i, der :: ders =>
      match ext.fromDer der with
      | .error e => .error (.malformed ("certificate " ++ toString i ++ ": " ++ e))
      | .ok cert => (parseCerts (i + 1) ders).map (cert :: ·)

def selfIssued (cert : Certificate Name) : Bool := ext.sameName cert.subject cert.issuer

/-- Leaf first. -/
def leafFirst (certs : List (Certificate Name)) : List (Certificate Name) :=
  if certs.head?.any (selfIssued ext) then certs.reverse else certs

def checkIssuers : Nat → List (Certificate Name) → Except KeyAttestError Unit
  | i, child :: parent :: certs =>
      if ext.sameName child.issuer parent.subject then checkIssuers (i + 1) (parent :: certs)
      else .error (.chain ("certificate " ++ toString i ++ " issuer does not match certificate " ++
        toString (i + 1) ++ " subject"))
  | _, _ => .ok ()

/-- An error about the certificate at a place. -/
def atCert (i : Nat) : Except String Unit → Except KeyAttestError Unit
  | .ok () => .ok ()
  | .error e => .error (.chain ("certificate " ++ toString i ++ ": " ++ e))

def checkEach (len : Nat) (params : VerifyParams) :
    Nat → List (Certificate Name) → Except KeyAttestError Unit
  | _, [] => .ok ()
  | i, cert :: certs => do
      atCert i (checkValidity ext cert params.nowUnix)
      (checkKeyUsage cert i len).mapError .chain
      checkRevocation cert params.revokedSerials
      checkEach len params (i + 1) certs

def checkSignatures : Nat → List (Certificate Name) → Except KeyAttestError Unit
  | i, child :: parent :: certs => do
      atCert i (verifySignedBy ext child parent)
      checkSignatures (i + 1) (parent :: certs)
  | _, _ => .ok ()

def trustedRoots (params : VerifyParams) : List (Certificate Name) :=
  params.trustedRootsDer.filterMap fun der => (ext.fromDer der).toOption

def rootTrusted (params : VerifyParams) (chainRoot : Certificate Name) : Bool :=
  (trustedRoots ext params).any fun root => (verifySignedBy ext chainRoot root).isOk

/-- Reading the description does not panic, so it gives one or a reason why there is none. -/
def describe (extValue : Bytes) : Except KeyAttestError KeyDescription :=
  match h : parse extValue with
  | .ok description => .ok description
  | .error (.refused why) => .error (.extension why)
  | .error .panicked => absurd h (panicFree_parse extValue)

def checkDescription (params : VerifyParams) (certs : List (Certificate Name)) :
    Except KeyAttestError Unit :=
  if (certs.drop 1).any fun cert => (findAttestationExtension cert).isSome then
    .error (.extension "key-description extension on a non-leaf certificate")
  else
    match certs.head?.bind findAttestationExtension with
    | none => .error (.extension "leaf has no key-description extension")
    | some extValue => do
        let description ← describe extValue
        checkPolicy description params

def verifyChain (chainDer : List Bytes) (params : VerifyParams) : Except KeyAttestError Unit :=
  if chainDer.length < 2 ∨ maxChainLength < chainDer.length then
    .error (.malformed ("chain length " ++ toString chainDer.length ++ " outside 2..=" ++
      toString maxChainLength))
  else do
    let certs ← parseCerts ext 0 chainDer
    let certs := leafFirst ext certs
    checkIssuers ext 0 certs
    checkEach ext certs.length params 0 certs
    checkSignatures ext 0 certs
    if certs.getLast?.any (rootTrusted ext params) then checkDescription params certs
    else .error .rootNotTrusted

/-! ### What the policy asks for -/

structure TrustedBoot (root : RootOfTrust) (trusted : List String) : Prop where
  notPublic : hexLower root.verifiedBootKey ∉ knownPublicVerifiedBootKeys
  state : root.verifiedBootState = bootStateVerified ∨
    root.verifiedBootState = bootStateSelfSigned ∧ hexLower root.verifiedBootKey ∈ trusted
  locked : root.deviceLocked = true

structure Policy (d : KeyDescription) (params : VerifyParams) : Prop where
  attestationLevel : d.attestationSecurityLevel = 1 ∨ d.attestationSecurityLevel = 2
  keyLevel : d.keySecurityLevel = 1 ∨ d.keySecurityLevel = 2
  rootOfTrust : ∃ root, d.rootOfTrust = some root ∧ TrustedBoot root params.trustedVerifiedBootKeys
  challenge : d.attestationChallenge = params.challenge
  packages : d.packageNames ≠ [] ∧ ∀ name ∈ d.packageNames, name ∈ params.packageNames
  signingDigest : d.signingDigests = [params.playstoreDigest.1] ∨
    d.signingDigests = [params.websiteDigest.1]

/-- What is verified of a chain, leaf first. -/
structure Verified (params : VerifyParams) (certs : List (Certificate Name)) : Prop where
  length : 2 ≤ certs.length ∧ certs.length ≤ maxChainLength
  issuers : certs.IsChain fun child parent => ext.sameName child.issuer parent.subject = true
  signed : certs.IsChain fun child parent => verifySignedBy ext child parent = .ok ()
  anchored : ∃ last root, certs.getLast? = some last ∧ root ∈ trustedRoots ext params ∧
    verifySignedBy ext last root = .ok ()
  valid : ∀ cert ∈ certs, checkValidity ext cert params.nowUnix = .ok ()
  unrevoked : ∀ cert ∈ certs, isRevoked cert params.revokedSerials = false
  usage : ∀ i cert, certs[i]? = some cert → checkKeyUsage cert i certs.length = .ok ()
  described : ∃ leaf issuers extValue d, certs = leaf :: issuers ∧
    findAttestationExtension leaf = some extValue ∧
    (∀ cert ∈ issuers, findAttestationExtension cert = none) ∧ parse extValue = .ok d ∧
    Policy d params

/-! ### One lemma for each check -/

theorem then_eq_ok {ε β : Type} {x : Except ε Unit} {y : Except ε β} {b : β} :
    (x >>= fun _ => y) = .ok b ↔ x = .ok () ∧ y = .ok b := by
  rw [bind_eq_ok]
  exact ⟨fun ⟨_, hx, hy⟩ => ⟨hx, hy⟩, fun ⟨hx, hy⟩ => ⟨(), hx, hy⟩⟩

theorem levelOk_iff {level : Nat} : levelOk level = true ↔ level = 1 ∨ level = 2 := by
  simp [levelOk]

theorem checkRootOfTrust_ok {root : RootOfTrust} {trusted : List String} :
    checkRootOfTrust root trusted = .ok () ↔ TrustedBoot root trusted := by
  rw [checkRootOfTrust]
  constructor
  · intro h
    split_ifs at h with hpublic hstate htrusted hlocked
    refine ⟨hpublic, ?_, by simpa using hlocked⟩
    tauto
  · rintro ⟨hpublic, hstate, hlocked⟩
    rw [if_neg hpublic, if_neg (by tauto), if_neg, if_neg (by simp [hlocked])]
    rintro ⟨hself, huntrusted⟩
    rcases hstate with hverified | ⟨-, htrusted⟩
    · rw [hself] at hverified
      cases hverified
    · exact huntrusted htrusted

theorem checkPackages_ok {names allowed : List String} :
    checkPackages names allowed = .ok () ↔ names ≠ [] ∧ ∀ name ∈ names, name ∈ allowed := by
  rw [checkPackages]
  split_ifs with hempty
  · simp [hempty]
  · have hfind : (names.find? fun name => decide (name ∉ allowed)) = none ↔
        ∀ name ∈ names, name ∈ allowed := by simp
    rw [and_iff_right hempty, ← hfind]
    cases names.find? fun name => decide (name ∉ allowed) <;> simp

theorem checkSigningDigest_ok {digests : List Bytes} {params : VerifyParams} :
    checkSigningDigest digests params = .ok () ↔
      digests = [params.playstoreDigest.1] ∨ digests = [params.websiteDigest.1] := by
  unfold checkSigningDigest
  match digests with
  | [] => simp
  | [digest] =>
    dsimp only
    split_ifs with h <;> simp [h]
  | _ :: _ :: _ => simp

theorem checkPolicy_ok {d : KeyDescription} {params : VerifyParams} :
    checkPolicy d params = .ok () ↔ Policy d params := by
  rw [checkPolicy]
  constructor
  · intro h
    by_cases hlevels : levelOk d.attestationSecurityLevel = true ∧ levelOk d.keySecurityLevel = true
    · rw [hlevels.1, hlevels.2, if_neg (by decide)] at h
      split at h
      · cases h
      · next root hroot =>
        obtain ⟨hboot, h⟩ := then_eq_ok.mp h
        split_ifs at h with hchallenge
        obtain ⟨hpackages, h⟩ := then_eq_ok.mp h
        exact ⟨levelOk_iff.mp hlevels.1, levelOk_iff.mp hlevels.2,
          ⟨root, hroot, checkRootOfTrust_ok.mp hboot⟩, not_not.mp hchallenge,
          checkPackages_ok.mp hpackages, checkSigningDigest_ok.mp h⟩
    · rw [if_pos (by rwa [← Bool.not_and, Bool.not_eq_true', ← Bool.not_eq_true,
        Bool.and_eq_true])] at h
      cases h
  · rintro ⟨hattestation, hkey, ⟨root, hroot, hboot⟩, hchallenge, hpackages, hdigest⟩
    rw [levelOk_iff.mpr hattestation, levelOk_iff.mpr hkey, if_neg (by decide), hroot]
    refine then_eq_ok.mpr ⟨checkRootOfTrust_ok.mpr hboot, ?_⟩
    rw [if_neg (not_not.mpr hchallenge)]
    exact then_eq_ok.mpr ⟨checkPackages_ok.mpr hpackages, checkSigningDigest_ok.mpr hdigest⟩

theorem parseCerts_ok {i : Nat} {ders : List Bytes} {certs : List (Certificate Name)} :
    parseCerts ext i ders = .ok certs ↔
      List.Forall₂ (fun der cert => ext.fromDer der = .ok cert) ders certs := by
  induction ders generalizing i certs with
  | nil => rw [parseCerts, List.forall₂_nil_left_iff, Except.ok.injEq, eq_comm]
  | cons der ders ih =>
    have ih := fun rest => @ih (i + 1) rest
    rw [parseCerts, List.forall₂_cons_left_iff]
    cases hder : ext.fromDer der with
    | error e => simp
    | ok cert =>
      constructor
      · intro h
        cases hrest : parseCerts ext (i + 1) ders with
        | error e =>
          rw [hrest] at h
          cases h
        | ok rest =>
          rw [hrest] at h
          cases h
          exact ⟨cert, rest, rfl, (ih rest).mp hrest, rfl⟩
      · rintro ⟨_, rest, hcert, hrest, rfl⟩
        cases hcert
        dsimp only
        rw [(ih rest).mpr hrest]
        rfl

/-- The neighbours of a list of at most one element. -/
theorem isChain_short {α : Type} {R : α → α → Prop} {xs : List α}
    (h : ∀ a b rest, xs = a :: b :: rest → False) : xs.IsChain R := by
  match xs with
  | [] => exact .nil
  | [a] => exact .singleton a
  | a :: b :: rest => exact (h a b rest rfl).elim

theorem checkIssuers_ok {i : Nat} {certs : List (Certificate Name)} :
    checkIssuers ext i certs = .ok () ↔
      certs.IsChain fun child parent => ext.sameName child.issuer parent.subject = true := by
  fun_induction checkIssuers ext i certs with
  | case1 i child parent certs hname ih => rw [ih, List.isChain_cons_cons, and_iff_right hname]
  | case2 i child parent certs hname => simp [hname]
  | case3 i certs hshort => exact iff_of_true rfl (isChain_short hshort)

theorem atCert_ok {i : Nat} {x : Except String Unit} : atCert i x = .ok () ↔ x = .ok () := by
  cases x <;> simp [atCert]

theorem checkSignatures_ok {i : Nat} {certs : List (Certificate Name)} :
    checkSignatures ext i certs = .ok () ↔
      certs.IsChain fun child parent => verifySignedBy ext child parent = .ok () := by
  fun_induction checkSignatures ext i certs with
  | case1 i child parent certs ih => rw [then_eq_ok, atCert_ok, List.isChain_cons_cons, ih]
  | case2 i certs hshort => exact iff_of_true rfl (isChain_short hshort)

theorem checkRevocation_ok {cert : Certificate Name} {revoked : List String} :
    checkRevocation cert revoked = .ok () ↔ isRevoked cert revoked = false := by
  rw [checkRevocation]
  split_ifs with h <;> simp [h]

theorem mapError_ok {ε ε' α : Type} {f : ε → ε'} {x : Except ε α} {a : α} :
    x.mapError f = .ok a ↔ x = .ok a := by
  cases x <;> simp [Except.mapError]

theorem checkEach_ok {len i : Nat} {params : VerifyParams} {certs : List (Certificate Name)} :
    checkEach ext len params i certs = .ok () ↔ ∀ j cert, certs[j]? = some cert →
      checkValidity ext cert params.nowUnix = .ok () ∧ checkKeyUsage cert (i + j) len = .ok () ∧
        isRevoked cert params.revokedSerials = false := by
  induction certs generalizing i with
  | nil => simp [checkEach]
  | cons cert certs ih =>
    rw [checkEach, then_eq_ok, then_eq_ok, then_eq_ok, atCert_ok, mapError_ok, checkRevocation_ok, ih]
    constructor
    · rintro ⟨hvalid, husage, hrevoked, hrest⟩ (_ | j) other hother
      · cases hother
        exact ⟨hvalid, husage, hrevoked⟩
      · rw [Nat.add_comm j 1, ← Nat.add_assoc]
        exact hrest j other hother
    · intro h
      obtain ⟨hvalid, husage, hrevoked⟩ := h 0 cert rfl
      refine ⟨hvalid, husage, hrevoked, fun j other hother => ?_⟩
      rw [Nat.add_assoc, Nat.add_comm 1 j]
      exact h (j + 1) other hother

theorem describe_ok {extValue : Bytes} {d : KeyDescription} :
    describe extValue = .ok d ↔ parse extValue = .ok d := by
  unfold describe
  split
  · next h => simp [h]
  · next h => simp [h]
  · next h => exact absurd h (panicFree_parse extValue)

theorem isOk_iff {ε : Type} {x : Except ε Unit} : x.isOk = true ↔ x = .ok () := by
  cases x <;> simp [Except.isOk, Except.toBool]

theorem rootTrusted_iff {params : VerifyParams} {certs : List (Certificate Name)} :
    certs.getLast?.any (rootTrusted ext params) = true ↔
      ∃ last root, certs.getLast? = some last ∧ root ∈ trustedRoots ext params ∧
        verifySignedBy ext last root = .ok () := by
  simp only [Option.any_eq_true, rootTrusted, List.any_eq_true, isOk_iff]
  exact exists_congr fun last => by simp

theorem checkDescription_ok {params : VerifyParams} {certs : List (Certificate Name)} :
    checkDescription params certs = .ok () ↔ ∃ leaf issuers extValue d, certs = leaf :: issuers ∧
      findAttestationExtension leaf = some extValue ∧
      (∀ cert ∈ issuers, findAttestationExtension cert = none) ∧ parse extValue = .ok d ∧
      Policy d params := by
  cases certs with
  | nil => simp [checkDescription]
  | cons leaf issuers =>
    have hothers : ¬ (((leaf :: issuers).drop 1).any fun cert =>
        (findAttestationExtension cert).isSome) = true ↔
        ∀ cert ∈ issuers, findAttestationExtension cert = none := by simp
    rw [checkDescription]
    constructor
    · intro h
      split_ifs at h with hany
      split at h
      · cases h
      · next extValue hleaf =>
        obtain ⟨d, hd, h⟩ := bind_eq_ok.mp h
        exact ⟨leaf, issuers, extValue, d, rfl, hleaf, hothers.mp hany, describe_ok.mp hd,
          checkPolicy_ok.mp h⟩
    · rintro ⟨_, _, extValue, d, hcerts, hleaf, hnone, hd, hpolicy⟩
      cases hcerts
      rw [if_neg (hothers.mpr hnone), List.head?_cons, Option.bind_some, hleaf]
      exact bind_eq_ok.mpr ⟨d, describe_ok.mpr hd, checkPolicy_ok.mpr hpolicy⟩

/-! ### The chain as a whole -/

/-- The certificates of a chain. -/
def Certificates (chainDer : List Bytes) (certs : List (Certificate Name)) : Prop :=
  List.Forall₂ (fun der cert => ext.fromDer der = .ok cert) chainDer certs

variable {chainDer : List Bytes} {certs : List (Certificate Name)} {params : VerifyParams}

theorem length_leafFirst (certs : List (Certificate Name)) :
    (leafFirst ext certs).length = certs.length := by
  rw [leafFirst]
  split_ifs
  · exact List.length_reverse
  · rfl

theorem verifyChain_ok_iff : verifyChain ext chainDer params = .ok () ↔
    ∃ certs, Certificates ext chainDer certs ∧ Verified ext params (leafFirst ext certs) := by
  have hwidth : ∀ {certs}, Certificates ext chainDer certs →
      (leafFirst ext certs).length = chainDer.length := fun h => by
    rw [length_leafFirst, h.length_eq]
  rw [verifyChain]
  constructor
  · intro h
    split_ifs at h with hlength
    obtain ⟨certs, hcerts, h⟩ := bind_eq_ok.mp h
    obtain ⟨hissuers, h⟩ := then_eq_ok.mp h
    obtain ⟨heach, h⟩ := then_eq_ok.mp h
    obtain ⟨hsigned, h⟩ := then_eq_ok.mp h
    have hcerts := (parseCerts_ok ext).mp hcerts
    have heach := (checkEach_ok ext).mp heach
    have hmem : ∀ cert ∈ leafFirst ext certs, ∃ j : Nat, (leafFirst ext certs)[j]? = some cert :=
      fun cert hcert => List.getElem?_of_mem hcert
    split_ifs at h with hroot
    refine ⟨certs, hcerts, ?_, (checkIssuers_ok ext).mp hissuers, (checkSignatures_ok ext).mp hsigned,
      (rootTrusted_iff ext).mp hroot, fun cert hcert => ?_, fun cert hcert => ?_, fun i cert hi => ?_,
      checkDescription_ok.mp h⟩
    · rw [hwidth hcerts]
      omega
    · obtain ⟨j, hj⟩ := hmem cert hcert
      exact (heach j cert hj).1
    · obtain ⟨j, hj⟩ := hmem cert hcert
      exact (heach j cert hj).2.2
    · simpa using (heach i cert hi).2.1
  · rintro ⟨certs, hcerts, h⟩
    have hlength := h.length
    rw [hwidth hcerts] at hlength
    rw [if_neg (by omega)]
    refine bind_eq_ok.mpr ⟨certs, (parseCerts_ok ext).mpr hcerts, ?_⟩
    refine then_eq_ok.mpr ⟨(checkIssuers_ok ext).mpr h.issuers, then_eq_ok.mpr ⟨?_, ?_⟩⟩
    · refine (checkEach_ok ext).mpr fun j cert hj => ?_
      have hmem := List.mem_of_getElem? hj
      exact ⟨h.valid cert hmem, by simpa using h.usage j cert hj, h.unrevoked cert hmem⟩
    · refine then_eq_ok.mpr ⟨(checkSignatures_ok ext).mpr h.signed, ?_⟩
      rw [if_pos ((rootTrusted_iff ext).mpr h.anchored)]
      exact checkDescription_ok.mpr h.described

theorem Certificates.reverse (h : Certificates ext chainDer certs) :
    Certificates ext chainDer.reverse certs.reverse :=
  List.rel_reverse h

theorem Certificates.head {first : Certificate Name} (h : Certificates ext chainDer certs)
    (hfirst : chainDer.head?.map ext.fromDer = some (.ok first)) : certs.head? = some first := by
  cases h with
  | nil => cases hfirst
  | cons hder _ =>
    rw [List.head?_cons, Option.map_some, hder] at hfirst
    cases hfirst
    rfl

/-- A chain whose last certificate is self-issued and its first is not stands for itself, and turned
    around it stands for itself too. -/
theorem Certificates.leafFirst_eq {first last : Certificate Name}
    (h : Certificates ext chainDer certs)
    (hfirst : chainDer.head?.map ext.fromDer = some (.ok first))
    (hlast : chainDer.getLast?.map ext.fromDer = some (.ok last))
    (hleaf : selfIssued ext first = false) (hroot : selfIssued ext last = true) :
    leafFirst ext certs = certs ∧ leafFirst ext certs.reverse = certs := by
  rw [← List.head?_reverse] at hlast
  have hhead := h.head ext hfirst
  have hhead' := (h.reverse ext).head ext hlast
  constructor
  · rw [leafFirst, hhead, Option.any_some, hleaf, if_neg (by decide)]
  · rw [leafFirst, hhead', Option.any_some, hroot, if_pos rfl, List.reverse_reverse]

/-- A chain that is accepted is verified in the order it was given or in the other one, and the order
    of a chain from its leaf to a self-issued certificate makes no difference. -/
theorem chain_sound_in_either_order (ext : X509Ext Name) (chainDer : List Bytes)
    (params : VerifyParams) :
    (verifyChain ext chainDer params = .ok () → ∃ certs, Certificates ext chainDer certs ∧
      (Verified ext params certs ∨ Verified ext params certs.reverse)) ∧
    ∀ first last, chainDer.head?.map ext.fromDer = some (.ok first) →
      chainDer.getLast?.map ext.fromDer = some (.ok last) →
      selfIssued ext first = false → selfIssued ext last = true →
      (verifyChain ext chainDer params = .ok () ↔
        verifyChain ext chainDer.reverse params = .ok ()) := by
  refine ⟨fun h => ?_, fun first last hfirst hlast hleaf hroot => ?_⟩
  · obtain ⟨certs, hcerts, hverified⟩ := (verifyChain_ok_iff ext).mp h
    refine ⟨certs, hcerts, ?_⟩
    rw [leafFirst] at hverified
    split_ifs at hverified
    · exact .inr hverified
    · exact .inl hverified
  · rw [verifyChain_ok_iff, verifyChain_ok_iff]
    constructor
    · rintro ⟨certs, hcerts, hverified⟩
      obtain ⟨hsame, hturned⟩ := hcerts.leafFirst_eq ext hfirst hlast hleaf hroot
      rw [hsame] at hverified
      exact ⟨certs.reverse, hcerts.reverse ext, by rwa [hturned]⟩
    · rintro ⟨certs, hcerts, hverified⟩
      have hcerts := hcerts.reverse ext
      rw [List.reverse_reverse] at hcerts
      obtain ⟨hsame, hturned⟩ := hcerts.leafFirst_eq ext hfirst hlast hleaf hroot
      rw [List.reverse_reverse] at hturned
      exact ⟨certs.reverse, hcerts, by rwa [hsame, ← hturned]⟩

/-- The key of a subject is its name, and its signature is the key. -/
def namedCertificate (subject issuer : String) (rawSerial : Bytes)
    (extensions : List (String × Bytes)) : Certificate String where
  subject := subject
  issuer := issuer
  serial := bigEndian rawSerial
  rawSerial := rawSerial
  notBefore := 1735689600
  notAfter := 2051222400
  keyUsage := none
  extensions := extensions
  signatureAlgorithm := ecdsaWithSha256
  tbs := utf8 subject
  signature := utf8 issuer
  keyBytes := utf8 subject
  curve := some curveP256

/-- An attested key, with a serial number that takes a sign byte. -/
def leafCertificate : Certificate String :=
  namedCertificate "leaf" "root" [0x00, 0xab, 0xcd, 0xef, 0x01, 0x23] [(androidAttestationOid,
    keyDescription [1] [applicationEntry "io.pcf.polkadotapp"] [rootEntry [0x22] [0]])]

def rootCertificate : Certificate String := namedCertificate "root" "root" [0x01] []

/-- Knows the two certificates. -/
def namedX509 : X509Ext String where
  fromDer der :=
    if der = utf8 "leaf" then .ok leafCertificate
    else if der = utf8 "root" then .ok rootCertificate
    else .error "X.509 error"
  sameName a b := a == b
  asn1Time t := .ok t
  digest _ tbs := tbs
  rsaKeyError _ := some "ASN.1 error"
  rsaVerifies _ _ _ _ := false
  ecKeyError _ _ := none
  ecSignatureError _ _ := none
  ecVerifies _ key _ signature := key == signature

def polkadotParams (revokedSerials : List String) : VerifyParams where
  challenge := utf8 "challenge"
  packageNames := ["io.pcf.polkadotapp"]
  playstoreDigest := ⟨List.replicate 32 0x11, List.length_replicate⟩
  websiteDigest := ⟨List.replicate 32 0x11, List.length_replicate⟩
  revokedSerials := revokedSerials
  nowUnix := 1760000000
  trustedRootsDer := [utf8 "root"]
  trustedVerifiedBootKeys := []

theorem verifyChain_named :
    verifyChain namedX509 [utf8 "leaf", utf8 "root"] (polkadotParams []) = .ok () := by
  decide +kernel

theorem chain_sound_leaf_or_root_first :
    verifyChain namedX509 [utf8 "root", utf8 "leaf"] (polkadotParams []) = .ok () ∧
      ∃ certs, Certificates namedX509 [utf8 "leaf", utf8 "root"] certs ∧
        (Verified namedX509 (polkadotParams []) certs ∨
          Verified namedX509 (polkadotParams []) certs.reverse) := by
  obtain ⟨hsound, horder⟩ :=
    chain_sound_in_either_order namedX509 [utf8 "leaf", utf8 "root"] (polkadotParams [])
  have hturned := horder leafCertificate rootCertificate rfl rfl (by decide) (by decide)
  exact ⟨hturned.mp verifyChain_named, hsound verifyChain_named⟩

end DeviceUniqueness.KeyAttest
