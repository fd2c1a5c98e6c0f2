import DeviceUniqueness.Chain.Messages
import DeviceUniqueness.Intake.Json
import DeviceUniqueness.Text.Strings

/-! The registration request: how it is read out of a body, and how it is validated.

    Reading stops at the first structural error. Validation goes on: every field is checked by its
    own rule and every failure is reported, and only a request without one has its candidate
    signature verified. -/

namespace DeviceUniqueness

structure FieldError where
  message : String
  field : String
  deriving DecidableEq, Repr

/-- What a claim's intake reads of the service's configuration. The bounds are in seconds. -/
structure IntakeConfig where
  registrationVouchersEnabled : Bool
  dotnsIntakeFreshnessMaxAgeSecs : Nat
  dotnsMaxFutureSkewSecs : Nat

/-! ### Reading -/

structure Dotns where
  signature : String
  signedAt : Int
  reservedUsername : Option String
  deriving DecidableEq

structure RegisterRequest where
  candidateAccountId : String
  username : String
  preferredDigits : Option String
  candidateSignature : String
  ringVrfKey : String
  proofOfOwnership : String
  consumerRegistrationSignature : String
  identifierKey : String
  payloadVersion : Nat
  lifetimePoUDVoucher : Option String
  attestationChain : Option (List String)
  deviceChallenge : Option String
  deviceId : Option String
  dotns : Option Dotns
  deriving DecidableEq

def defaultPayloadVersion : Nat := 1

def Dotns.read (fields : Fields) : Decoded Dotns := do
  let signature ← fields.required "signature" 0 Json.asString
  let signedAt ← fields.required "signedAt" 1 Json.asI64
  let reservedUsername ← fields.defaulted "reservedUsername" 2 none (Json.asOption Json.asString)
  return { signature, signedAt, reservedUsername }

def Dotns.ofJson : Json → Decoded Dotns :=
  Json.asStruct "Dotns"
    [("signature", shape Json.asString), ("signedAt", shape Json.asI64),
     ("reservedUsername", shape (Json.asOption Json.asString))]
    Dotns.read

namespace RegisterRequest

def read (fields : Fields) : Decoded RegisterRequest := do
  let candidateAccountId ← fields.required "candidateAccountId" 0 Json.asString
  let username ← fields.required "username" 1 Json.asString
  let preferredDigits ← fields.defaulted "preferredDigits" 2 none (Json.asOption Json.asString)
  let candidateSignature ← fields.required "candidateSignature" 3 Json.asString
  let ringVrfKey ← fields.required "ringVrfKey" 4 Json.asString
  let proofOfOwnership ← fields.required "proofOfOwnership" 5 Json.asString
  let consumerRegistrationSignature ←
    fields.required "consumerRegistrationSignature" 6 Json.asString
  let identifierKey ← fields.required "identifierKey" 7 Json.asString
  let payloadVersion ← fields.defaulted "payloadVersion" 8 defaultPayloadVersion Json.asU16
  let lifetimePoUDVoucher ←
    fields.defaulted "lifetimePoUDVoucher" 9 none (Json.asOption Json.asString)
  let attestationChain ←
    fields.defaulted "attestationChain" 10 none (Json.asOption (Json.asVec Json.asString))
  let deviceChallenge ← fields.defaulted "deviceChallenge" 11 none (Json.asOption Json.asString)
  let deviceId ← fields.defaulted "deviceId" 12 none (Json.asOption Json.asString)
  let dotns ← fields.defaulted "dotns" 13 none (Json.asOption Dotns.ofJson)
  return {
    candidateAccountId, username, preferredDigits, candidateSignature, ringVrfKey,
    proofOfOwnership, consumerRegistrationSignature, identifierKey, payloadVersion,
    lifetimePoUDVoucher, attestationChain, deviceChallenge, deviceId, dotns }

def ofJson : Json → Decoded RegisterRequest :=
  Json.asStruct "RegisterRequest"
    [("candidateAccountId", shape Json.asString),
     ("username", shape Json.asString),
     ("preferredDigits", shape (Json.asOption Json.asString)),
     ("candidateSignature", shape Json.asString),
     ("ringVrfKey", shape Json.asString),
     ("proofOfOwnership", shape Json.asString),
     ("consumerRegistrationSignature", shape Json.asString),
     ("identifierKey", shape Json.asString),
     ("payloadVersion", shape Json.asU16),
     ("lifetimePoUDVoucher", shape (Json.asOption Json.asString)),
     ("attestationChain", shape (Json.asOption (Json.asVec Json.asString))),
     ("deviceChallenge", shape (Json.asOption Json.asString)),
     ("deviceId", shape (Json.asOption Json.asString)),
     ("dotns", shape (Json.asOption Dotns.ofJson))]
    read

end RegisterRequest

/-- The field a structural error is reported on, worded by the library. -/
def structuralError (describe : SerdeError → String) (e : PathError) : FieldError where
  message := describe e.error
  field :=
    let path := pathText e.path
    let parent := if path = "." then none else some path
    match parent, e.error with
    | some parent, .missingField name => parent ++ "." ++ name
    | none, .missingField name => name
    | some parent, _ => parent
    | none, _ => "body"

def RegisterRequest.decode (describe : SerdeError → String) (body : Json) :
    Except FieldError RegisterRequest :=
  (RegisterRequest.ofJson body).mapError (structuralError describe)

/-! ### The rules of single fields -/

def msgDigits : String := "Digits must be between 01-99"
def msgInvalidSs58 : String := "Invalid ss58 address."
def msgInvalidSignature : String := "Invalid signature."
def maxBaseLen : Nat := 29
def maxDotnsLabelLen : Nat := 32
def patternBase : String := "^([a-z]\x7b6,\x7d)$"
def patternHexString : String := "^(0x)?[a-fA-F0-9]+$"

def mustMatch (pattern : String) : String := "must match " ++ pattern

/-- `strip_prefix("0x")`. -/
def strip0x : Bytes → Option Bytes
  | 48 :: 120 :: digits => some digits
  | _ => none

/-- `Hex::<N>::try_from`. -/
def Hex.tryFrom (n : Nat) (value : String) : Except String (FixedBytes n) :=
  let decoded := ((strip0x (utf8 value)).filter fun digits => digits.length = 2 * n).bind hexDecode
  match decoded with
  | some bytes =>
      if h : bytes.length = n then .ok ⟨bytes, h⟩
      else .error ("Must be a hexadecimal string of exactly " ++ toString n ++ " bytes.")
  | none => .error ("Must be a hexadecimal string of exactly " ++ toString n ++ " bytes.")

/-- What follows the optional `0x` of a ring key. -/
def ringDigits (value : String) : Bytes := (strip0x (utf8 value)).getD (utf8 value)

/-- `RingVrfKey::try_from`. An odd number of digits decodes to an empty key. -/
def RingVrfKey.tryFrom (value : String) : Except String Bytes :=
  let digits := ringDigits value
  if digits.isEmpty || !digits.all fun b => (hexValue b).isSome then
    .error (mustMatch patternHexString)
  else .ok ((hexDecode digits).getD [])

def isAsciiLowercase (b : UInt8) : Bool := 97 ≤ b && b ≤ 122

/-- A name of at least six lowercase letters. -/
structure BaseName where
  name : String
  long : 6 ≤ (utf8 name).length
  lower : (utf8 name).all isAsciiLowercase

def BaseName.tryFrom (value : String) : Except String BaseName :=
  if h : 6 ≤ (utf8 value).length ∧ (utf8 value).all isAsciiLowercase then .ok ⟨value, h.1, h.2⟩
  else .error (mustMatch patternBase)

def BaseName.bounded (value : String) (maxLen : Nat) (tooLong : String) :
    Except String BaseName := do
  let name ← BaseName.tryFrom value
  if maxLen < (utf8 name.name).length then .error tooLong else return name

/-- A discriminator a claim may ask for: `00` is not one. -/
structure PreferredDigits where
  digits : Nat
  inPool : 1 ≤ digits ∧ digits ≤ 99

def PreferredDigits.tryFrom (value : String) : Except String PreferredDigits :=
  match utf8 value with
  | [tens, ones] =>
      if h : isAsciiDigit tens ∧ isAsciiDigit ones ∧ [tens, ones] ≠ [48, 48] then
        .ok ⟨(tens.toNat - 48) * 10 + (ones.toNat - 48), inPool h⟩
      else .error msgDigits
  | _ => .error msgDigits
where
  inPool {tens ones : UInt8} (h : isAsciiDigit tens ∧ isAsciiDigit ones ∧ [tens, ones] ≠ [48, 48]) :
      1 ≤ (tens.toNat - 48) * 10 + (ones.toNat - 48) ∧
        (tens.toNat - 48) * 10 + (ones.toNat - 48) ≤ 99 := by
    obtain ⟨ht, ho, hne⟩ := h
    simp only [isAsciiDigit, Bool.and_eq_true, decide_eq_true_eq, UInt8.le_iff_toNat_le] at ht ho
    simp only [ne_eq, List.cons.injEq, and_true, ← UInt8.toNat_inj] at hne
    simp only [UInt8.reduceToNat] at ht ho hne
    omega

inductive PayloadVersion where
  | v1
  deriving DecidableEq, Repr

def PayloadVersion.tryFrom (version : Nat) : Except String PayloadVersion :=
  if version = 1 then .ok .v1 else .error "Unsupported payload version. Supported: 1."

def PayloadVersion.toNat : PayloadVersion → Nat
  | .v1 => 1

end DeviceUniqueness
