import DeviceUniqueness.Intake.Reservation
import DeviceUniqueness.Intake.Widevine
import DeviceUniqueness.Writer.World

/-! `POST /api/v1/usernames`: a claim from its request to its reservation.

    The claim is validated, given a discriminator, put through the voucher lane or the two device
    gates, and reserved. Whether it is reserved together with a Widevine device record, with a mark
    at Apple, or plainly, is decided by what the two gates handed over. -/

namespace DeviceUniqueness

open Schemes

/-! ### What the service asks of the world -/

structure ReservationState where
  fullNameOwned : Bool
  queueLen : Nat
  queueCapacity : Nat

def ReservationState.queueFull (s : ReservationState) : Bool := s.queueCapacity ≤ s.queueLen

def ReservationState.rejects (s : ReservationState) : Bool := s.fullNameOwned || s.queueFull

structure BaseState where
  taken : List Nat
  fullNameOwned : Bool
  queueLen : Nat
  queueCapacity : Nat

def BaseState.reservation (s : BaseState) : ReservationState :=
  ⟨s.fullNameOwned, s.queueLen, s.queueCapacity⟩

inductive VoucherState where
  | redeemable
  | spent
  | expired
  | unknown
  deriving DecidableEq, Repr

/-- The operations of one request. A statement named `tx…` runs in the request's transaction. -/
inductive IntakeAsk where
  | allow (key : String)
  | signatureForm
  | nowUtc
  | chainBaseState (base : String)
  | allocatedDiscriminators (base : String)
  | reservationState (name : String)
  | random
  | voucherState (keyHash : FixedBytes 32)
  | revokedSerials
  | consumeChallenge (challenge : FixedBytes 32)
  | deviceSeen (hmac : FixedBytes 32)
  | alreadyUsed (token : Bytes)
  | registerDevice (token : Bytes)
  | freeBalance (account : FixedBytes 32)
  | insert (new : NewReservation) (group : Option Nat)
  | begin
  | txLock
  | txBurn (keyHash : FixedBytes 32)
  | txInsert (new : NewReservation) (group : Option Nat)
  | txInsertPending (hmac : FixedBytes 32) (reservationId : Nat)
  | commit
  | rollback

@[reducible] def IntakeAsk.Ans : IntakeAsk → Type
  | .allow _ => Except Nat Unit
  | .signatureForm => Except String AccountSignatureForm
  | .nowUtc => Int
  | .chainBaseState _ => Except String BaseState
  | .allocatedDiscriminators _ => Reply (List Nat)
  | .reservationState _ => Except String ReservationState
  | .random => Nat
  | .voucherState _ => Reply VoucherState
  | .revokedSerials => Except String (List String)
  | .consumeChallenge _ | .deviceSeen _ | .txBurn _ => Reply Bool
  | .alreadyUsed _ => Except String Bool
  | .registerDevice _ => Except String Unit
  | .freeBalance _ => Option Nat
  | .insert .. | .txInsert .. => Reply (Except Db.InsertError Nat)
  | .txInsertPending .. => Reply (Except Db.InsertDeviceError Unit)
  | .begin | .txLock | .commit | .rollback => Reply Unit

/-- The world as the intake service sees it. -/
abbrev IntakeWorld : Iface := ⟨IntakeAsk, IntakeAsk.Ans⟩

/-- A step of a request: it fails with what the client is told. -/
abbrev Claiming (α : Type) := Act IntakeWorld Unit UsernamesError α

def ask (o : IntakeAsk) : Claiming o.Ans := Act.op (I := IntakeWorld) o

/-- What a statement came back with, if it did. -/
def Reply.answer {α : Type} : Reply α → Except String α
  | .ok out => .ok out
  | .lost _ err | .refused err => .error err

/-! ### The request -/

/-- A request with what its headers and its token say. `body` is `none` if it is no JSON. -/
structure ClaimRequest where
  subject : String
  platform : Option String
  deviceToken : Option Bytes
  body : Option Json

/-- The base64 rule of the header: empty, or padded groups of four. -/
def isBase64 (value : Bytes) : Bool :=
  if value.isEmpty then true
  else if value.length % 4 ≠ 0 then false
  else
    let core := (value.reverse.dropWhile (· = 61)).reverse
    value.length - core.length ≤ 2 && core.all fun b =>
      (65 ≤ b && b ≤ 90) || (97 ≤ b && b ≤ 122) || (48 ≤ b && b ≤ 57) || b = 43 || b = 47

/-- `HeaderValue::to_str`: visible ASCII, blanks and tabs. -/
def headerText (raw : Bytes) : Option Bytes :=
  if raw.all fun b => (32 ≤ b && b < 127) || b = 9 then some raw else none

def validateDeviceTokenHeader (req : ClaimRequest) : Except UsernamesError Unit :=
  match req.deviceToken with
  | none => .ok ()
  | some raw =>
      if ((headerText raw).map isBase64).getD false then .ok ()
      else .error (.invalidHeader [⟨"Invalid base64-encoded string", "Device-Token-iOS"⟩])

/-- The token in the header; an empty header is no token. -/
def deviceTokenBytes (req : ClaimRequest) : Option Bytes := do
  let raw ← req.deviceToken
  let text ← headerText raw
  if text.isEmpty then none else base64Decode text

/-- The account a request is authenticated as. -/
def parseSubject (subject : String) : Option (FixedBytes 32) := do
  let digits ← strip0x (utf8 subject)
  let bytes ← hexDecode digits
  if h : bytes.length = 32 then some ⟨bytes, h⟩ else none

/-! ### The device gates -/

inductive Verdict where
  | available
  | alreadyUsed
  | failed (cause : String)
  | inactive
  deriving DecidableEq, Repr

inductive Decision where
  | register
  | proceed (available : Option Bool)
  | blocked
  | tokenRequired
  | unavailable (cause : String)
  deriving DecidableEq, Repr

def decideGate : Verdict → Bool → Decision
  | .available, true => .register
  | .available, false => .proceed (some true)
  | .alreadyUsed, true => .blocked
  | .alreadyUsed, false => .proceed (some false)
  | .failed cause, true => .unavailable cause
  | .failed _, false => .proceed none
  | .inactive, true => .tokenRequired
  | .inactive, false => .proceed none

/-- What Apple's answer about a token says of the device. -/
def deviceVerdict : Except String Bool → Verdict
  | .ok true => .alreadyUsed
  | .ok false => .available
  | .error err => .failed err

def evaluate (deviceToken : Option Bytes) : Claiming Verdict :=
  match deviceToken with
  | none => pure .inactive
  | some token => do return deviceVerdict (← ask (.alreadyUsed token))

inductive WidevineGate where
  | proceed (device : Option (FixedBytes 32))
  | ineligible
  deriving DecidableEq

section Gates

variable (ext : GateExt) (config : GateConfig)

/-- Evidence that does not hold is an error where it is enforced, and of no account elsewhere. -/
def rejectEvidence (enforce : Bool) (verdict : EvidenceError) : Claiming WidevineGate :=
  if enforce then Act.fail verdict.toUsernames else pure (.proceed none)

/-- What follows once the evidence of a request has verified. -/
def dedupDevice (enforce : Bool) (verified : VerifiedEvidence) : Claiming WidevineGate := do
  match (← ask (.consumeChallenge verified.challenge) : Reply Bool).answer with
  | .error e => if enforce then Act.fail (.internal e) else pure (.proceed none)
  | .ok false =>
      rejectEvidence enforce (.invalid "evidence challenge is unknown, spent, or expired")
  | .ok true =>
      match (← ask (.deviceSeen verified.hmac) : Reply Bool).answer with
      | .error e => if enforce then Act.fail (.internal e) else pure (.proceed none)
      | .ok seen =>
          if !enforce then pure (.proceed none)
          else if seen then pure .ineligible
          else pure (.proceed (some verified.hmac))

def widevineGate (req : ClaimRequest) (body : Json) : Claiming WidevineGate := do
  match config.widevine with
  | none => pure (.proceed none)
  | some cfg =>
      match extract body with
      | .error verdict => rejectEvidence cfg.enforce verdict
      | .ok none =>
          if cfg.enforce && req.platform = some "android" then pure .ineligible
          else pure (.proceed none)
      | .ok (some raw) =>
          match ← ask .revokedSerials with
          | .error _ =>
              if cfg.enforce then Act.fail .deviceEvidenceUnavailable else pure (.proceed none)
          | .ok revokedSerials =>
              match parseSubject req.subject with
              | none =>
                  rejectEvidence cfg.enforce (.invalid "JWT subject is not a 32-byte account key")
              | some subjectPubkey =>
                  let now ← ask .nowUtc
                  match verifyEvidence ext config cfg revokedSerials subjectPubkey now raw with
                  | .error verdict => rejectEvidence cfg.enforce verdict
                  | .ok verified => dedupDevice cfg.enforce verified

/-- The token to mark and the advisory availability, or `none` for an ineligible device. -/
def deviceCheckGate (req : ClaimRequest) : Claiming (Option (Option Bytes × Option Bool)) :=
  if config.deviceCheck && req.platform = some "ios" then do
    let deviceToken := deviceTokenBytes req
    let verdict ← evaluate deviceToken
    match decideGate verdict config.enforceAuth with
    | .blocked => pure none
    | .tokenRequired => Act.fail .deviceTokenRequired
    | .unavailable _ => Act.fail .deviceCheckUnavailable
    | .register => pure (some (deviceToken, some true))
    | .proceed available => pure (some (none, available))
  else pure (some (none, none))

end Gates

/-! ### The reservation -/

inductive ReserveOutcome where
  | reserved (id : Nat)
  | deviceAlreadyClaimed
  deriving DecidableEq

/-- A statement of a reservation: what goes wrong with it is a persistence failure. -/
def persist {α : Type} (reply : Reply α) : Claiming α :=
  match reply.answer with
  | .ok out => pure out
  | .error _ => Act.fail .persistenceFailed

/-- A statement inside the transaction, which is dropped if the statement goes wrong. -/
def txPersist {α : Type} (reply : Reply α) : Claiming α := do
  match reply.answer with
  | .ok out => pure out
  | .error _ =>
      let _ ← ask .rollback
      Act.fail .persistenceFailed

/-- Drop the transaction and fail. -/
def abort {α : Type} (e : UsernamesError) : Claiming α := do
  let _ ← ask .rollback
  Act.fail e

/-- The claim's row with the record of its device, in one transaction. -/
def reserveWithDevice (new : NewReservation) (queueGroup : Option Nat) (hmac : FixedBytes 32) :
    Claiming ReserveOutcome := do
  persist (← ask .begin)
  match ← txPersist (← ask (.txInsert new queueGroup)) with
  | .error .conflict => abort (.usernameTaken new.base new.digits)
  | .error .db => abort .persistenceFailed
  | .ok id =>
      match ← txPersist (← ask (.txInsertPending hmac id)) with
      | .error .seen =>
          let _ ← ask .rollback
          pure .deviceAlreadyClaimed
      | .ok () =>
          persist (← ask .commit)
          pure (.reserved id)

def reservePlain (new : NewReservation) (queueGroup : Option Nat) : Claiming ReserveOutcome := do
  match ← persist (← ask (.insert new queueGroup)) with
  | .ok id => pure (.reserved id)
  | .error .conflict => Act.fail (.usernameTaken new.base new.digits)
  | .error .db => Act.fail .persistenceFailed

/-- The free slot of an iOS device: all such claims are serialized by an advisory lock, Apple is asked
    again under it, and the slot is marked only once the row is there. -/
def reserveWithMark (new : NewReservation) (token : Bytes) (queueGroup : Option Nat) :
    Claiming ReserveOutcome := do
  persist (← ask .begin)
  txPersist (← ask .txLock)
  match ← ask (.alreadyUsed token) with
  | .ok true =>
      let _ ← ask .rollback
      pure .deviceAlreadyClaimed
  | .error _ => abort .deviceCheckUnavailable
  | .ok false =>
      match ← txPersist (← ask (.txInsert new queueGroup)) with
      | .error .conflict => abort (.usernameTaken new.base new.digits)
      | .error .db => abort .persistenceFailed
      | .ok id =>
          match ← ask (.registerDevice token) with
          | .error _ => abort .deviceRegistrationFailed
          | .ok () =>
              persist (← ask .commit)
              pure (.reserved id)

def reserve (new : NewReservation) (markToken : Option Bytes) (queueGroup : Option Nat)
    (widevineDevice : Option (FixedBytes 32)) : Claiming ReserveOutcome :=
  match widevineDevice with
  | some hmac => reserveWithDevice new queueGroup hmac
  | none =>
      match markToken with
      | none => reservePlain new queueGroup
      | some token => reserveWithMark new token queueGroup

/-! ### The handler -/

/-- What a handled claim is answered with. `id` stands for the queue standing read after it. -/
inductive ClaimResponse where
  | accepted (baseUsername digits username : String) (deviceCheckAvailable : Option Bool)
      (registrationOutcome : Option String) (id : Nat)
  | ineligible
  deriving DecidableEq

def planckPerDot : Nat := 10000000000

def groupForBalance (planck : Nat) : Nat :=
  if 1000 * planckPerDot ≤ planck then 4
  else if 100 * planckPerDot ≤ planck then 3
  else if 10 * planckPerDot ≤ planck then 2
  else 1

/-- The group of a claim's subject; the lowest one whenever its balance cannot be read. -/
def intakeGroup (subject : String) : Claiming Nat := do
  match parseSubject subject with
  | none => pure 1
  | some account =>
      match ← ask (.freeBalance account) with
      | some balance => pure (groupForBalance balance)
      | none => pure 1

/-- The flag alone selects the queue lane. -/
def queueGroup (config : GateConfig) (subject : String) : Claiming (Option Nat) :=
  if config.queueEnabled then do return some (← intakeGroup subject) else pure none

/-- The outcome of the eligibility table for a voucher that was submitted. -/
def decideVoucher : VoucherState → Except VoucherError Unit
  | .redeemable => .ok ()
  | .spent => .error .spent
  | .expired => .error .expired
  | .unknown => .error .unknown

def orInternal {α : Type} : Except String α → Claiming α
  | .ok x => pure x
  | .error e => Act.fail (.internal e)

inductive RedeemError where
  | conflict
  | voucher (reason : VoucherError)
  | db
  deriving DecidableEq, Repr

/-- What the client is told about a redeem that failed. -/
def RedeemError.toUsernames (new : NewReservation) : RedeemError → UsernamesError
  | .conflict => .usernameTaken new.base new.digits
  | .voucher reason => .voucher reason
  | .db => .persistenceFailed

/-- Why a voucher could not be burned, from its state read after that. One that reads redeemable
    again is reported as spent. -/
def VoucherState.lost : VoucherState → VoucherError
  | .unknown => .unknown
  | .expired => .expired
  | .spent | .redeemable => .spent

def keyHash (ext : GateExt) (key : String) : FixedBytes 32 := ext.sha256 (utf8 key)

/-- Burn the voucher and insert the reservation in one transaction. -/
def redeemAndReserve (keyHash : FixedBytes 32) (new : NewReservation) : Claiming Nat := do
  persist (← ask .begin)
  if ← txPersist (← ask (.txBurn keyHash)) then
    match ← txPersist (← ask (.txInsert new none)) with
    | .error .conflict => abort (RedeemError.conflict.toUsernames new)
    | .error .db => abort (RedeemError.db.toUsernames new)
    | .ok id =>
        persist (← ask .commit)
        pure id
  else
    let _ ← ask .rollback
    let state ← persist (← ask (.voucherState keyHash))
    Act.fail ((RedeemError.voucher state.lost).toUsernames new)

/-- The voucher lane: a redeemable voucher registers at once, any other one rejects the claim. -/
def registerWithVoucher (keyHash : FixedBytes 32) (new : NewReservation) :
    Claiming ClaimResponse := do
  let state ← orInternal (← ask (.voucherState keyHash) : Reply VoucherState).answer
  match decideVoucher state with
  | .error reason => Act.fail (.voucher reason)
  | .ok () =>
      let id ← redeemAndReserve keyHash new
      pure (.accepted new.base new.digits new.fullUsername none (some "INSTANT") id)

/-- The base's state on the chain with what the outbox has taken. -/
def baseStateAt (base : String) : Claiming BaseState := do
  let chain ← orInternal (← ask (.chainBaseState base))
  let pending ← orInternal (← ask (.allocatedDiscriminators base) : Reply (List Nat)).answer
  pure { chain with taken := chain.taken ++ pending }

def reservationStateOf (base : BaseState) (username reserved : String) :
    Claiming ReservationState :=
  if reserved = username then pure base.reservation
  else do orInternal (← ask (.reservationState reserved))

/-- A claim that reserves a personhood name is turned down if that name cannot be reserved. -/
def checkReservation (parsed : ParsedRegister) (base : BaseState) : Claiming Unit :=
  match reservedName parsed with
  | none => pure ()
  | some reserved => do
      let reservation ← reservationStateOf base parsed.username reserved
      if reservation.rejects then Act.fail (.fullNameUnavailable reserved) else pure ()

section Handler

variable (ext : GateExt) (config : GateConfig) (req : ClaimRequest)

/-- The claim as it is to be reserved, with its voucher. -/
def prepare : Claiming (NewReservation × Option String × Json) := do
  match ← ask (.allow ("/api/v1/usernames:" ++ req.subject)) with
  | .error retryAfterSecs => Act.fail (.rateLimited retryAfterSecs)
  | .ok () =>
      Act.ofExcept (validateDeviceTokenHeader req)
      match req.body with
      | none => Act.fail .malformedJson
      | some value =>
          let form ← orInternal (← ask .signatureForm)
          let now ← ask .nowUtc
          let parsed ← Act.ofExcept
            (validateRegister ext.toExt ext.describe config.toIntakeConfig form now value)
          let base ← baseStateAt parsed.username
          checkReservation parsed base
          let rng ← ask .random
          let digit ← Act.ofExcept
            (selectDigit base.taken parsed.preferredDigits parsed.username rng)
          pure (buildReservation req.subject parsed (twoDigits digit)
            (fullUsername parsed.username digit), parsed.voucher, value)

/-- The lane of a claim without a voucher: the two device gates, then the queue or the writer. -/
def registerStandard (new : NewReservation) (value : Json) : Claiming ClaimResponse := do
  match ← widevineGate ext config req value with
  | .ineligible => pure .ineligible
  | .proceed widevineDevice =>
      match ← deviceCheckGate config req with
      | none => pure .ineligible
      | some (markToken, available) =>
          let group ← queueGroup config req.subject
          match ← reserve new markToken group widevineDevice with
          | .deviceAlreadyClaimed => pure .ineligible
          | .reserved id =>
              pure (.accepted new.base new.digits new.fullUsername available
                (if config.queueEnabled then some "QUEUED" else none) id)

def register : Claiming ClaimResponse := do
  let (new, voucher, value) ← prepare ext config req
  match voucher with
  | some key => registerWithVoucher (keyHash ext key) new
  | none => registerStandard ext config req new value

end Handler

end DeviceUniqueness
