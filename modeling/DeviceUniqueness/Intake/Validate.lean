import DeviceUniqueness.Intake.Request

/-! Validation of a registration request.

    Each check leaves its errors in a report and the request goes on to the next one, so what is
    returned is assembled from optional values. `RegisterRequest.validate_eq_ok` says what comes of
    it: a request is accepted exactly if every field passes its own rule and the candidate signature
    verifies over the very bytes returned. -/

namespace DeviceUniqueness

/-! ### Reports -/

abbrev Report := List FieldError

namespace Report

variable {α : Type}

def flag (field message : String) : StateM Report Unit := modify (· ++ [⟨message, field⟩])

def check (field : String) : Except String α → StateM Report (Option α)
  | .ok x => pure (some x)
  | .error message => do
      flag field message
      return none

def checkOptional (field : String) :
    Option (Except String α) → StateM Report (Option (Option α))
  | none => pure (some none)
  | some checked => do return (← check field checked).map some

/-- What a check adds to the report. -/
def errors (field : String) : Except String α → Report
  | .ok _ => []
  | .error message => [⟨message, field⟩]

/-- An optional value whose check, if there is anything to check, went well. -/
def passed : Option (Except String α) → Option (Option α)
  | none => some none
  | some checked => checked.toOption.map some

def errorsOptional (field : String) (checked : Option (Except String α)) : Report :=
  (checked.map (errors field)).getD []

@[simp] theorem flag_run (field message : String) (r : Report) :
    (flag field message).run r = pure ((), r ++ [⟨message, field⟩]) := rfl

@[simp] theorem check_run (field : String) (checked : Except String α) (r : Report) :
    (check field checked).run r = pure (checked.toOption, r ++ errors field checked) := by
  cases checked with
  | ok x => simp [check, errors, Except.toOption]
  | error message => rfl

@[simp] theorem checkOptional_run (field : String) (checked : Option (Except String α))
    (r : Report) :
    (checkOptional field checked).run r =
      pure (passed checked, r ++ errorsOptional field checked) := by
  cases checked with
  | none | some checked => simp [checkOptional, passed, errorsOptional]

theorem toOption_eq_some {checked : Except String α} {x : α} :
    checked.toOption = some x ↔ checked = .ok x := by
  cases checked <;> simp [Except.toOption]

theorem passed_eq_some {checked : Option (Except String α)} {x : Option α} :
    passed checked = some x ↔ checked = x.map .ok := by
  cases checked with
  | none => cases x <;> simp [passed]
  | some checked => cases x <;> simp [passed, toOption_eq_some]

end Report

open Report

/-! ### The checks -/

structure ParsedDotns where
  signature : Bytes
  signedAt : Int
  reservedUsername : Option String
  deriving DecidableEq

structure ParsedRegister where
  candidateAccountId : String
  username : String
  preferredDigits : Option Nat
  candidateSignature : Bytes
  ringVrfKey : Bytes
  proofOfOwnership : Bytes
  consumerRegistrationSignature : Bytes
  identifierKey : Bytes
  payloadVersion : PayloadVersion
  voucher : Option String
  dotns : Option ParsedDotns
  deriving DecidableEq

def reservedName (parsed : ParsedRegister) : Option String :=
  parsed.dotns.bind ParsedDotns.reservedUsername

namespace Dotns

def checkSignedAt (signedAt : Int) : Except String Int :=
  if signedAt < 0 then .error "must be greater than or equal to 0" else .ok signedAt

def checkReserved (name : String) : Except String BaseName :=
  BaseName.bounded name maxDotnsLabelLen
    ("reservedUsername exceeds the maximum label length: (" ++ toString maxDotnsLabelLen ++ ").")

/-- The age of a signature that has a time at all. -/
def flagAge (config : IntakeConfig) (now : Int) : Option Int → StateM Report Unit
  | none => pure ()
  | some signedAt => do
      let skew : Int := config.dotnsMaxFutureSkewSecs
      let maxAge : Int := config.dotnsIntakeFreshnessMaxAgeSecs
      if now + skew < signedAt then
        flag "dotns.signedAt" ("signedAt is in the future (tolerance " ++ toString skew ++ "s).")
      if maxAge < now - signedAt then
        flag "dotns.signedAt"
          ("signedAt is older than the intake freshness bound (" ++ toString maxAge ++
            "s). Re-sign with a fresh timestamp and resubmit.")

/-- What the values that passed are put together to. -/
def assemble (signature : Option (FixedBytes 64)) (signedAt : Option Int)
    (reservedUsername : Option (Option BaseName)) : Option ParsedDotns := do
  let signature ← signature
  let signedAt ← signedAt
  let reservedUsername ← reservedUsername
  return { signature := signature.1, signedAt
           reservedUsername := reservedUsername.map BaseName.name }

def validate (config : IntakeConfig) (now : Int) (dotns : Dotns) :
    StateM Report (Option ParsedDotns) := do
  let signature ← check "dotns.signature" (Hex.tryFrom 64 dotns.signature)
  let signedAt ← check "dotns.signedAt" (checkSignedAt dotns.signedAt)
  let reservedUsername ←
    checkOptional "dotns.reservedUsername" (dotns.reservedUsername.map checkReserved)
  flagAge config now signedAt
  return assemble signature signedAt reservedUsername

end Dotns

namespace RegisterRequest

def verifyCandidateSignature (ext : Ext) (version : PayloadVersion) (candidatePubkey : Account)
    (candidateSignature ringVrfKey : Bytes) (form : AccountSignatureForm) : Bool :=
  let message := match version with
    | .v1 => candidateMessage candidatePubkey ringVrfKey
  verifyAccountSignature ext candidateSignature message candidatePubkey form

def checkCandidate (ext : Ext) (candidateAccountId : String) : Except String Account :=
  match ext.accountFromStr candidateAccountId with
  | some account => .ok account
  | none => .error msgInvalidSs58

def checkUsername (username : String) : Except String BaseName :=
  BaseName.bounded username maxBaseLen
    ("Username sum exceeds the maximum length: (" ++ toString maxBaseLen ++ ").")

def checkDotns (config : IntakeConfig) (now : Int) :
    Option Dotns → StateM Report (Option (Option ParsedDotns))
  | none => pure (some none)
  | some dotns => do return (← dotns.validate config now).map some

/-- The signature verifies, or there is none to verify. -/
def signatureHolds (ext : Ext) (form : AccountSignatureForm) (candidate : Option Account)
    (signature : Option (FixedBytes 64)) (ring : Option Bytes) (version : Option PayloadVersion) :
    Bool :=
  match candidate, signature, ring, version with
  | some candidate, some signature, some ring, some version =>
      verifyCandidateSignature ext version candidate signature.1 ring form
  | _, _, _, _ => true

/-- The one costly check, made only for a request that can still succeed. -/
def flagSignature (ext : Ext) (form : AccountSignatureForm) (candidate : Option Account)
    (signature : Option (FixedBytes 64)) (ring : Option Bytes) (version : Option PayloadVersion) :
    StateM Report Unit := do
  if (← get).isEmpty && !signatureHolds ext form candidate signature ring version then
    flag "candidateSignature" msgInvalidSignature

def keptVoucher (config : IntakeConfig) (voucher : Option String) : Option String :=
  voucher.filter fun voucher => config.registrationVouchersEnabled && !voucher.isEmpty

def assemble (config : IntakeConfig) (request : RegisterRequest) (candidate : Option Account)
    (username : Option BaseName) (preferredDigits : Option (Option PreferredDigits))
    (candidateSignature : Option (FixedBytes 64)) (ringVrfKey : Option Bytes)
    (proofOfOwnership consumerRegistrationSignature : Option (FixedBytes 64))
    (identifierKey : Option (FixedBytes 65)) (payloadVersion : Option PayloadVersion)
    (dotns : Option (Option ParsedDotns)) : Option ParsedRegister := do
  let _ ← candidate
  let username ← username
  let preferredDigits ← preferredDigits
  let candidateSignature ← candidateSignature
  let ringVrfKey ← ringVrfKey
  let proofOfOwnership ← proofOfOwnership
  let consumerRegistrationSignature ← consumerRegistrationSignature
  let identifierKey ← identifierKey
  let payloadVersion ← payloadVersion
  let dotns ← dotns
  return {
    candidateAccountId := request.candidateAccountId
    username := username.name
    preferredDigits := preferredDigits.map PreferredDigits.digits
    candidateSignature := candidateSignature.1
    ringVrfKey
    proofOfOwnership := proofOfOwnership.1
    consumerRegistrationSignature := consumerRegistrationSignature.1
    identifierKey := identifierKey.1
    payloadVersion
    voucher := keptVoucher config request.lifetimePoUDVoucher
    dotns }

/-- All checks in their order, and what the values that passed are put together to. -/
def checks (ext : Ext) (config : IntakeConfig) (form : AccountSignatureForm) (now : Int)
    (request : RegisterRequest) : StateM Report (Option ParsedRegister) := do
  let candidate ← check "candidateAccountId" (checkCandidate ext request.candidateAccountId)
  let username ← check "username" (checkUsername request.username)
  let preferredDigits ←
    checkOptional "preferredDigits" (request.preferredDigits.map PreferredDigits.tryFrom)
  let candidateSignature ←
    check "candidateSignature" (Hex.tryFrom 64 request.candidateSignature)
  let ringVrfKey ← check "ringVrfKey" (RingVrfKey.tryFrom request.ringVrfKey)
  let proofOfOwnership ← check "proofOfOwnership" (Hex.tryFrom 64 request.proofOfOwnership)
  let consumerRegistrationSignature ←
    check "consumerRegistrationSignature" (Hex.tryFrom 64 request.consumerRegistrationSignature)
  let identifierKey ← check "identifierKey" (Hex.tryFrom 65 request.identifierKey)
  let payloadVersion ← check "payloadVersion" (PayloadVersion.tryFrom request.payloadVersion)
  let dotns ← checkDotns config now request.dotns
  flagSignature ext form candidate candidateSignature ringVrfKey payloadVersion
  return assemble config request candidate username preferredDigits candidateSignature ringVrfKey
    proofOfOwnership consumerRegistrationSignature identifierKey payloadVersion dotns

def validate (ext : Ext) (config : IntakeConfig) (form : AccountSignatureForm) (now : Int)
    (request : RegisterRequest) : Except (List FieldError) ParsedRegister :=
  match (request.checks ext config form now).run [] with
  | (some parsed, []) => .ok parsed
  | (_, report) => .error report

end RegisterRequest

inductive VoucherError where
  | unknown
  | spent
  | expired
  deriving DecidableEq, Repr

/-- How a request on the usernames surface can fail. -/
inductive UsernamesError where
  | rateLimited (retryAfterSecs : Nat)
  | invalidBody (errors : List FieldError)
  | invalidHeader (errors : List FieldError)
  | malformedJson
  | preferredDigitsTaken (digits base : String)
  | noDigitsAvailable (base : String)
  | usernameTaken (base digits : String)
  | fullNameUnavailable (reserved : String)
  | voucher (reason : VoucherError)
  | persistenceFailed
  | deviceTokenRequired
  | deviceCheckUnavailable
  | deviceRegistrationFailed
  | deviceEvidenceMalformed
  | deviceEvidenceInvalid
  | deviceEvidenceUnavailable
  | internal (err : String)
  deriving DecidableEq, Repr

def validateRegister (ext : Ext) (describe : SerdeError → String) (config : IntakeConfig)
    (form : AccountSignatureForm) (now : Int) (body : Json) :
    Except UsernamesError ParsedRegister := do
  let request ← (RegisterRequest.decode describe body).mapError fun e => .invalidBody [e]
  (request.validate ext config form now).mapError .invalidBody

/-! ### What is reported, and what is accepted -/

namespace Dotns

variable {config : IntakeConfig} {now : Int} {dotns : Dotns}

/-- What the age of a signature adds to the report. -/
def ageErrors (config : IntakeConfig) (now : Int) (signedAt : Option Int) : Report :=
  (Id.run ((flagAge config now signedAt).run [])).2

/-- What the rules of a dotNS block add to the report. -/
def ownErrors (config : IntakeConfig) (now : Int) (dotns : Dotns) : Report :=
  errors "dotns.signature" (Hex.tryFrom 64 dotns.signature) ++
    errors "dotns.signedAt" (checkSignedAt dotns.signedAt) ++
    errorsOptional "dotns.reservedUsername" (dotns.reservedUsername.map checkReserved) ++
    ageErrors config now (checkSignedAt dotns.signedAt).toOption

def parsed (dotns : Dotns) : Option ParsedDotns :=
  assemble (Hex.tryFrom 64 dotns.signature).toOption (checkSignedAt dotns.signedAt).toOption
    (passed (dotns.reservedUsername.map checkReserved))

theorem flagAge_run (signedAt : Option Int) (r : Report) :
    (flagAge config now signedAt).run r = pure ((), r ++ ageErrors config now signedAt) := by
  cases signedAt with
  | none => simp [ageErrors, flagAge]
  | some signedAt =>
    simp only [ageErrors, flagAge]
    split_ifs <;> simp

theorem validate_run (r : Report) :
    (dotns.validate config now).run r = pure (dotns.parsed, r ++ dotns.ownErrors config now) := by
  simp [validate, flagAge_run, ownErrors, parsed]

theorem ageErrors_eq_nil {signedAt : Int} :
    ageErrors config now (some signedAt) = [] ↔
      signedAt ≤ now + config.dotnsMaxFutureSkewSecs ∧
        now - signedAt ≤ config.dotnsIntakeFreshnessMaxAgeSecs := by
  simp only [ageErrors, flagAge]
  split_ifs <;> simp <;> omega

/-- Every rule of the block is met, and what it is read as. -/
structure Accepts (config : IntakeConfig) (now : Int) (dotns : Dotns) (parsed : ParsedDotns) :
    Prop where
  signature : ∃ s, Hex.tryFrom 64 dotns.signature = .ok s ∧ parsed.signature = s.1
  signedAt : 0 ≤ dotns.signedAt ∧ parsed.signedAt = dotns.signedAt
  notFuture : dotns.signedAt ≤ now + config.dotnsMaxFutureSkewSecs
  fresh : now - dotns.signedAt ≤ config.dotnsIntakeFreshnessMaxAgeSecs
  reserved : ∃ name : Option BaseName, dotns.reservedUsername.map checkReserved = name.map .ok ∧
    parsed.reservedUsername = name.map BaseName.name

theorem assemble_eq_some {signature : Option (FixedBytes 64)} {signedAt : Option Int}
    {reservedUsername : Option (Option BaseName)} {parsed : ParsedDotns} :
    assemble signature signedAt reservedUsername = some parsed ↔
      ∃ s name, signature = some s ∧ signedAt = some parsed.signedAt ∧
        reservedUsername = some name ∧ parsed.signature = s.1 ∧
        parsed.reservedUsername = name.map BaseName.name := by
  constructor
  · intro h
    obtain ⟨s, hs, h⟩ := Option.bind_eq_some_iff.mp h
    obtain ⟨t, ht, h⟩ := Option.bind_eq_some_iff.mp h
    obtain ⟨name, hname, h⟩ := Option.bind_eq_some_iff.mp h
    cases h
    exact ⟨s, name, hs, ht, hname, rfl, rfl⟩
  · obtain ⟨bytes, t, text⟩ := parsed
    rintro ⟨s, name, rfl, rfl, rfl, rfl, rfl⟩
    rfl

theorem checkSignedAt_eq_ok {signedAt x : Int} :
    checkSignedAt signedAt = .ok x ↔ 0 ≤ signedAt ∧ x = signedAt := by
  unfold checkSignedAt
  split <;> simp <;> omega

theorem accepts_iff {parsed : ParsedDotns} :
    dotns.parsed = some parsed ∧ dotns.ownErrors config now = [] ↔
      Accepts config now dotns parsed := by
  constructor
  · rintro ⟨hp, he⟩
    obtain ⟨s, name, hs, ht, hr, hsig, hres⟩ := assemble_eq_some.mp hp
    rw [toOption_eq_some] at hs ht
    rw [passed_eq_some] at hr
    have hage : ageErrors config now (some parsed.signedAt) = [] := by
      simpa [ownErrors, ht, Except.toOption] using (List.append_eq_nil_iff.mp he).2
    obtain ⟨hpos, heq⟩ := checkSignedAt_eq_ok.mp ht
    rw [heq, ageErrors_eq_nil] at hage
    exact ⟨⟨s, hs, hsig⟩, ⟨hpos, heq⟩, hage.1, hage.2, ⟨name, hr, hres⟩⟩
  · rintro ⟨⟨s, hs, hsig⟩, hat, hnf, hfresh, ⟨name, hr, hres⟩⟩
    have ht := checkSignedAt_eq_ok.mpr hat
    refine ⟨assemble_eq_some.mpr ⟨s, name, ?_, ?_, ?_, hsig, hres⟩, ?_⟩
    · exact toOption_eq_some.mpr hs
    · exact toOption_eq_some.mpr ht
    · exact passed_eq_some.mpr hr
    · have hage : ageErrors config now (some parsed.signedAt) = [] := by
        rw [hat.2]
        exact ageErrors_eq_nil.mpr ⟨hnf, hfresh⟩
      simp only [ownErrors, hs, ht, hr, errors, Except.toOption, hage, errorsOptional]
      cases name <;> rfl

end Dotns

namespace RegisterRequest

variable {ext : Ext} {config : IntakeConfig} {form : AccountSignatureForm} {now : Int}
  {request : RegisterRequest} {parsed : ParsedRegister}

def dotnsErrors (config : IntakeConfig) (now : Int) (dotns : Option Dotns) : Report :=
  (dotns.map (Dotns.ownErrors config now)).getD []

def dotnsParsed (dotns : Option Dotns) : Option (Option ParsedDotns) :=
  match dotns with
  | none => some none
  | some dotns => dotns.parsed.map some

/-- What the rules of the single fields add to the report. -/
def ownErrors (ext : Ext) (config : IntakeConfig) (now : Int) (request : RegisterRequest) :
    Report :=
  errors "candidateAccountId" (checkCandidate ext request.candidateAccountId) ++
    errors "username" (checkUsername request.username) ++
    errorsOptional "preferredDigits" (request.preferredDigits.map PreferredDigits.tryFrom) ++
    errors "candidateSignature" (Hex.tryFrom 64 request.candidateSignature) ++
    errors "ringVrfKey" (RingVrfKey.tryFrom request.ringVrfKey) ++
    errors "proofOfOwnership" (Hex.tryFrom 64 request.proofOfOwnership) ++
    errors "consumerRegistrationSignature" (Hex.tryFrom 64 request.consumerRegistrationSignature) ++
    errors "identifierKey" (Hex.tryFrom 65 request.identifierKey) ++
    errors "payloadVersion" (PayloadVersion.tryFrom request.payloadVersion) ++
    dotnsErrors config now request.dotns

theorem checkDotns_run (dotns : Option Dotns) (r : Report) :
    (checkDotns config now dotns).run r =
      pure (dotnsParsed dotns, r ++ dotnsErrors config now dotns) := by
  cases dotns with
  | none => simp [checkDotns, dotnsParsed, dotnsErrors]
  | some dotns => simp [checkDotns, Dotns.validate_run, dotnsParsed, dotnsErrors]

/-- What the signature adds to a report. -/
def signatureErrors (ext : Ext) (form : AccountSignatureForm) (candidate : Option Account)
    (signature : Option (FixedBytes 64)) (ring : Option Bytes) (version : Option PayloadVersion)
    (r : Report) : Report :=
  if r.isEmpty && !signatureHolds ext form candidate signature ring version then
    [⟨msgInvalidSignature, "candidateSignature"⟩]
  else []

theorem flagSignature_run {candidate : Option Account} {signature : Option (FixedBytes 64)}
    {ring : Option Bytes} {version : Option PayloadVersion} (r : Report) :
    (flagSignature ext form candidate signature ring version).run r =
      pure ((), r ++ signatureErrors ext form candidate signature ring version r) := by
  simp only [flagSignature, signatureErrors, StateT.run_bind, StateT.run_get, pure_bind]
  split <;> simp

/-- What the values that pass their rules are put together to. -/
def parsed? (ext : Ext) (config : IntakeConfig) (request : RegisterRequest) :
    Option ParsedRegister :=
  assemble config request (checkCandidate ext request.candidateAccountId).toOption
    (checkUsername request.username).toOption
    (passed (request.preferredDigits.map PreferredDigits.tryFrom))
    (Hex.tryFrom 64 request.candidateSignature).toOption
    (RingVrfKey.tryFrom request.ringVrfKey).toOption
    (Hex.tryFrom 64 request.proofOfOwnership).toOption
    (Hex.tryFrom 64 request.consumerRegistrationSignature).toOption
    (Hex.tryFrom 65 request.identifierKey).toOption
    (PayloadVersion.tryFrom request.payloadVersion).toOption (dotnsParsed request.dotns)

/-- What is wrong with the signature of a request that has nothing else wrong with it. -/
def ownSignatureErrors (ext : Ext) (form : AccountSignatureForm) (request : RegisterRequest) :
    Report → Report :=
  signatureErrors ext form (checkCandidate ext request.candidateAccountId).toOption
    (Hex.tryFrom 64 request.candidateSignature).toOption
    (RingVrfKey.tryFrom request.ringVrfKey).toOption
    (PayloadVersion.tryFrom request.payloadVersion).toOption

theorem checks_run :
    (request.checks ext config form now).run [] =
      pure (request.parsed? ext config, request.ownErrors ext config now ++
        request.ownSignatureErrors ext form (request.ownErrors ext config now)) := by
  unfold checks
  simp only [StateT.run_bind, check_run, checkOptional_run, checkDotns_run, flagSignature_run,
    pure_bind, StateT.run_pure, List.nil_append]
  rfl

theorem validate_cases :
    request.validate ext config form now = .ok parsed ↔
      request.parsed? ext config = some parsed ∧ request.ownErrors ext config now = [] ∧
        request.ownSignatureErrors ext form [] = [] := by
  unfold validate
  rw [checks_run]
  constructor
  · intro h
    split at h
    · next hp =>
      obtain ⟨hv, he⟩ := Prod.mk.inj hp
      obtain ⟨hown, hsig⟩ := List.append_eq_nil_iff.mp he
      rw [hown] at hsig
      exact ⟨hv.trans (congrArg some (Except.ok.inj h)), hown, hsig⟩
    · cases h
  · rintro ⟨hv, hown, hsig⟩
    rw [hown, hsig, hv]
    rfl

/-- Every rule is met, the signature verifies, and what the request is read as. -/
structure Accepts (ext : Ext) (config : IntakeConfig) (form : AccountSignatureForm) (now : Int)
    (request : RegisterRequest) (parsed : ParsedRegister) : Prop where
  candidate : ∃ account, ext.accountFromStr request.candidateAccountId = some account ∧
    verifyCandidateSignature ext parsed.payloadVersion account parsed.candidateSignature
      parsed.ringVrfKey form = true
  account : parsed.candidateAccountId = request.candidateAccountId
  username : ∃ name, checkUsername request.username = .ok name ∧ parsed.username = name.name
  digits : ∃ d : Option PreferredDigits,
    request.preferredDigits.map PreferredDigits.tryFrom = d.map .ok ∧
      parsed.preferredDigits = d.map PreferredDigits.digits
  signature : ∃ s, Hex.tryFrom 64 request.candidateSignature = .ok s ∧
    parsed.candidateSignature = s.1
  ring : RingVrfKey.tryFrom request.ringVrfKey = .ok parsed.ringVrfKey
  proof : ∃ s, Hex.tryFrom 64 request.proofOfOwnership = .ok s ∧ parsed.proofOfOwnership = s.1
  consumer : ∃ s, Hex.tryFrom 64 request.consumerRegistrationSignature = .ok s ∧
    parsed.consumerRegistrationSignature = s.1
  identifier : ∃ s, Hex.tryFrom 65 request.identifierKey = .ok s ∧ parsed.identifierKey = s.1
  version : PayloadVersion.tryFrom request.payloadVersion = .ok parsed.payloadVersion
  voucher : parsed.voucher = keptVoucher config request.lifetimePoUDVoucher
  dotns : Option.Rel (Dotns.Accepts config now) request.dotns parsed.dotns

theorem checkCandidate_eq_ok {id : String} {account : Account} :
    checkCandidate ext id = .ok account ↔ ext.accountFromStr id = some account := by
  unfold checkCandidate
  split <;> simp_all

theorem dotns_accepts_iff {dotns : Option Dotns} {parsed : Option ParsedDotns} :
    dotnsParsed dotns = some parsed ∧ dotnsErrors config now dotns = [] ↔
      Option.Rel (Dotns.Accepts config now) dotns parsed := by
  cases dotns with
  | none =>
    cases parsed with
    | none => simp [dotnsParsed, dotnsErrors]
    | some p => simp only [dotnsParsed, dotnsErrors]; constructor <;> rintro ⟨⟩; simp_all
  | some d =>
    cases parsed with
    | none => simp only [dotnsParsed, dotnsErrors]; constructor <;> rintro ⟨⟩; simp_all
    | some p =>
      constructor
      · rintro ⟨hp, he⟩
        exact .some (Dotns.accepts_iff.mp ⟨by simpa [dotnsParsed] using hp, he⟩)
      · rintro (h | _)
        obtain ⟨hp, he⟩ := Dotns.accepts_iff.mpr h
        exact ⟨by simp [dotnsParsed, hp], he⟩

/-- A request is accepted exactly if every field passes its own rule and the signature verifies. -/
theorem validate_eq_ok :
    request.validate ext config form now = .ok parsed ↔
      request.Accepts ext config form now parsed := by
  rw [validate_cases]
  constructor
  · rintro ⟨hp, hown, hsig⟩
    obtain ⟨account, hc, hp⟩ := Option.bind_eq_some_iff.mp hp
    obtain ⟨name, hn, hp⟩ := Option.bind_eq_some_iff.mp hp
    obtain ⟨digits, hd, hp⟩ := Option.bind_eq_some_iff.mp hp
    obtain ⟨signature, hs, hp⟩ := Option.bind_eq_some_iff.mp hp
    obtain ⟨ring, hr, hp⟩ := Option.bind_eq_some_iff.mp hp
    obtain ⟨proof, hpr, hp⟩ := Option.bind_eq_some_iff.mp hp
    obtain ⟨consumer, hcs, hp⟩ := Option.bind_eq_some_iff.mp hp
    obtain ⟨key, hk, hp⟩ := Option.bind_eq_some_iff.mp hp
    obtain ⟨version, hv, hp⟩ := Option.bind_eq_some_iff.mp hp
    obtain ⟨dotns, hdot, hp⟩ := Option.bind_eq_some_iff.mp hp
    cases hp
    have hverify : verifyCandidateSignature ext version account signature.1 ring form = true := by
      simpa [ownSignatureErrors, signatureErrors, signatureHolds, hc, hs, hr, hv] using hsig
    rw [toOption_eq_some] at hc hn hs hr hpr hcs hk hv
    exact {
      candidate := ⟨account, checkCandidate_eq_ok.mp hc, hverify⟩
      account := rfl
      username := ⟨name, hn, rfl⟩
      digits := ⟨digits, passed_eq_some.mp hd, rfl⟩
      signature := ⟨signature, hs, rfl⟩
      ring := hr
      proof := ⟨proof, hpr, rfl⟩
      consumer := ⟨consumer, hcs, rfl⟩
      identifier := ⟨key, hk, rfl⟩
      version := hv
      voucher := rfl
      dotns := dotns_accepts_iff.mp ⟨hdot, (List.append_eq_nil_iff.mp hown).2⟩ }
  · obtain ⟨id, user, pref, sig, ring, pr, cs, key, version, voucher, dotns⟩ := parsed
    rintro ⟨⟨account, hacc, hverify⟩, rfl, ⟨name, hn, rfl⟩, ⟨digits, hd, rfl⟩, ⟨signature, hs, rfl⟩,
      hr, ⟨proof, hpr, rfl⟩, ⟨consumer, hcs, rfl⟩, ⟨identifier, hk, rfl⟩, hv, rfl, hdot⟩
    obtain ⟨hparsed, herrors⟩ := dotns_accepts_iff.mpr hdot
    have hc := checkCandidate_eq_ok.mpr hacc
    have hpass := passed_eq_some.mpr hd
    have hquiet : errorsOptional "preferredDigits"
        (request.preferredDigits.map PreferredDigits.tryFrom) = [] := by
      rw [hd]
      cases digits <;> rfl
    refine ⟨?_, ?_, ?_⟩
    · simp only [parsed?, hc, hn, hpass, hs, hr, hpr, hcs, hk, hv, hparsed]
      rfl
    · simp only [ownErrors, hc, hn, hquiet, hs, hr, hpr, hcs, hk, hv, herrors]
      rfl
    · simpa [ownSignatureErrors, signatureErrors, signatureHolds, hc, hs, hr, hv, Except.toOption]
        using hverify

end RegisterRequest

/-- A body is accepted exactly if it can be read as a request that is. -/
theorem validateRegister_eq_ok {ext : Ext} {describe : SerdeError → String}
    {config : IntakeConfig} {form : AccountSignatureForm} {now : Int} {body : Json}
    {parsed : ParsedRegister} :
    validateRegister ext describe config form now body = .ok parsed ↔
      ∃ request, RegisterRequest.decode describe body = .ok request ∧
        request.Accepts ext config form now parsed := by
  unfold validateRegister
  cases hdecode : RegisterRequest.decode describe body with
  | error e => simp [Except.mapError, bind, Except.bind]
  | ok request =>
    simp only [Except.mapError, bind, Except.bind]
    cases hv : request.validate ext config form now with
    | error report =>
      simp only [reduceCtorEq, Except.ok.injEq, exists_eq_left', false_iff]
      intro h
      rw [RegisterRequest.validate_eq_ok.mpr h] at hv
      cases hv
    | ok p =>
      simp only [Except.ok.injEq, exists_eq_left']
      rw [← RegisterRequest.validate_eq_ok, hv, Except.ok.injEq]

/-- A body that is not accepted is reported as such. -/
theorem validateRegister_error {ext : Ext} {describe : SerdeError → String} {config : IntakeConfig}
    {form : AccountSignatureForm} {now : Int} {body : Json} {e : UsernamesError}
    (h : validateRegister ext describe config form now body = .error e) :
    ∃ errors, e = .invalidBody errors := by
  unfold validateRegister at h
  cases hdecode : RegisterRequest.decode describe body with
  | error err =>
    rw [hdecode] at h
    cases h
    exact ⟨_, rfl⟩
  | ok request =>
    rw [hdecode] at h
    change (request.validate ext config form now).mapError .invalidBody = .error e at h
    cases hvalidate : request.validate ext config form now with
    | error report =>
      rw [hvalidate] at h
      cases h
      exact ⟨_, rfl⟩
    | ok parsed =>
      rw [hvalidate] at h
      cases h

end DeviceUniqueness
