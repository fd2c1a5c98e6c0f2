import DeviceUniqueness.Intake.Validate

/-! The rule of each field of a registration request, and what is reported of a request.

    A field's rule looks at that field alone (`RegisterRequest.passes`). The report names exactly the
    fields that fail their own rule; only of a request in which none does is the signature checked,
    and then it is the one thing the report can name. -/

namespace DeviceUniqueness

open Report

/-! ### The rules -/

/-- The fields a request is checked by. -/
inductive Field where
  | candidateAccountId
  | username
  | preferredDigits
  | candidateSignature
  | ringVrfKey
  | proofOfOwnership
  | consumerRegistrationSignature
  | identifierKey
  | payloadVersion
  | dotnsSignature
  | dotnsSignedAt
  | dotnsReservedUsername
  deriving DecidableEq

def Field.path : Field → String
  | .candidateAccountId => "candidateAccountId"
  | .username => "username"
  | .preferredDigits => "preferredDigits"
  | .candidateSignature => "candidateSignature"
  | .ringVrfKey => "ringVrfKey"
  | .proofOfOwnership => "proofOfOwnership"
  | .consumerRegistrationSignature => "consumerRegistrationSignature"
  | .identifierKey => "identifierKey"
  | .payloadVersion => "payloadVersion"
  | .dotnsSignature => "dotns.signature"
  | .dotnsSignedAt => "dotns.signedAt"
  | .dotnsReservedUsername => "dotns.reservedUsername"

/-- `0x` and the digits of `n` bytes. -/
def isHex (n : Nat) (value : String) : Bool :=
  (strip0x (utf8 value)).any fun digits => digits.length = 2 * n && digits.all isHexDigit

def isRingKey (value : String) : Bool :=
  !(ringDigits value).isEmpty && (ringDigits value).all isHexDigit

def isName (maxLen : Nat) (value : String) : Bool :=
  6 ≤ (utf8 value).length && (utf8 value).length ≤ maxLen && (utf8 value).all isAsciiLowercase

def isDiscriminator (value : String) : Bool :=
  match utf8 value with
  | [tens, ones] => isAsciiDigit tens && isAsciiDigit ones && [tens, ones] ≠ [48, 48]
  | _ => false

/-- Not negative, not in the future and not too old. -/
def isFresh (config : IntakeConfig) (now signedAt : Int) : Bool :=
  0 ≤ signedAt && signedAt ≤ now + config.dotnsMaxFutureSkewSecs &&
    now - signedAt ≤ config.dotnsIntakeFreshnessMaxAgeSecs

/-- Whether a field passes its own rule. -/
def RegisterRequest.passes (ext : Ext) (config : IntakeConfig) (now : Int)
    (request : RegisterRequest) : Field → Bool
  | .candidateAccountId => (ext.accountFromStr request.candidateAccountId).isSome
  | .username => isName maxBaseLen request.username
  | .preferredDigits => request.preferredDigits.all isDiscriminator
  | .candidateSignature => isHex 64 request.candidateSignature
  | .ringVrfKey => isRingKey request.ringVrfKey
  | .proofOfOwnership => isHex 64 request.proofOfOwnership
  | .consumerRegistrationSignature => isHex 64 request.consumerRegistrationSignature
  | .identifierKey => isHex 65 request.identifierKey
  | .payloadVersion => request.payloadVersion = 1
  | .dotnsSignature => request.dotns.all fun dotns => isHex 64 dotns.signature
  | .dotnsSignedAt => request.dotns.all fun dotns => isFresh config now dotns.signedAt
  | .dotnsReservedUsername => request.dotns.all fun dotns =>
      dotns.reservedUsername.all (isName maxDotnsLabelLen)

/-! ### Each check decides its rule -/

theorem isOk_hex (n : Nat) (value : String) : (Hex.tryFrom n value).isOk = isHex n value := by
  unfold Hex.tryFrom isHex
  cases hstrip : strip0x (utf8 value) with
  | none => rfl
  | some digits =>
    by_cases hlen : digits.length = 2 * n
    · have hdecoded : ((some digits).filter fun digits => digits.length = 2 * n).bind hexDecode =
          hexDecode digits := by
        rw [Option.filter_some_pos (by simpa using hlen)]
        rfl
      simp only [hdecoded]
      cases hdecode : hexDecode digits with
      | none =>
        have hnot : ¬ digits.all isHexDigit = true := by
          intro hall
          have hwidth := hexDecode_width digits (by simpa [isHexDigit] using hall)
          rw [hdecode, if_pos (by omega)] at hwidth
          cases hwidth
        simp [hnot, Except.isOk, Except.toBool]
      | some bytes =>
        have hdigits := isSome_hexValue hdecode
        have hwidth := hexDecode_width digits hdigits
        rw [hdecode, if_pos (by omega), Option.map_some, Option.some.injEq] at hwidth
        have hn : bytes.length = n := by omega
        have hall : digits.all isHexDigit = true := by simpa [isHexDigit] using hdigits
        simp [hlen, hn, hall, Except.isOk, Except.toBool]
    · have hdecoded : ((some digits).filter fun digits => digits.length = 2 * n).bind hexDecode =
          none := by
        rw [Option.filter_some_neg (by simpa using hlen)]
        rfl
      simp [hdecoded, hlen, Except.isOk, Except.toBool]

theorem isOk_ringKey (value : String) : (RingVrfKey.tryFrom value).isOk = isRingKey value := by
  unfold RingVrfKey.tryFrom isRingKey
  change Except.isOk (if ((ringDigits value).isEmpty || !(ringDigits value).all isHexDigit) = true
    then _ else _) = _
  cases (ringDigits value).isEmpty <;> cases (ringDigits value).all isHexDigit <;> rfl

theorem isOk_bounded (value : String) (maxLen : Nat) (tooLong : String) :
    (BaseName.bounded value maxLen tooLong).isOk = isName maxLen value := by
  unfold BaseName.bounded BaseName.tryFrom isName
  by_cases hbase : 6 ≤ (utf8 value).length ∧ (utf8 value).all isAsciiLowercase = true
  · by_cases hlen : maxLen < (utf8 value).length
    · simp [hbase, hlen, bind, Except.bind, Except.isOk, Except.toBool]
    · simp [hbase, hlen, bind, Except.bind, Except.isOk, Except.toBool, pure, Except.pure]
      omega
  · have hnot : ¬ (6 ≤ (utf8 value).length ∧ (utf8 value).length ≤ maxLen ∧
        (utf8 value).all isAsciiLowercase = true) := fun h => hbase ⟨h.1, h.2.2⟩
    rw [dif_neg hbase]
    simpa [bind, Except.bind, Except.isOk, Except.toBool] using hnot

theorem isOk_digits (value : String) :
    (PreferredDigits.tryFrom value).isOk = isDiscriminator value := by
  unfold PreferredDigits.tryFrom isDiscriminator
  rcases utf8 value with _ | ⟨tens, _ | ⟨ones, _ | ⟨_, _⟩⟩⟩
  · rfl
  · rfl
  · simp only
    split
    · next hdigits => simpa [Except.isOk, Except.toBool, and_assoc, imp_iff_not_or] using hdigits
    · next hdigits => simpa [Except.isOk, Except.toBool, and_assoc] using hdigits
  · rfl

theorem all_digits (value : Option String) :
    (value.map PreferredDigits.tryFrom).all Except.isOk = value.all isDiscriminator := by
  cases value with
  | none => rfl
  | some digits => exact isOk_digits digits

theorem all_reserved (value : Option String) :
    (value.map Dotns.checkReserved).all Except.isOk = value.all (isName maxDotnsLabelLen) := by
  cases value with
  | none => rfl
  | some name => exact isOk_bounded ..

theorem isOk_version (version : Nat) :
    (PayloadVersion.tryFrom version).isOk = decide (version = 1) := by
  unfold PayloadVersion.tryFrom
  split <;> simp_all [Except.isOk, Except.toBool]

theorem isOk_candidate (ext : Ext) (id : String) :
    (RegisterRequest.checkCandidate ext id).isOk = (ext.accountFromStr id).isSome := by
  unfold RegisterRequest.checkCandidate
  split <;> simp_all [Except.isOk, Except.toBool]

/-! ### What is reported -/

namespace Report

variable {α : Type} {path field : String}

/-- The fields a report names. -/
def fields (report : Report) : List String := report.map FieldError.field

theorem fields_append (r r' : Report) : fields (r ++ r') = fields r ++ fields r' :=
  List.map_append ..

theorem mem_fields_errors {checked : Except String α} :
    path ∈ fields (errors field checked) ↔ field = path ∧ checked.isOk = false := by
  cases checked <;> simp [fields, errors, Except.isOk, Except.toBool, eq_comm]

theorem mem_fields_errorsOptional {checked : Option (Except String α)} :
    path ∈ fields (errorsOptional field checked) ↔
      field = path ∧ checked.all Except.isOk = false := by
  cases checked with
  | none => simp [errorsOptional, fields]
  | some checked => exact mem_fields_errors

end Report

namespace Dotns

variable {config : IntakeConfig} {now signedAt : Int} {dotns : Dotns} {path : String}

theorem mem_fields_ageErrors :
    path ∈ fields (ageErrors config now (some signedAt)) ↔
      "dotns.signedAt" = path ∧ ageErrors config now (some signedAt) ≠ [] := by
  simp only [ageErrors, flagAge]
  split_ifs <;> simp [fields] <;> exact eq_comm

/-- Two checks share the time: the second is made of what passes the first. -/
theorem mem_fields_signedAt :
    path ∈ fields (errors "dotns.signedAt" (checkSignedAt signedAt)) ∨
        path ∈ fields (ageErrors config now (checkSignedAt signedAt).toOption) ↔
      "dotns.signedAt" = path ∧ isFresh config now signedAt = false := by
  rw [mem_fields_errors]
  by_cases hneg : signedAt < 0
  · have hcheck : checkSignedAt signedAt = .error "must be greater than or equal to 0" := if_pos hneg
    have hstale : isFresh config now signedAt = false := by simp [isFresh, Int.not_le.mpr hneg]
    have hnone : ageErrors config now none = [] := rfl
    simp [hcheck, hstale, hnone, Except.isOk, Except.toBool, Except.toOption, fields]
  · have hcheck : checkSignedAt signedAt = .ok signedAt := if_neg hneg
    have hfresh : isFresh config now signedAt = true ↔
        ageErrors config now (some signedAt) = [] := by
      simp [isFresh, ageErrors_eq_nil, Int.not_lt.mp hneg]
    rw [hcheck, Except.toOption, mem_fields_ageErrors, ne_eq, ← hfresh]
    simp [Except.isOk, Except.toBool]

theorem mem_fields_ownErrors :
    path ∈ fields (dotns.ownErrors config now) ↔
      "dotns.signature" = path ∧ isHex 64 dotns.signature = false ∨
        "dotns.signedAt" = path ∧ isFresh config now dotns.signedAt = false ∨
        "dotns.reservedUsername" = path ∧
          dotns.reservedUsername.all (isName maxDotnsLabelLen) = false := by
  rw [ownErrors, fields_append, fields_append, fields_append]
  simp only [List.mem_append, or_assoc]
  rw [mem_fields_errorsOptional, all_reserved, ← mem_fields_signedAt, mem_fields_errors, isOk_hex]
  tauto

end Dotns

/-- A property of some field, one field after the other. -/
theorem Field.exists_iff {P : Field → Prop} : (∃ field, P field) ↔
    P .candidateAccountId ∨ P .username ∨ P .preferredDigits ∨ P .candidateSignature ∨
      P .ringVrfKey ∨ P .proofOfOwnership ∨ P .consumerRegistrationSignature ∨ P .identifierKey ∨
      P .payloadVersion ∨ P .dotnsSignature ∨ P .dotnsSignedAt ∨ P .dotnsReservedUsername := by
  constructor
  · rintro ⟨field, h⟩
    cases field <;> simp [h]
  · rintro (h | h | h | h | h | h | h | h | h | h | h | h) <;> exact ⟨_, h⟩

namespace RegisterRequest

variable {ext : Ext} {config : IntakeConfig} {form : AccountSignatureForm} {now : Int}
  {request : RegisterRequest}

/-- The rules report the fields that fail them. -/
theorem mem_fields_ownErrors {path : String} :
    path ∈ fields (request.ownErrors ext config now) ↔
      ∃ field : Field, field.path = path ∧ request.passes ext config now field = false := by
  have hdotns : path ∈ fields (dotnsErrors config now request.dotns) ↔
      "dotns.signature" = path ∧ request.passes ext config now .dotnsSignature = false ∨
        "dotns.signedAt" = path ∧ request.passes ext config now .dotnsSignedAt = false ∨
        "dotns.reservedUsername" = path ∧
          request.passes ext config now .dotnsReservedUsername = false := by
    unfold passes
    cases request.dotns with
    | none => simp [dotnsErrors, fields]
    | some dotns => exact Dotns.mem_fields_ownErrors
  rw [Field.exists_iff, ownErrors]
  simp only [fields_append, List.mem_append, mem_fields_errors, mem_fields_errorsOptional, all_digits,
    hdotns, isOk_candidate, isOk_hex, isOk_ringKey, isOk_version, or_assoc]
  rw [checkUsername, isOk_bounded]
  rfl

/-- The candidate's signature verifies, of what can be read of the request. -/
def verifies (ext : Ext) (form : AccountSignatureForm) (request : RegisterRequest) : Bool :=
  match ext.accountFromStr request.candidateAccountId, Hex.tryFrom 64 request.candidateSignature,
    RingVrfKey.tryFrom request.ringVrfKey with
  | some candidate, .ok signature, .ok ring =>
      verifyAccountSignature ext signature.1 (candidateMessage candidate ring) candidate form
  | _, _, _ => false

theorem ownErrors_eq_nil : request.ownErrors ext config now = [] ↔
    ∀ field, request.passes ext config now field = true := by
  rw [← List.map_eq_nil_iff (f := FieldError.field), List.eq_nil_iff_forall_not_mem]
  constructor
  · intro h field
    rw [← Bool.not_eq_false]
    exact fun hfails => h field.path (mem_fields_ownErrors.mpr ⟨field, rfl, hfails⟩)
  · intro h path hpath
    obtain ⟨field, -, hfails⟩ := mem_fields_ownErrors.mp hpath
    exact absurd (h field) (by simp [hfails])

theorem eq_ok_of_isOk {α : Type} {checked : Except String α} (h : checked.isOk = true) :
    ∃ x, checked = .ok x := by
  cases checked with
  | error => cases h
  | ok x => exact ⟨x, rfl⟩

theorem passed_of_all {α : Type} {checked : Option (Except String α)}
    (h : checked.all Except.isOk = true) : ∃ x, passed checked = some x := by
  cases checked with
  | none => exact ⟨none, rfl⟩
  | some checked =>
    obtain ⟨x, rfl⟩ := eq_ok_of_isOk h
    exact ⟨some x, rfl⟩

theorem dotnsParsed_of_passes (hsignature : request.passes ext config now .dotnsSignature = true)
    (hsignedAt : request.passes ext config now .dotnsSignedAt = true)
    (hreserved : request.passes ext config now .dotnsReservedUsername = true) :
    ∃ parsed, dotnsParsed request.dotns = some parsed := by
  unfold passes at hsignature hsignedAt hreserved
  cases hdotns : request.dotns with
  | none => exact ⟨none, rfl⟩
  | some dotns =>
    simp only [hdotns, Option.all_some] at hsignature hsignedAt hreserved
    obtain ⟨signature, hs⟩ := eq_ok_of_isOk ((isOk_hex ..).trans hsignature)
    obtain ⟨reserved, hr⟩ := passed_of_all ((all_reserved _).trans hreserved)
    have hpos : 0 ≤ dotns.signedAt := by
      simp only [isFresh, Bool.and_eq_true, decide_eq_true_eq] at hsignedAt
      exact hsignedAt.1.1
    have ht := Dotns.checkSignedAt_eq_ok.mpr ⟨hpos, rfl⟩
    rw [dotnsParsed, Dotns.parsed, hs, hr, ht]
    exact ⟨_, rfl⟩

/-- Where every field passes its rule, it is the signature that decides. -/
theorem validate_of_passes (h : ∀ field, request.passes ext config now field = true) :
    ∃ parsed, request.validate ext config form now =
      if request.verifies ext form then .ok parsed
      else .error [⟨msgInvalidSignature, "candidateSignature"⟩] := by
  obtain ⟨candidate, hcandidate⟩ := Option.isSome_iff_exists.mp (h .candidateAccountId)
  obtain ⟨name, hname⟩ := eq_ok_of_isOk ((isOk_bounded ..).trans (h .username))
  obtain ⟨digits, hdigits⟩ := passed_of_all ((all_digits _).trans (h .preferredDigits))
  obtain ⟨signature, hsignature⟩ := eq_ok_of_isOk ((isOk_hex ..).trans (h .candidateSignature))
  obtain ⟨ring, hring⟩ := eq_ok_of_isOk ((isOk_ringKey _).trans (h .ringVrfKey))
  obtain ⟨proof, hproof⟩ := eq_ok_of_isOk ((isOk_hex ..).trans (h .proofOfOwnership))
  obtain ⟨consumer, hconsumer⟩ :=
    eq_ok_of_isOk ((isOk_hex ..).trans (h .consumerRegistrationSignature))
  obtain ⟨key, hkey⟩ := eq_ok_of_isOk ((isOk_hex ..).trans (h .identifierKey))
  obtain ⟨version, hversion⟩ := eq_ok_of_isOk ((isOk_version _).trans (h .payloadVersion))
  obtain ⟨dotns, hdotns⟩ := dotnsParsed_of_passes (h .dotnsSignature) (h .dotnsSignedAt)
    (h .dotnsReservedUsername)
  obtain ⟨parsed, hparsed⟩ : ∃ parsed, request.parsed? ext config = some parsed := by
    rw [parsed?, checkCandidate_eq_ok.mpr hcandidate, checkUsername, hname, hdigits, hsignature, hring,
      hproof, hconsumer, hkey, hversion, hdotns]
    exact ⟨_, rfl⟩
  have herrors : request.ownSignatureErrors ext form [] =
      if request.verifies ext form then []
      else [⟨msgInvalidSignature, "candidateSignature"⟩] := by
    rw [ownSignatureErrors, checkCandidate_eq_ok.mpr hcandidate, verifies, hcandidate, hsignature,
      hring, hversion]
    cases version
    cases hverify : verifyAccountSignature ext signature.1 (candidateMessage candidate ring) candidate
      form <;> simp [signatureErrors, signatureHolds, verifyCandidateSignature, Except.toOption, hverify]
  refine ⟨parsed, ?_⟩
  rw [validate, checks_run, hparsed, ownErrors_eq_nil.mpr h, herrors]
  cases request.verifies ext form <;> rfl

/-- Where some field fails its rule, the report is that of the rules. -/
theorem validate_of_fails (h : ∃ field, request.passes ext config now field = false) :
    request.validate ext config form now = .error (request.ownErrors ext config now) ∧
      request.ownErrors ext config now ≠ [] := by
  have hne : request.ownErrors ext config now ≠ [] := by
    obtain ⟨field, hfails⟩ := h
    exact fun hnil => absurd (ownErrors_eq_nil.mp hnil field) (by simp [hfails])
  refine ⟨?_, hne⟩
  obtain ⟨e, es, hcons⟩ := List.exists_cons_of_ne_nil hne
  have hquiet : request.ownSignatureErrors ext form (e :: es) = [] := rfl
  rw [validate, checks_run, hcons, hquiet, List.append_nil]
  cases request.parsed? ext config <;> rfl

end RegisterRequest

/-- A request is accepted exactly if every field passes its own rule and the signature verifies, over
    what is returned; and a report names every field that fails its rule and no other, or the
    signature alone. -/
theorem validation_sound_and_complete (ext : Ext) (config : IntakeConfig)
    (form : AccountSignatureForm) (now : Int) (request : RegisterRequest) :
    ((∃ parsed, request.validate ext config form now = .ok parsed) ↔
      (∀ field, request.passes ext config now field = true) ∧ request.verifies ext form = true) ∧
    (∀ parsed, request.validate ext config form now = .ok parsed →
      parsed.candidateAccountId = request.candidateAccountId ∧
      ∃ candidate, ext.accountFromStr parsed.candidateAccountId = some candidate ∧
        verifyAccountSignature ext parsed.candidateSignature
          (candidateMessage candidate parsed.ringVrfKey) candidate form = true) ∧
    ∀ report, request.validate ext config form now = .error report → report ≠ [] ∧
      ((∃ field, request.passes ext config now field = false) → ∀ path,
        path ∈ fields report ↔
          ∃ field : Field, field.path = path ∧ request.passes ext config now field = false) ∧
      ((∀ field, request.passes ext config now field = true) →
        fields report = ["candidateSignature"] ∧ request.verifies ext form = false) := by
  have hsome : (∀ field, request.passes ext config now field = true) ∨
      ∃ field, request.passes ext config now field = false := by
    rw [← not_forall_not, or_iff_not_imp_right, not_not]
    simp
  refine ⟨?_, fun parsed hok => ?_, fun report herror => ?_⟩
  · rcases hsome with hall | hfails
    · obtain ⟨parsed, hvalidate⟩ := RegisterRequest.validate_of_passes hall
      rw [hvalidate]
      cases request.verifies ext form <;> simp [hall]
    · obtain ⟨hvalidate, -⟩ := RegisterRequest.validate_of_fails hfails
      obtain ⟨field, hfails⟩ := hfails
      rw [hvalidate]
      exact ⟨nofun, fun ⟨hall, _⟩ => absurd (hall field) (by simp [hfails])⟩
  · obtain ⟨⟨candidate, hcandidate, hverify⟩, haccount, -⟩ := RegisterRequest.validate_eq_ok.mp hok
    refine ⟨haccount, candidate, haccount ▸ hcandidate, ?_⟩
    cases hversion : parsed.payloadVersion
    rwa [hversion] at hverify
  · rcases hsome with hall | hfails
    · obtain ⟨parsed, hvalidate⟩ := RegisterRequest.validate_of_passes hall
      rw [hvalidate] at herror
      cases hverify : request.verifies ext form with
      | true => simp [hverify] at herror
      | false =>
        simp only [hverify] at herror
        cases herror
        exact ⟨nofun, fun ⟨field, hfails⟩ => absurd (hall field) (by simp [hfails]),
          fun _ => ⟨rfl, rfl⟩⟩
    · obtain ⟨hvalidate, hne⟩ := RegisterRequest.validate_of_fails hfails
      rw [hvalidate] at herror
      cases herror
      refine ⟨hne, fun _ path => RegisterRequest.mem_fields_ownErrors, fun hall => ?_⟩
      obtain ⟨field, hfails⟩ := hfails
      exact absurd (hall field) (by simp [hfails])

end DeviceUniqueness
