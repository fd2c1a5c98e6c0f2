import DeviceUniqueness.Chain.Calls
import DeviceUniqueness.Intake.Validate
import DeviceUniqueness.Writer.Gates

/-! From an accepted request to the row the writer finds.

    Intake and writer check a claim separately, with their own constants and their own helpers, and
    between the two lie the choice of a discriminator, the formatting of the full username and the
    table. -/

namespace DeviceUniqueness

/-! ### Discriminators -/

/-- The free discriminators of a base: `00` is never offered. -/
def availableDigits (taken : List Nat) : List Nat :=
  (List.range' 1 99).filter fun d => d ∉ taken

/-- `format!("{digit:02}")`. -/
def twoDigits (digit : Nat) : String :=
  if digit < 10 then "0" ++ toString digit else toString digit

/-- The preferred discriminator if it is free, else a random free one; `rng` is what the random
    number generator answers. -/
def selectDigit (taken : List Nat) (preferred : Option Nat) (base : String) (rng : Nat) :
    Except UsernamesError Nat :=
  match preferred with
  | some d => if d ∈ taken then .error (.preferredDigitsTaken (twoDigits d) base) else .ok d
  | none =>
      let available := availableDigits taken
      match available[rng % available.length]? with
      | some d => .ok d
      | none => .error (.noDigitsAvailable base)

def fullUsername (base : String) (digit : Nat) : String := base ++ "." ++ twoDigits digit

/-- `subject` is the account the request is authenticated as. -/
def buildReservation (subject : String) (parsed : ParsedRegister) (digits fullUsername : String) :
    NewReservation where
  accountId := subject
  candidateAccountId := parsed.candidateAccountId
  base := parsed.username
  digits := digits
  fullUsername := fullUsername
  candidateSignature := parsed.candidateSignature
  ringVrfKey := parsed.ringVrfKey
  proofOfOwnership := parsed.proofOfOwnership
  consumerRegistrationSignature := parsed.consumerRegistrationSignature
  identifierKey := parsed.identifierKey
  dotnsSignature := parsed.dotns.map ParsedDotns.signature
  dotnsSignedAt := parsed.dotns.map ParsedDotns.signedAt
  reservedUsername := parsed.dotns.bind ParsedDotns.reservedUsername
  payloadVersion := parsed.payloadVersion.toNat

theorem selectDigit_range {taken : List Nat} {preferred : Option Nat} {base : String}
    {rng digit : Nat} (hp : ∀ d ∈ preferred, 1 ≤ d ∧ d ≤ 99)
    (h : selectDigit taken preferred base rng = .ok digit) : 1 ≤ digit ∧ digit ≤ 99 := by
  cases preferred with
  | some d =>
    simp only [selectDigit] at h
    split at h
    · cases h
    · exact Except.ok.inj h ▸ hp d rfl
  | none =>
    simp only [selectDigit] at h
    split at h
    · next d hd =>
      have hmem := List.mem_of_getElem? hd
      simp only [availableDigits, List.mem_filter, List.mem_range'_1] at hmem
      have heq := Except.ok.inj h
      omega
    · cases h

theorem twoDigits_size {digit : Nat} (h : digit ≤ 99) : (twoDigits digit).utf8ByteSize = 2 := by
  have hall : ∀ d < 100, (twoDigits d).utf8ByteSize = 2 := by decide +kernel
  exact hall digit (by omega)

/-! ### Claims as they are stored -/

/-- A row with what it came from: a body that was accepted and a discriminator that was chosen. The
    row's bookkeeping is arbitrary. -/
structure StoredClaim (ext : Ext) where
  describe : SerdeError → String
  config : IntakeConfig
  form : AccountSignatureForm
  now : Int
  body : Json
  request : RegisterRequest
  parsed : ParsedRegister
  taken : List Nat
  rng : Nat
  digit : Nat
  subject : String
  row : Row
  decoded : RegisterRequest.decode describe body = .ok request
  accepted : validateRegister ext describe config form now body = .ok parsed
  chosen : selectDigit taken parsed.preferredDigits parsed.username rng = .ok digit
  stored : row.intake =
    buildReservation subject parsed (twoDigits digit) (fullUsername parsed.username digit)

namespace StoredClaim

variable {ext : Ext} (c : StoredClaim ext)

/-- The row as the writer reads it. -/
def reservation : Reservation := rowToReservation c.row

theorem accepts : c.request.Accepts ext c.config c.form c.now c.parsed := by
  obtain ⟨request, hdecoded, haccepts⟩ := validateRegister_eq_ok.mp c.accepted
  rw [c.decoded] at hdecoded
  exact Except.ok.inj hdecoded ▸ haccepts

theorem digit_range : 1 ≤ c.digit ∧ c.digit ≤ 99 := by
  obtain ⟨d, -, hparsed⟩ := c.accepts.digits
  refine selectDigit_range ?_ c.chosen
  rw [hparsed]
  rintro _ hd
  obtain ⟨p, -, rfl⟩ := Option.map_eq_some_iff.mp hd
  exact p.inPool

end StoredClaim

/-! ### Widths -/

theorem bounded_eq_ok {value tooLong : String} {maxLen : Nat} {name : BaseName}
    (h : BaseName.bounded value maxLen tooLong = .ok name) :
    name.name = value ∧ (utf8 name.name).length ≤ maxLen := by
  unfold BaseName.bounded BaseName.tryFrom at h
  split at h
  · simp only [bind, Except.bind, pure, Except.pure] at h
    split at h
    · cases h
    · next hlen => exact Except.ok.inj h ▸ ⟨rfl, Nat.le_of_not_lt hlen⟩
  · cases h

theorem ringKey_width {value : String} {key : Bytes} (h : RingVrfKey.tryFrom value = .ok key) :
    key.length = 32 ↔ (ringDigits value).length = 64 := by
  simp only [RingVrfKey.tryFrom] at h
  split at h
  · cases h
  · next hdigits =>
    simp only [Bool.or_eq_true, Bool.not_eq_true', not_or, Bool.not_eq_false, List.all_eq_true]
      at hdigits
    have hwidth := hexDecode_width (ringDigits value) hdigits.2
    rw [← Except.ok.inj h]
    by_cases heven : (ringDigits value).length % 2 = 0
    · rw [if_pos heven] at hwidth
      obtain ⟨bytes, hbytes, hlen⟩ := Option.map_eq_some_iff.mp hwidth
      rw [hbytes, Option.getD_some]
      omega
    · rw [if_neg heven, Option.map_eq_none_iff] at hwidth
      rw [hwidth, Option.getD_none, List.length_nil]
      omega

/-- The arguments have the widths the runtime's `attest` declares: byte arrays of exactly so many
    bytes, and the two names bounded. -/
def fitsAttest : List Value → Bool
  | [.bytes candidate, .variant _ [.bytes candidateSignature], .bytes ringVrfKey,
      .bytes proofOfOwnership, .variant _ [.named [(_, .variant _ [.bytes consumerSignature]),
        (_, .bytes account), (_, .bytes identifierKey), (_, .bytes username), (_, reserved)]]] =>
      candidate.length = 32 && candidateSignature.length = 64 && ringVrfKey.length = 32 &&
        proofOfOwnership.length = 64 && consumerSignature.length = 64 && account.length = 32 &&
        identifierKey.length = 65 && username.length ≤ 32 && fitsReserved reserved
  | _ => false
where
  fitsReserved : Value → Bool
    | .variant _ [.bytes label] => label.length ≤ 32
    | .variant _ [] => true
    | _ => false

/-- A batch can be signed only as a whole. -/
def batchFits (rows : List (Reservation × Account)) : Bool :=
  rows.all fun row => fitsAttest (attestArgs row.1 row.2)

namespace StoredClaim

variable {ext : Ext} (c : StoredClaim ext)

theorem username_width : (utf8 c.parsed.username).length ≤ 29 := by
  obtain ⟨name, hname, heq⟩ := c.accepts.username
  rw [heq]
  exact (bounded_eq_ok hname).2

theorem fullUsername_width :
    (fullUsername c.parsed.username c.digit).utf8ByteSize =
      (utf8 c.parsed.username).length + 3 := by
  rw [fullUsername, String.utf8ByteSize_append, String.utf8ByteSize_append,
    twoDigits_size c.digit_range.2]
  rfl

theorem dotns_of_parsed {p : ParsedDotns} (hp : c.parsed.dotns = some p) :
    ∃ d, c.request.dotns = some d ∧ d.Accepts c.config c.now p := by
  have h := c.accepts.dotns
  rw [hp] at h
  generalize c.request.dotns = d at h ⊢
  cases h with
  | some h => exact ⟨_, rfl, h⟩

theorem dotns_of_request {d : Dotns} (hd : c.request.dotns = some d) :
    ∃ p, c.parsed.dotns = some p ∧ d.Accepts c.config c.now p := by
  have h := c.accepts.dotns
  rw [hd] at h
  generalize c.parsed.dotns = p at h ⊢
  cases h with
  | some h => exact ⟨_, rfl, h⟩

theorem reserved_width {label : String} (h : c.reservation.reservedUsername = some label) :
    (utf8 label).length ≤ 32 := by
  simp only [reservation, rowToReservation, c.stored, buildReservation] at h
  obtain ⟨p, hp, hlabel⟩ := Option.bind_eq_some_iff.mp h
  obtain ⟨d, -, haccepts⟩ := c.dotns_of_parsed hp
  obtain ⟨name, hname, hparsed⟩ := haccepts.reserved
  rw [hlabel] at hparsed
  obtain ⟨base, rfl, rfl⟩ := Option.map_eq_some_iff.mp hparsed.symm
  obtain ⟨value, -, hok⟩ := Option.map_eq_some_iff.mp hname
  exact (bounded_eq_ok hok).2

/-- The one argument intake does not bring to its width is the ring key. -/
theorem fits_iff (candidate : Account) :
    fitsAttest (attestArgs c.reservation candidate) = true ↔
      (ringDigits c.request.ringVrfKey).length = 64 := by
  obtain ⟨signature, -, hsignature⟩ := c.accepts.signature
  obtain ⟨proof, -, hproof⟩ := c.accepts.proof
  obtain ⟨consumer, -, hconsumer⟩ := c.accepts.consumer
  obtain ⟨key, -, hkey⟩ := c.accepts.identifier
  have husername : (utf8 (fullUsername c.parsed.username c.digit)).length ≤ 32 := by
    have h := c.fullUsername_width
    have hbase := c.username_width
    rw [utf8]
    change (fullUsername c.parsed.username c.digit).utf8ByteSize ≤ 32
    omega
  have hreserved : fitsAttest.fitsReserved (reservedLabel c.reservation.reservedUsername) := by
    cases h : c.reservation.reservedUsername with
    | none => rfl
    | some label => simpa [reservedLabel, fitsAttest.fitsReserved] using c.reserved_width h
  rw [← ringKey_width c.accepts.ring]
  simp only [attestArgs, sr25519Signature, consumerOf, fitsAttest, hreserved]
  simp [reservation, rowToReservation, c.stored, buildReservation, hsignature, hproof, hconsumer,
    hkey, signature.2, proof.2, consumer.2, key.2, candidate.2, husername]

end StoredClaim

/-- A batch of accepted claims can be signed exactly if every one of them came with a ring key of 64
    digits: each of them alone decides over all. -/
theorem batch_fits_iff {ext : Ext} (claims : List (StoredClaim ext × Account)) :
    batchFits (claims.map fun c => (c.1.reservation, c.2)) = true ↔
      ∀ c ∈ claims, (ringDigits c.1.request.ringVrfKey).length = 64 := by
  rw [batchFits, List.all_map, List.all_eq_true]
  exact forall₂_congr fun c _ => c.1.fits_iff c.2

/-! ### The claims of `alice` -/

/-- A body of `alice` with the given digits, ring key and signature, and with a dotNS block. -/
def aliceBody (digits : String) (ringKey : Bytes) (signature : FixedBytes 64) : Json :=
  .obj [
    ("candidateAccountId", .str aliceSs58),
    ("username", .str "wonderland"),
    ("preferredDigits", .str digits),
    ("candidateSignature", .str (hexEncode signature.1)),
    ("ringVrfKey", .str (hexEncode ringKey)),
    ("proofOfOwnership", .str (hexEncode (List.replicate 64 3))),
    ("consumerRegistrationSignature", .str (hexEncode (List.replicate 64 5))),
    ("identifierKey", .str (hexEncode aliceIdentifierKey)),
    ("dotns", .obj [
      ("signature", .str (hexEncode aliceDotnsSignature.1)),
      ("signedAt", .num (.int 1760000000 (by decide))),
      ("reservedUsername", .str "wonderland")])]

def aliceRequest (digits : String) (ringKey : Bytes) (signature : FixedBytes 64) : RegisterRequest where
  candidateAccountId := aliceSs58
  username := "wonderland"
  preferredDigits := some digits
  candidateSignature := hexEncode signature.1
  ringVrfKey := hexEncode ringKey
  proofOfOwnership := hexEncode (List.replicate 64 3)
  consumerRegistrationSignature := hexEncode (List.replicate 64 5)
  identifierKey := hexEncode aliceIdentifierKey
  payloadVersion := 1
  lifetimePoUDVoucher := none
  attestationChain := none
  deviceChallenge := none
  deviceId := none
  dotns := some ⟨hexEncode aliceDotnsSignature.1, 1760000000, some "wonderland"⟩

def aliceParsed (digit : Nat) (ringKey : Bytes) (signature : FixedBytes 64) : ParsedRegister where
  candidateAccountId := aliceSs58
  username := "wonderland"
  preferredDigits := some digit
  candidateSignature := signature.1
  ringVrfKey := ringKey
  proofOfOwnership := List.replicate 64 3
  consumerRegistrationSignature := List.replicate 64 5
  identifierKey := aliceIdentifierKey
  payloadVersion := .v1
  voucher := none
  dotns := some ⟨aliceDotnsSignature.1, 1760000000, some "wonderland"⟩

theorem aliceBody_decode (digits : String) (ringKey : Bytes) (signature : FixedBytes 64) :
    RegisterRequest.decode (fun _ => "") (aliceBody digits ringKey signature) =
      .ok (aliceRequest digits ringKey signature) := by
  rfl

/-- A body of `alice` as it is stored with the digit it asks for. -/
def aliceStored (ext : Ext) (digits : String) (digit : Nat) (ringKey : Bytes)
    (signature : FixedBytes 64)
    (accepted : validateRegister ext (fun _ => "") ⟨false, 600, 600⟩ .plain 1760000100
      (aliceBody digits ringKey signature) = .ok (aliceParsed digit ringKey signature)) :
    StoredClaim ext where
  describe _ := ""
  config := ⟨false, 600, 600⟩
  form := .plain
  now := 1760000100
  body := aliceBody digits ringKey signature
  request := aliceRequest digits ringKey signature
  parsed := aliceParsed digit ringKey signature
  taken := []
  rng := 0
  digit := digit
  subject := hexEncode alice.1
  row := (Db.empty (seconds 1760000100)).newRow
    (buildReservation (hexEncode alice.1) (aliceParsed digit ringKey signature) (twoDigits digit)
      (fullUsername "wonderland" digit)) .reserved 1
  decoded := aliceBody_decode digits ringKey signature
  accepted := accepted
  chosen := rfl
  stored := rfl

/-- The signature of `alice` over a registration with the ring key `0x07`. -/
def aliceShortSignature : FixedBytes 64 :=
  ⟨[52, 19, 73, 45, 128, 126, 216, 106, 25, 12, 140, 234, 67, 66, 241, 90, 167, 111, 70, 91, 117,
    129, 142, 116, 217, 199, 65, 219, 188, 197, 244, 75, 167, 95, 55, 238, 196, 122, 85, 44, 46,
    204, 205, 180, 65, 131, 165, 56, 116, 190, 155, 133, 129, 40, 212, 9, 166, 38, 224, 217, 158,
    249, 11, 137], rfl⟩

/-- The libraries' answers with that signature among them. -/
def shortRingExt : Ext where
  accountFromStr := devExt.accountFromStr
  verify signature message signer :=
    devExt.verify signature message signer ||
      (signer = alice && signature = aliceShortSignature && message = candidateMessage alice [7])

def soundClaim : StoredClaim shortRingExt :=
  aliceStored shortRingExt "07" 7 aliceRingKey aliceSignature (by decide +kernel)

def shortClaim : StoredClaim shortRingExt :=
  aliceStored shortRingExt "08" 8 [7] aliceShortSignature (by decide +kernel)

/-- A ring key of one byte is accepted, and takes the claim beside it out of the batch. -/
theorem short_ring_key_breaks_batch :
    batchFits [(soundClaim.reservation, alice)] = true ∧
      batchFits [(soundClaim.reservation, alice), (shortClaim.reservation, alice)] = false := by
  decide +kernel

theorem batch_fits_sound :
    batchFits ([(soundClaim, alice)].map fun c => (c.1.reservation, c.2)) = true :=
  (batch_fits_iff [(soundClaim, alice)]).mpr (by decide +kernel)

end DeviceUniqueness
