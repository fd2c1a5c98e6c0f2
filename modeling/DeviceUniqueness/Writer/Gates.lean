import DeviceUniqueness.Chain.Messages
import DeviceUniqueness.Writer.Outcome

/-! The offline checks a lane runs on a claimed row before it submits anything.

    The People lane checks the candidate's signature in the form the runtime accepts at this pass.
    The dotNS lane checks, in this order, that the row carries a dotNS block, that its call can be
    built, that its signature is neither from the future nor too old, and that it verifies. -/

namespace DeviceUniqueness

/-- The gateway's bounds on the age of a reservation signature. -/
structure ValidityWindow where
  maxValiditySecs : Nat
  maxFutureSkewSecs : Nat
  deriving DecidableEq, Repr

/-- What the dotNS lane reads once per pass. -/
structure Window where
  window : ValidityWindow
  attester : Account
  signatureForm : AccountSignatureForm

/-- The lane's context for one pass. -/
@[reducible] def Lane.Ctx : Lane → Type
  | .people => AccountSignatureForm
  | .dotns => Window

/-- The only check a reconcile applies. -/
def parseCandidate (ext : Ext) (r : Reservation) : Except Gate Account :=
  match ext.accountFromStr r.candidateAccountId with
  | some account => .ok account
  | none => .error (.failed "invalid candidate SS58")

def badCandidateSignature : String := "candidate signature does not verify"

def peopleGate (ext : Ext) (r : Reservation) (form : AccountSignatureForm) : Except Gate Account :=
  match parseCandidate ext r with
  | .error gate => .error gate
  | .ok candidate =>
      if verifyCandidateSignature ext candidate r.candidateSignature r.ringVrfKey form then
        .ok candidate
      else .error (.failed badCandidateSignature)

inductive DotnsReject where
  | notInLane
  | unbuildableLabel (why : String)
  | unbuildableReserved (why : String)
  | badSignature
  | expired (signedAt : Int) (deadlineSecs : Nat)
  | futureDated (signedAt submittableAt : Int)
  deriving DecidableEq, Repr

def maxLabelBytes : Nat := 32

/-- A `u64` read as an `i64`, at most its largest value. -/
def clamp64 (n : Nat) : Int := if (n : Int) < 2 ^ 63 then n else 2 ^ 63 - 1

/-- Whether the row's labels can be put into the call. -/
def checkLabels (label : String) (reserved : Option String) : Except DotnsReject Unit :=
  if maxLabelBytes < label.utf8ByteSize then
    .error (.unbuildableLabel
      ("lite label is " ++ toString label.utf8ByteSize ++ " bytes, over BaseLabel's 32"))
  else if (liteBase label).utf8ByteSize = label.utf8ByteSize then
    .error (.unbuildableLabel "lite label has no digit suffix")
  else match reserved with
    | some reserved =>
        if maxLabelBytes < reserved.utf8ByteSize then
          .error (.unbuildableReserved
            ("reservedUsername is " ++ toString reserved.utf8ByteSize ++
              " bytes, over BaseLabel's 32"))
        else .ok ()
    | none => .ok ()

/-- Whether the signature is within the gateway's bounds at `now`. -/
def checkFreshness (signedAt : Int) (window : ValidityWindow) (now : Int) : Except DotnsReject Unit :=
  let skew := clamp64 window.maxFutureSkewSecs
  if saturate64 (now + skew) < signedAt then
    .error (.futureDated signedAt (saturate64 (signedAt - skew)))
  else if reservationExpired signedAt window.maxValiditySecs now then
    .error (.expired signedAt window.maxValiditySecs)
  else .ok ()

def checkDotnsSignature (ext : Ext) (r : Reservation) (signature : Bytes) (signedAt : Int)
    (candidate : Account) (ctx : Window) : Except DotnsReject Unit :=
  -- a negative timestamp has no `u64` to be signed
  if signedAt < 0 then .error .badSignature
  else if verifyReservationSignature ext signature candidate ctx.attester
      (utf8 (liteBase r.fullUsername)) r.identifierKey (r.reservedUsername.map utf8)
      signedAt.toNat ctx.signatureForm then .ok ()
  else .error .badSignature

def checkDotnsSubmittable (ext : Ext) (r : Reservation) (candidate : Account) (ctx : Window)
    (now : Int) : Except DotnsReject Unit :=
  match r.dotnsSignature, r.dotnsSignedAt with
  | some signature, some signedAt => do
      checkLabels r.fullUsername r.reservedUsername
      checkFreshness signedAt ctx.window now
      checkDotnsSignature ext r signature signedAt candidate ctx
  | _, _ => .error .notInLane

/-- `OffsetDateTime::from_unix_timestamp`: the years the type can hold. -/
def fromUnixTimestamp (secs : Int) : Option Time :=
  if -377705116800 ≤ secs ∧ secs ≤ 253402300799 then some (seconds secs) else none

/-- `wall` is the clock, for a timestamp that is out of the calendar's range. -/
def DotnsReject.gate (window : ValidityWindow) (now : Int) (wall : Time) : DotnsReject → Gate
  | .expired signedAt deadlineSecs =>
      .expired ("reservation signature expired: signed_at=" ++ toString signedAt ++ ", window " ++
        toString deadlineSecs ++ "s, now=" ++ toString now ++ ". Only the client can re-sign.")
  | .notInLane => .failed "row has no complete dotns block"
  | .badSignature => .failed "dotns signature does not verify"
  | .unbuildableLabel why | .unbuildableReserved why => .failed why
  | .futureDated signedAt submittableAt =>
      .notYet ((fromUnixTimestamp submittableAt).getD wall)
        ("reservation signature is future-dated: signed_at=" ++ toString signedAt ++ ", now=" ++
          toString now ++ ", gateway tolerates " ++ toString window.maxFutureSkewSecs ++
          "s of skew. Re-queued until " ++ toString submittableAt ++ ".")

/-- `OffsetDateTime::unix_timestamp`. -/
def unixTimestamp (t : Time) : Int := t.fdiv 1000000

def dotnsGate (ext : Ext) (r : Reservation) (ctx : Window) (wall : Time) : Except Gate Account :=
  match parseCandidate ext r with
  | .error gate => .error gate
  | .ok candidate =>
      match checkDotnsSubmittable ext r candidate ctx (unixTimestamp wall) with
      | .ok () => .ok candidate
      | .error reject => .error (reject.gate ctx.window (unixTimestamp wall) wall)

def Lane.gate (ext : Ext) : (l : Lane) → Reservation → l.Ctx → Time → Except Gate Account
  | .people, r, form, _ => peopleGate ext r form
  | .dotns, r, ctx, wall => dotnsGate ext r ctx wall

/-- A row that passes its lane's gate has a candidate account. -/
theorem Lane.gate_ok {ext : Ext} {l : Lane} {r : Reservation} {ctx : l.Ctx} {wall : Time}
    {candidate : Account} (h : l.gate ext r ctx wall = .ok candidate) :
    ext.accountFromStr r.candidateAccountId = some candidate := by
  have hparse : parseCandidate ext r = .ok candidate := by
    cases l with
    | people =>
      simp only [Lane.gate, peopleGate] at h
      split at h
      · cases h
      · next hp => split at h <;> simp_all
    | dotns =>
      simp only [Lane.gate, dotnsGate] at h
      split at h
      · cases h
      · next hp => split at h <;> simp_all
  unfold parseCandidate at hparse
  split at hparse
  · next ha => rw [ha, Option.some.injEq]; exact Except.ok.inj hparse
  · cases hparse

/-- A claimed row of `alice`, signed for both lanes. -/
def aliceRow : Reservation where
  id := 1
  fullUsername := "wonderland.07"
  candidateAccountId := aliceSs58
  candidateSignature := aliceSignature.1
  ringVrfKey := aliceRingKey
  proofOfOwnership := List.replicate 64 3
  consumerRegistrationSignature := List.replicate 64 5
  identifierKey := aliceIdentifierKey
  reservedUsername := some "wonderland"
  attempt := 0
  dotnsSignature := some aliceDotnsSignature.1
  dotnsSignedAt := some 1760000000
  dotnsAttempt := 0
  payloadVersion := 1
  createdAt := seconds 1760000100

example : peopleGate devExt aliceRow .plain = .ok alice := by decide

example :
    dotnsGate devExt aliceRow ⟨⟨86400, 60⟩, bob, .plain⟩ (seconds 1760000200) = .ok alice := by
  decide +kernel

/-! ### The freshness of a reservation is exact

The arithmetic stops at the ends of `i64`, and the comparisons come out as over the integers. -/

section

variable {signedAt now : Int} {n : Nat}

theorem saturate64_skew_lt (hnow : 0 ≤ now) (hsigned : signedAt < 2 ^ 63) :
    saturate64 (now + clamp64 n) < signedAt ↔ now + n < signedAt := by
  unfold saturate64 clamp64
  split <;> omega

theorem reservationExpired_iff (hsigned : -2 ^ 63 ≤ signedAt) (hnow : now < 2 ^ 63) :
    reservationExpired signedAt n now = true ↔ signedAt + n < now := by
  unfold reservationExpired saturate64
  rw [decide_eq_true_iff]
  omega

/-- A time that is ahead of the clock by more than the skew is not stopped at an end. -/
theorem saturate64_submittable (hnow : 0 ≤ now) (hsigned : signedAt < 2 ^ 63)
    (hfuture : now + n < signedAt) : saturate64 (signedAt - clamp64 n) = signedAt - n := by
  unfold saturate64 clamp64
  split <;> omega

end

section

variable {ext : Ext} {r : Reservation} {candidate : Account} {ctx : Window} {signature : Bytes}
  {signedAt now : Int}

/-- The signature is checked last, and says nothing about the time. -/
theorem checkDotnsSubmittable_eq (hsignature : r.dotnsSignature = some signature)
    (hsignedAt : r.dotnsSignedAt = some signedAt)
    (hlabels : checkLabels r.fullUsername r.reservedUsername = .ok ()) :
    checkDotnsSubmittable ext r candidate ctx now =
      (checkFreshness signedAt ctx.window now).bind fun _ =>
        checkDotnsSignature ext r signature signedAt candidate ctx := by
  rw [checkDotnsSubmittable, hsignature, hsignedAt]
  simp only [hlabels]
  rfl

theorem checkDotnsSignature_error {reject : DotnsReject}
    (h : checkDotnsSignature ext r signature signedAt candidate ctx = .error reject) :
    reject = .badSignature := by
  unfold checkDotnsSignature at h
  split at h
  · exact (Except.error.inj h).symm
  · split at h
    · cases h
    · exact (Except.error.inj h).symm

/-- The row can be put into the call, and carries a dotNS block signed at `signedAt`. -/
structure Buildable (r : Reservation) (signature : Bytes) (signedAt : Int) : Prop where
  signed : r.dotnsSignature = some signature
  dated : r.dotnsSignedAt = some signedAt
  labels : checkLabels r.fullUsername r.reservedUsername = .ok ()
  range : -2 ^ 63 ≤ signedAt ∧ signedAt < 2 ^ 63

theorem rejects_futureDated_iff (hr : Buildable r signature signedAt) (hnow : 0 ≤ now)
    {s u : Int} :
    checkDotnsSubmittable ext r candidate ctx now = .error (.futureDated s u) ↔
      now + ctx.window.maxFutureSkewSecs < signedAt ∧ s = signedAt ∧
        u = signedAt - ctx.window.maxFutureSkewSecs := by
  rw [checkDotnsSubmittable_eq hr.signed hr.dated hr.labels, checkFreshness]
  simp only [saturate64_skew_lt hnow hr.range.2]
  split
  · next hfuture =>
    simp [Except.bind, hfuture, saturate64_submittable hnow hr.range.2 hfuture, eq_comm]
  · next hfuture =>
    split
    · simp [Except.bind, hfuture]
    · simp only [Except.bind, hfuture, false_and, iff_false]
      exact fun h => nomatch checkDotnsSignature_error h

theorem rejects_expired_iff (hr : Buildable r signature signedAt) (hnow : 0 ≤ now ∧ now < 2 ^ 63)
    {s : Int} {d : Nat} :
    checkDotnsSubmittable ext r candidate ctx now = .error (.expired s d) ↔
      ¬ now + ctx.window.maxFutureSkewSecs < signedAt ∧
        signedAt + ctx.window.maxValiditySecs < now ∧ s = signedAt ∧
        d = ctx.window.maxValiditySecs := by
  rw [checkDotnsSubmittable_eq hr.signed hr.dated hr.labels, checkFreshness]
  simp only [saturate64_skew_lt hnow.1 hr.range.2, reservationExpired_iff hr.range.1 hnow.2]
  split
  · next hfuture => simp [Except.bind, hfuture]
  · next hfuture =>
    split
    · next hexpired => simp [Except.bind, hfuture, hexpired, eq_comm]
    · next hexpired =>
      simp only [Except.bind, hexpired, false_and, and_false, iff_false]
      exact fun h => nomatch checkDotnsSignature_error h

variable (ext candidate ctx now) in
/-- The gate tells future-dated and expired signatures as integer arithmetic does, and the time it
    names for a future-dated one is the first at which it is not. -/
theorem freshness_gate_exact (hr : Buildable r signature signedAt)
    (hnow : 0 ≤ now ∧ now < 2 ^ 63) :
    ((∃ s u, checkDotnsSubmittable ext r candidate ctx now = .error (.futureDated s u)) ↔
      now + ctx.window.maxFutureSkewSecs < signedAt) ∧
    ((∃ s d, checkDotnsSubmittable ext r candidate ctx now = .error (.expired s d)) ↔
      ¬ now + ctx.window.maxFutureSkewSecs < signedAt ∧
        signedAt + ctx.window.maxValiditySecs < now) ∧
    ∀ s submittableAt,
      checkDotnsSubmittable ext r candidate ctx now = .error (.futureDated s submittableAt) →
        now < submittableAt ∧
        (∀ t, submittableAt ≤ t → ∀ s u,
          checkDotnsSubmittable ext r candidate ctx t ≠ .error (.futureDated s u)) ∧
        ∀ t, now ≤ t → t < submittableAt →
          ∃ s u, checkDotnsSubmittable ext r candidate ctx t = .error (.futureDated s u) := by
  have hfuture : ∀ t, 0 ≤ t →
      ((∃ s u, checkDotnsSubmittable ext r candidate ctx t = .error (.futureDated s u)) ↔
        t + ctx.window.maxFutureSkewSecs < signedAt) := by
    intro t ht
    simp only [rejects_futureDated_iff hr ht]
    exact ⟨fun ⟨_, _, h, _⟩ => h, fun h => ⟨_, _, h, rfl, rfl⟩⟩
  refine ⟨hfuture now hnow.1, ?_, ?_⟩
  · simp only [rejects_expired_iff hr hnow]
    exact ⟨fun ⟨_, _, h, h', _⟩ => ⟨h, h'⟩, fun ⟨h, h'⟩ => ⟨_, _, h, h', rfl, rfl⟩⟩
  · intro s submittableAt h
    obtain ⟨hlt, rfl, rfl⟩ := (rejects_futureDated_iff hr hnow.1).mp h
    refine ⟨by omega, fun t ht s u heq => ?_, fun t ht ht' => (hfuture t (by omega)).mpr ?_⟩
    · have := (rejects_futureDated_iff hr (by omega)).mp heq
      omega
    · omega

/-- The row of `alice` a thousand seconds ahead of its time. -/
theorem freshness_gate_exact_early :
    let ctx : Window := ⟨⟨86400, 60⟩, bob, .plain⟩
    checkDotnsSubmittable devExt aliceRow alice ctx 1759999000 =
        .error (.futureDated 1760000000 1759999940) ∧
      ∀ t, 1759999940 ≤ t → ∀ s u,
        checkDotnsSubmittable devExt aliceRow alice ctx t ≠ .error (.futureDated s u) := by
  intro ctx
  have hr : Buildable aliceRow aliceDotnsSignature.1 1760000000 :=
    ⟨rfl, rfl, by decide +kernel, by decide⟩
  have hrejects : checkDotnsSubmittable devExt aliceRow alice ctx 1759999000 =
      .error (.futureDated 1760000000 1759999940) := by decide +kernel
  obtain ⟨-, -, hahead⟩ :=
    freshness_gate_exact devExt alice ctx 1759999000 hr ⟨by decide, by decide⟩
  exact ⟨hrejects, (hahead _ _ hrejects).2.1⟩

end

end DeviceUniqueness
