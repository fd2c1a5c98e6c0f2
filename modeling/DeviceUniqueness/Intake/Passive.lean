import DeviceUniqueness.Intake.Machine

/-! What the parts of a claim do that neither write to the outbox nor ask Apple.

    A monitor that takes no notice of such operations can be carried through them unchanged
    (`Idles`), whatever it watches otherwise. What is known of the values they hand on is stated with
    them: the body is the request's, and a device to record comes from evidence that verified. So is
    what they refuse a claim with: it is not told to send a token it has sent (`Excused`). -/

namespace DeviceUniqueness

open Schemes

/-- The operation neither writes to the outbox or the vouchers nor asks Apple. -/
def IntakeAsk.passive : IntakeAsk → Bool
  | .allow _ | .signatureForm | .nowUtc | .chainBaseState _ | .allocatedDiscriminators _
  | .reservationState _ | .random | .revokedSerials | .consumeChallenge _ | .deviceSeen _
  | .freeBalance _ => true
  | _ => false

/-- The monitor takes no notice of passive operations. -/
structure Passive {B : Type} (W : Monitor IntakeWorld B) : Prop where
  ok : ∀ b (o : IntakeAsk), o.passive = true → W.ok b o
  next : ∀ b (o : IntakeAsk) (a : o.Ans), o.passive = true → W.next b ⟨o, a⟩ = b

section Passive

variable {B : Type} {W : Monitor IntakeWorld B} {b : B} {ext : GateExt} {config : GateConfig}
  {req : ClaimRequest}

/-- Only a claim whose token is not decoded may be told to send one. -/
abbrev Excused (req : ClaimRequest) (_ : B) (e : UsernamesError) (_ : Unit) : Prop :=
  e = .deviceTokenRequired → deviceTokenBytes req = none

/-- The step is of no concern to the monitor, and what it hands on meets `post`. -/
def Idles {α : Type} (W : Monitor IntakeWorld B) (req : ClaimRequest) (m : Claiming α)
    (post : α → Prop) : Prop :=
  ∀ b, m.Sat W () b (fun b' x _ => b' = b ∧ post x) (Excused req)

variable {α β : Type} {m : Claiming α} {f : α → Claiming β} {P : α → Prop} {Q : β → Prop}

theorem Idles.sat_bind (hm : Idles W req m P) {post : B → β → Unit → Prop}
    (hf : ∀ x, P x → (f x).Sat W () b post (Excused req)) :
    (m >>= f).Sat W () b post (Excused req) :=
  (hm b).then fun _ x _ hx => hx.1 ▸ hf x hx.2

theorem Idles.bind (hm : Idles W req m P) (hf : ∀ x, P x → Idles W req (f x) Q) :
    Idles W req (m >>= f) Q :=
  fun b => hm.sat_bind fun x hx => hf x hx b

theorem idles_pure {x : α} (hx : P x) : Idles W req (pure x) P := fun _ => ⟨rfl, hx⟩

theorem idles_fail {e : UsernamesError} (he : e ≠ .deviceTokenRequired) :
    Idles W req (Act.fail e) P :=
  fun _ h => absurd h he

theorem idles_ofExcept {r : Except UsernamesError α} (h : ∀ x, r = .ok x → P x)
    (he : r ≠ .error .deviceTokenRequired) : Idles W req (Act.ofExcept r) P :=
  fun _ => Act.sat_ofExcept.mpr ⟨fun x hx => ⟨rfl, h x hx⟩, fun _ hr h => absurd (h ▸ hr) he⟩

theorem idles_orInternal {r : Except String α} : Idles W req (orInternal r) fun _ => True := by
  cases r with
  | ok x => exact idles_pure trivial
  | error e => exact idles_fail nofun

theorem selectDigit_ne_error {taken : List Nat} {preferred : Option Nat} {base : String}
    {rng : Nat} : selectDigit taken preferred base rng ≠ .error .deviceTokenRequired := by
  unfold selectDigit
  split
  · split <;> nofun
  · dsimp only
    split <;> nofun

theorem validateDeviceTokenHeader_ne_error :
    validateDeviceTokenHeader req ≠ .error .deviceTokenRequired := by
  unfold validateDeviceTokenHeader
  split
  · nofun
  · split <;> nofun

/-- The Widevine evidence of a request verifies, with some revocation list and at some time. -/
def EvidenceVerifies (ext : GateExt) (config : GateConfig) (cfg : WidevineConfig)
    (req : ClaimRequest) : Prop :=
  ∃ body raw pubkey revokedSerials now verified, req.body = some body ∧
    extract body = .ok (some raw) ∧ parseSubject req.subject = some pubkey ∧
    verifyEvidence ext config cfg revokedSerials pubkey now raw = .ok verified

/-- Where the gate hands over a device to record, the evidence has verified. -/
def Vouched (ext : GateExt) (config : GateConfig) (req : ClaimRequest) (gate : WidevineGate) :
    Prop :=
  ∀ hmac, gate = .proceed (some hmac) → ∃ cfg, config.widevine = some cfg ∧ cfg.enforce = true ∧
    EvidenceVerifies ext config cfg req

theorem rejectEvidence_idles {enforce : Bool} {verdict : EvidenceError} :
    Idles W req (rejectEvidence enforce verdict) (Vouched ext config req) := by
  unfold rejectEvidence
  split
  · cases verdict <;> exact idles_fail nofun
  · exact idles_pure (by rintro _ ⟨⟩)

/-! ### Statements of a transaction -/

variable {β : Type} {reply : Reply α} {f : α → Claiming β} {post : B → β → Unit → Prop}

theorem Reply.answer_eq_ok {out : α} : reply.answer = .ok out ↔ reply = .ok out := by
  cases reply <;> simp [Reply.answer]

theorem sat_persist (h : ∀ out, reply = .ok out → (f out).Sat W () b post (Excused req)) :
    (persist reply >>= f).Sat W () b post (Excused req) := by
  rw [Act.sat_bind]
  unfold persist
  split
  · next out hout => exact h out (Reply.answer_eq_ok.mp hout)
  · exact nofun

theorem sat_abort (hrollback : W.ok b .rollback) {e : UsernamesError}
    (he : e ≠ .deviceTokenRequired) : (abort e : Claiming β).Sat W () b post (Excused req) := by
  unfold abort
  rw [Act.sat_bind]
  exact Act.sat_op.mpr ⟨hrollback, fun _ _ h => absurd h he⟩

theorem sat_txPersist (hrollback : W.ok b .rollback)
    (h : ∀ out, reply = .ok out → (f out).Sat W () b post (Excused req)) :
    (txPersist reply >>= f).Sat W () b post (Excused req) := by
  rw [Act.sat_bind]
  unfold txPersist
  split
  · next out hout => exact h out (Reply.answer_eq_ok.mp hout)
  · exact sat_abort hrollback nofun

/-! ### Passive parts -/

variable (hW : Passive W)
include hW

theorem Passive.ask {o : IntakeAsk} (ho : o.passive = true) : Idles W req (ask o) fun _ => True :=
  fun b => ⟨hW.ok b o ho, fun a _ => ⟨hW.next b o a ho, trivial⟩⟩

theorem baseStateAt_idles (base : String) : Idles W req (baseStateAt base) fun _ => True := by
  refine (hW.ask (by rfl)).bind fun chain _ => ?_
  refine idles_orInternal.bind fun chain _ => ?_
  refine (hW.ask (by rfl)).bind fun pending _ => ?_
  exact idles_orInternal.bind fun pending _ => idles_pure trivial

theorem checkReservation_idles (parsed : ParsedRegister) (base : BaseState) :
    Idles W req (checkReservation parsed base) fun _ => True := by
  unfold checkReservation
  split
  · exact idles_pure trivial
  · next reserved _ =>
    have hstate : Idles W req (reservationStateOf base parsed.username reserved) fun _ => True := by
      unfold reservationStateOf
      split
      · exact idles_pure trivial
      · exact (hW.ask (by rfl)).bind fun _ _ => idles_orInternal
    refine hstate.bind fun reservation _ => ?_
    split
    · exact idles_fail nofun
    · exact idles_pure trivial

/-- Up to the voucher nothing happens, and the body is the request's. -/
theorem prepare_idles : Idles W req (prepare ext config req) fun x => req.body = some x.2.2 := by
  refine (hW.ask (by rfl)).bind fun allowed _ => ?_
  cases allowed with
  | error secs => exact idles_fail nofun
  | ok _ =>
    refine (idles_ofExcept (fun _ _ => trivial) validateDeviceTokenHeader_ne_error).bind
      fun _ _ => ?_
    cases hbody : req.body with
    | none => exact idles_fail nofun
    | some value =>
      refine (hW.ask (by rfl)).bind fun form _ => ?_
      refine idles_orInternal.bind fun form _ => ?_
      refine (hW.ask (by rfl)).bind fun now _ => ?_
      refine (idles_ofExcept (fun _ _ => trivial) fun h => ?_).bind fun parsed _ => ?_
      · obtain ⟨errors, herrors⟩ := validateRegister_error h
        cases herrors
      refine (baseStateAt_idles hW parsed.username).bind fun base _ => ?_
      refine (checkReservation_idles hW parsed base).bind fun _ _ => ?_
      refine (hW.ask (by rfl)).bind fun rng _ => ?_
      exact (idles_ofExcept (fun _ _ => trivial) selectDigit_ne_error).bind fun digit _ =>
        idles_pure rfl

theorem dedupDevice_idles {enforce : Bool} {verified : VerifiedEvidence}
    (h : enforce = true → ∃ cfg, config.widevine = some cfg ∧ cfg.enforce = true ∧
      EvidenceVerifies ext config cfg req) :
    Idles W req (dedupDevice enforce verified) (Vouched ext config req) := by
  have hsoft : Vouched ext config req (.proceed none) := by rintro _ ⟨⟩
  have hdb : ∀ e, Idles W req (if enforce then Act.fail (.internal e) else pure (.proceed none))
      (Vouched ext config req) := by
    intro e
    split
    · exact idles_fail nofun
    · exact idles_pure hsoft
  refine (hW.ask (by rfl)).bind fun reply _ => ?_
  split
  · exact hdb _
  · exact rejectEvidence_idles
  · refine (hW.ask (by rfl)).bind fun reply _ => ?_
    split
    · exact hdb _
    · split_ifs with henforce hseen
      · exact idles_pure hsoft
      · exact idles_pure (by rintro _ ⟨⟩)
      · exact idles_pure fun _ _ => h (by simpa using henforce)

theorem widevineGate_idles {body : Json} (hbody : req.body = some body) :
    Idles W req (widevineGate ext config req body) (Vouched ext config req) := by
  have hsoft : Vouched ext config req (.proceed none) := by rintro _ ⟨⟩
  unfold widevineGate
  cases hcfg : config.widevine with
  | none => exact idles_pure hsoft
  | some cfg =>
    cases hraw : extract body with
    | error verdict => exact rejectEvidence_idles
    | ok raw =>
      cases raw with
      | none =>
        simp only
        split
        · exact idles_pure (by rintro _ ⟨⟩)
        · exact idles_pure hsoft
      | some raw =>
        refine (hW.ask (by rfl)).bind fun serials _ => ?_
        cases serials with
        | error e =>
          simp only
          split
          · exact idles_fail nofun
          · exact idles_pure hsoft
        | ok revokedSerials =>
          cases hsubject : parseSubject req.subject with
          | none => exact rejectEvidence_idles
          | some pubkey =>
            refine (hW.ask (by rfl)).bind fun now _ => ?_
            cases hverify : verifyEvidence ext config cfg revokedSerials pubkey now raw with
            | error verdict => exact rejectEvidence_idles
            | ok verified =>
              exact dedupDevice_idles hW fun henforce => ⟨cfg, hcfg, henforce, body, raw, pubkey,
                revokedSerials, now, verified, hbody, hraw, hsubject, hverify⟩

theorem queueGroup_idles (subject : String) : Idles W req (queueGroup config subject) fun _ => True := by
  unfold queueGroup
  split
  · refine Idles.bind (P := fun _ => True) ?_ fun _ _ => idles_pure trivial
    unfold intakeGroup
    split
    · exact idles_pure trivial
    · refine (hW.ask (by rfl)).bind fun balance _ => ?_
      split <;> exact idles_pure trivial
  · exact idles_pure trivial

end Passive

end DeviceUniqueness
