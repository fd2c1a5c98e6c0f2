import DeviceUniqueness.Intake.Reservation

/-! Intake and writer agree.

    What intake accepts the writer's gates do not turn down for anything intake could have seen. The
    People gate repeats intake's signature check on the stored columns. The dotNS gate cuts the base
    out of the full username again and has length bounds of its own; what is left for it to reject is
    what depends on the pass: the age of the signature, and the attester it has to be for. -/

namespace DeviceUniqueness

variable {candidate : Account} {reject : DotnsReject}

namespace StoredClaim

variable {ext : Ext} (c : StoredClaim ext)

theorem reservation_fullUsername :
    c.reservation.fullUsername = fullUsername c.parsed.username c.digit := by
  simp [reservation, rowToReservation, c.stored, buildReservation]

/-- The writer cuts the accepted base out of the full username. -/
theorem liteBase_eq : liteBase c.reservation.fullUsername = c.parsed.username := by
  obtain ⟨name, -, hname⟩ := c.accepts.username
  rw [reservation_fullUsername, fullUsername]
  refine liteBase_append _ fun hdot => ?_
  rw [hname] at hdot
  have hlower := List.all_eq_true.mp name.lower 46 hdot
  exact absurd hlower (by decide)

/-- The People gate makes the check intake made, on the same bytes. -/
theorem peopleGate_eq (h : ext.accountFromStr c.request.candidateAccountId = some candidate) :
    peopleGate ext c.reservation c.form = .ok candidate := by
  obtain ⟨account, haccount, hverify⟩ := c.accepts.candidate
  obtain rfl : account = candidate := Option.some.inj (haccount.symm.trans h)
  have hid : c.reservation.candidateAccountId = c.request.candidateAccountId := by
    rw [← c.accepts.account]
    simp [reservation, rowToReservation, c.stored, buildReservation]
  have hsame : verifyCandidateSignature ext account c.reservation.candidateSignature
      c.reservation.ringVrfKey c.form = true := by
    simp only [reservation, rowToReservation, c.stored, buildReservation]
    cases hv : c.parsed.payloadVersion
    rw [hv] at hverify
    exact hverify
  simp [peopleGate, parseCandidate, hid, h, hsame]

/-- The labels of a stored claim can be put into the call. -/
theorem checkLabels_eq :
    checkLabels c.reservation.fullUsername c.reservation.reservedUsername = .ok () := by
  have hwidth := c.fullUsername_width
  have hbase := c.username_width
  have hlite : (liteBase c.reservation.fullUsername).utf8ByteSize =
      (utf8 c.parsed.username).length := by
    rw [liteBase_eq]
    rfl
  rw [← reservation_fullUsername] at hwidth
  unfold checkLabels
  rw [if_neg (by rw [maxLabelBytes]; omega), if_neg (by omega)]
  cases hr : c.reservation.reservedUsername with
  | none => rfl
  | some label =>
    have hlabel : label.utf8ByteSize ≤ 32 := c.reserved_width hr
    simp only
    rw [if_neg (by rw [maxLabelBytes]; omega)]

end StoredClaim

/-- What the dotNS gate may still say of a claim that came with a dotNS block. -/
inductive DotnsReject.Timely : DotnsReject → Prop
  | badSignature : Timely .badSignature
  | expired (signedAt : Int) (deadlineSecs : Nat) : Timely (.expired signedAt deadlineSecs)
  | futureDated (signedAt submittableAt : Int) : Timely (.futureDated signedAt submittableAt)

theorem checkFreshness_timely {signedAt : Int} {window : ValidityWindow} {now : Int}
    (h : checkFreshness signedAt window now = .error reject) : reject.Timely := by
  unfold checkFreshness at h
  simp only at h
  split_ifs at h
  · exact Except.error.inj h ▸ .futureDated _ _
  · exact Except.error.inj h ▸ .expired _ _

theorem checkDotnsSignature_timely {ext : Ext} {r : Reservation} {signature : Bytes}
    {signedAt : Int} {ctx : Window}
    (h : checkDotnsSignature ext r signature signedAt candidate ctx = .error reject) :
    reject.Timely := by
  unfold checkDotnsSignature at h
  split_ifs at h <;> exact Except.error.inj h ▸ .badSignature

namespace StoredClaim

variable {ext : Ext} (c : StoredClaim ext)

theorem checkDotns_timely (hdotns : c.request.dotns.isSome) {ctx : Window} {now : Int}
    (h : checkDotnsSubmittable ext c.reservation candidate ctx now = .error reject) :
    reject.Timely := by
  obtain ⟨d, hd⟩ := Option.isSome_iff_exists.mp hdotns
  obtain ⟨p, hp, -⟩ := c.dotns_of_request hd
  have hsignature : c.reservation.dotnsSignature = some p.signature := by
    simp [reservation, rowToReservation, c.stored, buildReservation, hp]
  have hsignedAt : c.reservation.dotnsSignedAt = some p.signedAt := by
    simp [reservation, rowToReservation, c.stored, buildReservation, hp]
  simp only [checkDotnsSubmittable, hsignature, hsignedAt, c.checkLabels_eq] at h
  cases hfresh : checkFreshness p.signedAt ctx.window now with
  | error e =>
    rw [hfresh] at h
    exact Except.error.inj h ▸ checkFreshness_timely hfresh
  | ok u =>
    rw [hfresh] at h
    exact checkDotnsSignature_timely h

end StoredClaim

/-- Whatever intake accepts passes the People gate under the form it was accepted in, for the same
    account; the base the writer works with is the accepted one; and the dotNS gate turns down a
    claim that came with a dotNS block only for its age or its signature. -/
theorem gates_agree_with_intake {ext : Ext} (c : StoredClaim ext) :
    ∃ candidate, ext.accountFromStr c.request.candidateAccountId = some candidate ∧
      peopleGate ext c.reservation c.form = .ok candidate ∧
      (1 ≤ c.digit ∧ c.digit ≤ 99) ∧
      liteBase c.reservation.fullUsername = c.request.username ∧
      (c.request.dotns.isSome → ∀ ctx wall,
        dotnsGate ext c.reservation ctx wall = .ok candidate ∨
          ∃ reject : DotnsReject, reject.Timely ∧
            checkDotnsSubmittable ext c.reservation candidate ctx (unixTimestamp wall) =
              .error reject ∧
            dotnsGate ext c.reservation ctx wall =
              .error (reject.gate ctx.window (unixTimestamp wall) wall)) := by
  obtain ⟨candidate, hcandidate, -⟩ := c.accepts.candidate
  obtain ⟨name, hname, husername⟩ := c.accepts.username
  have hgate := c.peopleGate_eq hcandidate
  refine ⟨candidate, hcandidate, hgate, c.digit_range, ?_, ?_⟩
  · rw [c.liteBase_eq, husername, (bounded_eq_ok hname).1]
  · intro hdotns ctx wall
    have hparse : parseCandidate ext c.reservation = .ok candidate := by
      unfold parseCandidate
      rw [@Lane.gate_ok ext .people _ c.form wall _ hgate]
    cases hcheck : checkDotnsSubmittable ext c.reservation candidate ctx (unixTimestamp wall) with
    | ok u => exact Or.inl (by simp [dotnsGate, hparse, hcheck])
    | error reject =>
      exact Or.inr ⟨reject, c.checkDotns_timely hdotns hcheck, rfl,
        by simp [dotnsGate, hparse, hcheck]⟩

theorem gates_agree_with_sound_claim :
    ∃ candidate, peopleGate shortRingExt soundClaim.reservation .plain = .ok candidate ∧
      liteBase soundClaim.reservation.fullUsername = "wonderland" ∧
      (dotnsGate shortRingExt soundClaim.reservation ⟨⟨86400, 60⟩, bob, .plain⟩
          (seconds 1760000200) = .ok candidate ∨
        ∃ reject : DotnsReject, reject.Timely ∧
          checkDotnsSubmittable shortRingExt soundClaim.reservation candidate
            ⟨⟨86400, 60⟩, bob, .plain⟩ 1760000200 = .error reject) := by
  obtain ⟨candidate, -, hgate, -, hbase, hdotns⟩ := gates_agree_with_intake soundClaim
  refine ⟨candidate, hgate, hbase, ?_⟩
  rcases hdotns rfl ⟨⟨86400, 60⟩, bob, .plain⟩ (seconds 1760000200) with hok | ⟨reject, ht, hc, -⟩
  · exact Or.inl hok
  · exact Or.inr ⟨reject, ht, hc⟩

end DeviceUniqueness
