import DeviceUniqueness.Intake.Machine

/-! Runs of the intake that can be evaluated.

    A script says which request goes on, and where an operation does not go smoothly what comes back
    instead. Smoothly means: done, with a chain that knows no name yet. -/

namespace DeviceUniqueness

open Schemes

/-- How an operation of a scripted run comes back. -/
inductive IntakeHint where
  | smooth
  | lost (err : String)
  | fails (err : String)

namespace IntakeHint

variable {α S : Type}

/-- The reply of a statement that, if it is done, returns `out` and leaves `st'`. -/
def reply (st : S) (out : α) (st' : S) : IntakeHint → Reply α × S
  | .smooth => (.ok out, st')
  | .lost err => (.lost out err, st')
  | .fails err => (.refused err, st)

theorem reply_did {st st' : S} {out : α} {hint : IntakeHint} {done : α → Prop}
    (h : (hint.reply st out st').2 = st' → done out) :
    (hint.reply st out st').1.Did st (hint.reply st out st').2 done := by
  cases hint with
  | smooth | lost err => exact h rfl
  | fails err => rfl

/-- Something outside the database answers `out` when all goes smoothly. -/
def told (out : α) : IntakeHint → Except String α
  | .smooth => .ok out
  | .lost err | .fails err => .error err

theorem told_eq_ok {out x : α} {hint : IntakeHint} (h : hint.told out = .ok x) : x = out := by
  cases hint <;> cases h
  rfl

def voucherState (st : IntakeState) (keyHash : FixedBytes 32) : VoucherState :=
  match st.vouchers keyHash with
  | none => .unknown
  | some v => if v.usedAt.isSome then .spent else if v.expiresAt ≤ st.db.now then .expired else .redeemable

theorem voucherState_told {st : IntakeState} {keyHash : FixedBytes 32} :
    (voucherState st keyHash = .unknown ↔ st.vouchers keyHash = none) ∧
      (voucherState st keyHash = .spent ↔
        ∃ v, st.vouchers keyHash = some v ∧ v.usedAt.isSome = true) := by
  unfold voucherState
  cases hv : st.vouchers keyHash with
  | none => simp
  | some v =>
    simp only
    split_ifs with hused <;> simp [hused]

def answer (device : Bytes → Nat) (p : Nat) (st : IntakeState) (hint : IntakeHint) :
    (o : IntakeAsk) → Option { x : o.Ans × IntakeState // IntakeAsk.Does device p st o x.1 x.2 }
  | .allow _ => some ⟨(.ok (), st), rfl⟩
  | .signatureForm => some ⟨(hint.told .plain, st), rfl⟩
  | .nowUtc => some ⟨(st.db.now / 1000000, st), rfl⟩
  | .chainBaseState _ => some ⟨(hint.told ⟨[], false, 0, 100⟩, st), rfl⟩
  | .allocatedDiscriminators base =>
      match hout : st.db.allocatedDiscriminators base with
      | some out => some ⟨hint.reply st out st, reply_did fun hst => ⟨hout, hst⟩⟩
      | none => none
  | .reservationState _ => some ⟨(hint.told ⟨false, 0, 100⟩, st), rfl⟩
  | .random => some ⟨((0 : Nat), st), rfl⟩
  | .voucherState keyHash =>
      some ⟨hint.reply st (voucherState st keyHash) st,
        reply_did fun hst => voucherState_told.imp_right fun h => ⟨h, hst⟩⟩
  | .revokedSerials => some ⟨(hint.told [], st), rfl⟩
  | .consumeChallenge challenge =>
      some ⟨hint.reply st (st.challengeUsable challenge) (st.consume challenge),
        reply_did fun hst => ⟨rfl, hst⟩⟩
  | .deviceSeen hmac =>
      some ⟨hint.reply st (st.db.device? hmac).isSome st, reply_did fun hst => ⟨rfl, hst⟩⟩
  | .alreadyUsed token =>
      some ⟨(hint.told (slotUsed (st.apple (device token))), st), fun _ => told_eq_ok, rfl⟩
  | .registerDevice token =>
      match hint with
      | .smooth => some ⟨((.ok () : Except String Unit), st.mark (device token)), rfl⟩
      | .lost err => some ⟨((.error err : Except String Unit), st.mark (device token)), .inr rfl⟩
      | .fails err => some ⟨((.error err : Except String Unit), st), .inl rfl⟩
  | .freeBalance _ => some ⟨((none : Option Nat), st), rfl⟩
  | .insert new group =>
      match hinsert : st.db.insertReservation new group with
      | .ok (id, db) =>
          if hfree : st.nameFree p new.fullUsername then
            some ⟨hint.reply st (.ok id) { st with db := db },
              reply_did fun hst => ⟨hfree, db, hinsert, hst⟩⟩
          else none
      | .error e => some ⟨hint.reply st (.error e) st, reply_did fun hst => ⟨hinsert, hst⟩⟩
  | .begin =>
      match hint, htx : st.tx? p with
      | .smooth, none => some ⟨((.ok () : Reply Unit), st.opened p), htx, rfl⟩
      | .smooth, some _ => none
      | .lost err, _ => some ⟨((.lost () err : Reply Unit), st), rfl⟩
      | .fails err, _ => some ⟨((.refused err : Reply Unit), st), rfl⟩
  | .txLock =>
      if hlock : (st.tx? p).isSome ∧ st.lock = none then
        some ⟨hint.reply st () { st with lock := some p },
          reply_did fun hst => ⟨hlock.1, hlock.2, hst⟩⟩
      else none
  | .txBurn keyHash =>
      match htx : st.tx? p with
      | none => none
      | some tx =>
          if hredeem : st.voucherRedeemable tx.startedAt keyHash && keyHash ∉ tx.burned then
            if hfree : st.keyFree p keyHash then
              some ⟨hint.reply st true
                (st.inTx p fun tx => { tx with burned := keyHash :: tx.burned }),
                reply_did fun hst => ⟨tx, htx, hredeem.symm, hfree, hst⟩⟩
            else none
          else some ⟨hint.reply st false st,
            reply_did fun hst => ⟨tx, htx, (Bool.eq_false_iff.mpr hredeem).symm, hst⟩⟩
  | .txInsert new group =>
      match htx : st.tx? p with
      | none => none
      | some tx =>
          match hinsert : st.db.insertReservation new group with
          | .ok (id, db) =>
              if hfree : st.nameFree p new.fullUsername ∧ id = st.db.nextId then
                some ⟨hint.reply st (.ok id)
                  { st.inTx p (fun tx => { tx with rows := st.txRow tx new group :: tx.rows }) with
                    db := st.db.nextval.2 },
                  reply_did fun hst => ⟨tx, htx, hfree.1, hfree.2, ⟨db, hinsert⟩, hst⟩⟩
              else none
          | .error e =>
              some ⟨hint.reply st (.error e) st, reply_did fun hst => ⟨tx, htx, hinsert, hst⟩⟩
  | .txInsertPending hmac id =>
      if htx : (st.tx? p).isSome then
        if hnone : st.db.device? hmac = none then
          if hfree : st.hmacFree p hmac then
            some ⟨hint.reply st (.ok ())
              (st.inTx p fun tx => { tx with devices := (hmac, id) :: tx.devices }),
              reply_did fun hst => ⟨htx, hfree, hnone, hst⟩⟩
          else none
        else some ⟨hint.reply st (.error .seen) st,
          reply_did fun hst => ⟨htx, Option.isSome_iff_ne_none.mpr hnone, hst⟩⟩
      else none
  | .commit =>
      match hint, htx : st.tx? p with
      | .fails err, _ => some ⟨((.refused err : Reply Unit), st.close p), rfl⟩
      | _, none => none
      | .smooth, some tx => (tx.apply st.db).attach.map fun db =>
          ⟨((.ok () : Reply Unit), st.committed p tx db.1), tx, db.1, htx, db.2, rfl⟩
      | .lost err, some tx => (tx.apply st.db).attach.map fun db =>
          ⟨((.lost () err : Reply Unit), st.committed p tx db.1), tx, db.1, htx, db.2, rfl⟩
  | .rollback => some ⟨((.ok () : Reply Unit), st.close p), rfl⟩

end IntakeHint

/-- A request that can come in, with the configuration of the replica it comes to. -/
def Incoming (Served : GateConfig → ClaimRequest → Prop) : Type :=
  { k : GateConfig × ClaimRequest // Served k.1 k.2 }

/-- The intake, played. -/
def intakePlayer (ext : GateExt) (device : Bytes → Nat) (Served : GateConfig → ClaimRequest → Prop) :
    Player (Intake ext device Served) IntakeHint (Incoming Served) where
  answer p o st hint := hint.answer device p st o
  act e st := some ⟨e.act st, rfl⟩
  image k := ⟨register ext k.1.1 k.1.2 (), fun _ => ⟨k.1.1, k.1.2, k.2, rfl⟩⟩
  lose p st := ⟨st.close p, rfl⟩

/-- The request goes on smoothly for some operations. -/
def goesOn {K : Type} (p n : Nat) : List (Move IntakeHint IntakeEvent K) :=
  List.replicate n (.op p .smooth)

/-! ### A claim of `alice` from an iOS device -/

/-- Fields added to a body. -/
def Json.with (extra : List (String × Json)) : Json → Json
  | .obj fields => .obj (fields ++ extra)
  | value => value

def testConfig (widevine : Option WidevineConfig) : GateConfig where
  registrationVouchersEnabled := true
  dotnsIntakeFreshnessMaxAgeSecs := 600
  dotnsMaxFutureSkewSecs := 600
  enforceAuth := true
  queueEnabled := false
  deviceCheck := true
  widevine := widevine
  androidPackageNames := ["app"]
  androidSigningDigestPlaystore := some ⟨List.replicate 32 6, rfl⟩
  androidSigningDigestWebsite := some ⟨List.replicate 32 8, List.length_replicate⟩

/-- A claim of `wonderland.07` with the device token `AQ==`, and with more fields in its body. -/
def iosRequest (extra : List (String × Json)) : ClaimRequest where
  subject := hexEncode alice.1
  platform := some "ios"
  deviceToken := some (utf8 "AQ==")
  body := some ((aliceBody "07" aliceRingKey aliceSignature).with extra)

/-- Tables with nothing in them, and devices Apple has no bits of. -/
def IntakeState.fresh : IntakeState where
  db := Db.empty (seconds 1760000100)
  challenges _ := none
  vouchers _ := none
  apple _ := none
  lock := none
  txs := []
  log := []

end DeviceUniqueness
