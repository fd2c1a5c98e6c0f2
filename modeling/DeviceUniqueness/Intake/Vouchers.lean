import DeviceUniqueness.Intake.Passive
import DeviceUniqueness.Intake.Script
import DeviceUniqueness.Schemes.Transactions

/-! Vouchers: burned together with exactly one reservation, or not at all.

    A redeem burns its voucher and inserts its reservation in one transaction, and commits only if
    both came back well. The burn locks the voucher, so two open transactions never burn the same
    one, and what an open transaction has burned is unused in the table until it commits. `log` keeps
    the transactions that were committed; a voucher is used exactly if one of them burned it. -/

namespace DeviceUniqueness

open Function Schemes

/-! ### Keeping track of a redeem -/

/-- What a claim knows of its transaction, the vouchers burned and the number of rows inserted;
    whether something has gone wrong; whether it has committed. -/
structure Redeem where
  tx : Option (List (FixedBytes 32) × Nat)
  failed : Bool
  done : Bool

def Redeem.start : Redeem := ⟨none, false, false⟩

/-- The statement conflicts, fails or finds the voucher gone. The reply of a commit that took effect
    is no failure, whatever it says. -/
def redeemFails : Ev IntakeWorld → Bool
  | ⟨.voucherState _, reply⟩ => isErr reply.answer
  | ⟨.begin, reply⟩ => isErr reply.answer
  | ⟨.txBurn _, reply⟩ => match (reply : Reply Bool) with
      | .ok true => false
      | _ => true
  | ⟨.txInsert .., reply⟩ => match (reply : Reply (Except Db.InsertError Nat)) with
      | .ok (.ok _) => false
      | _ => true
  | ⟨.insert .., reply⟩ => !reply.inserted
  | ⟨.commit, reply⟩ => !reply.done
  | _ => false

/-- The transaction as the claim sees it after an operation. -/
def Redeem.nextTx (b : Redeem) : Ev IntakeWorld → Option (List (FixedBytes 32) × Nat)
  | ⟨.begin, reply⟩ => if isErr reply.answer then none else some ([], 0)
  | ⟨.txBurn keyHash, _⟩ => b.tx.map fun (keys, rows) => (keyHash :: keys, rows)
  | ⟨.txInsert .., _⟩ => b.tx.map fun (keys, rows) => (keys, rows + 1)
  | ⟨.commit, _⟩ | ⟨.rollback, _⟩ => none
  | _ => b.tx

def Redeem.next (b : Redeem) (e : Ev IntakeWorld) : Redeem where
  tx := b.nextTx e
  failed := b.failed || redeemFails e
  done := b.done || commitsClaim e

/-- What a claim may do. A transaction that has burned a voucher commits with one row, and nothing
    that could fail follows a commit. -/
def Redeem.Allows (b : Redeem) : IntakeAsk → Prop
  | .begin => b.done = false ∧ b.tx = none
  | .voucherState _ | .txBurn _ | .txInsert .. => b.done = false
  | .insert .. => b.done = false ∧ b.failed = false
  | .commit => b.done = false ∧ b.failed = false ∧
      ∃ keys rows, b.tx = some (keys, rows) ∧ (keys = [] ∨ ∃ keyHash, keys = [keyHash] ∧ rows = 1)
  | _ => True

def redeems : Monitor IntakeWorld Redeem where
  next := Redeem.next
  ok := Redeem.Allows
  adm _ _ := True

theorem Redeem.next_idle {b : Redeem} {e : Ev IntakeWorld} (htx : b.nextTx e = b.tx)
    (hfails : redeemFails e = false) (hcommits : commitsClaim e = false) : b.next e = b := by
  simp [Redeem.next, htx, hfails, hcommits]

theorem redeems_passive : Passive redeems where
  ok b o ho := by cases o <;> trivial
  next b o a ho := by cases o <;> first | exact Redeem.next_idle rfl rfl rfl | cases ho

variable {o : IntakeAsk} {new : NewReservation} {group : Option Nat} {hmac keyHash : FixedBytes 32}
  {db : Db}

section Program

variable {ext : GateExt} {config : GateConfig} {req : ClaimRequest} {b : Redeem}

theorem sat_askRedeem {α : Type} {f : o.Ans → Claiming α} {post : Redeem → α → Unit → Prop}
    {err : Redeem → UsernamesError → Unit → Prop} (hok : b.Allows o)
    (h : ∀ a, (f a).Sat redeems () (b.next ⟨o, a⟩) post err) :
    (ask o >>= f).Sat redeems () b post err :=
  Act.sat_bind.mpr (Act.sat_op.mpr ⟨hok, fun a _ => h a⟩)

/-- Asking Apple, marking a slot, the lock and the device record do not concern the redeem. -/
def IntakeAsk.besides : IntakeAsk → Bool
  | .alreadyUsed _ | .registerDevice _ | .txLock | .txInsertPending .. => true
  | _ => false

theorem besides_idles (ho : o.besides = true) : Idles redeems req (ask o) fun _ => True := fun _ => by
  refine Act.sat_op.mpr ⟨?_, fun a _ => ⟨?_, trivial⟩⟩
  · cases o <;> trivial
  · cases o <;> first | exact Redeem.next_idle rfl rfl rfl | cases ho

theorem deviceCheckGate_idles : Idles redeems req (deviceCheckGate config req) fun _ => True := by
  have hevaluate : Idles redeems req (evaluate (deviceTokenBytes req))
      fun verdict => verdict = .inactive → deviceTokenBytes req = none := by
    cases htoken : deviceTokenBytes req with
    | none => exact idles_pure fun _ => rfl
    | some token =>
      refine (besides_idles (by rfl)).bind fun used _ => idles_pure ?_
      match used with
      | .ok true | .ok false | .error _ => exact nofun
  unfold deviceCheckGate
  split
  · refine hevaluate.bind fun verdict hverdict => ?_
    match verdict, config.enforceAuth with
    | .available, true | .available, false | .alreadyUsed, true | .alreadyUsed, false
    | .failed _, false | .inactive, false => exact idles_pure trivial
    | .failed _, true => exact idles_fail nofun
    | .inactive, true => exact fun _ _ => hverdict rfl
  · exact idles_pure trivial

/-! ### The reservations -/

/-- A transaction with a row and no voucher, ready to commit. -/
theorem sat_commit {α : Type} {x : α} (hdone : b.done = false) (hfailed : b.failed = false)
    {keys : List (FixedBytes 32)} {rows : Nat} (htx : b.tx = some (keys, rows))
    (hkeys : keys = [] ∨ ∃ keyHash, keys = [keyHash] ∧ rows = 1) :
    (do
      persist (← ask .commit)
      pure x : Claiming α).Sat redeems () b Anyhow (Excused req) := by
  refine sat_askRedeem ⟨hdone, hfailed, keys, rows, htx, hkeys⟩ fun reply => ?_
  exact sat_persist fun _ _ => trivial

theorem reserveWithDevice_redeems :
    (reserveWithDevice new group hmac).Sat redeems () Redeem.start Anyhow (Excused req) := by
  unfold reserveWithDevice
  refine sat_askRedeem ⟨rfl, rfl⟩ fun begun => ?_
  refine sat_persist fun _ hbegun => ?_
  subst hbegun
  refine sat_askRedeem rfl fun inserted => ?_
  refine sat_txPersist trivial fun out hout => ?_
  subst hout
  cases out with
  | error e => cases e <;> exact sat_abort trivial nofun
  | ok id =>
    refine (besides_idles (by rfl)).sat_bind fun pending _ => ?_
    refine sat_txPersist trivial fun out _ => ?_
    cases out with
    | error e =>
      cases e
      simp only
      exact sat_askRedeem trivial fun _ => trivial
    | ok _ => exact sat_commit rfl rfl rfl (Or.inl rfl)

theorem reservePlain_redeems :
    (reservePlain new group).Sat redeems () Redeem.start Anyhow (Excused req) := by
  unfold reservePlain
  refine sat_askRedeem ⟨rfl, rfl⟩ fun inserted => ?_
  refine sat_persist fun out _ => ?_
  cases out with
  | ok id => trivial
  | error e => cases e <;> exact nofun

theorem reserveWithMark_redeems {token : Bytes} :
    (reserveWithMark new token group).Sat redeems () Redeem.start Anyhow (Excused req) := by
  have hdrop : ∀ {b : Redeem} {out : ReserveOutcome},
      (do let _ ← ask .rollback; pure out : Claiming _).Sat redeems () b Anyhow (Excused req) := by
    intro b out
    exact sat_askRedeem trivial fun _ => trivial
  unfold reserveWithMark
  refine sat_askRedeem ⟨rfl, rfl⟩ fun begun => ?_
  refine sat_persist fun _ hbegun => ?_
  subst hbegun
  refine (besides_idles (by rfl)).sat_bind fun locked _ => ?_
  refine sat_txPersist trivial fun _ _ => ?_
  refine (besides_idles (by rfl)).sat_bind fun used _ => ?_
  cases used with
  | error e => exact sat_abort trivial nofun
  | ok used =>
    cases used with
    | true => exact hdrop
    | false =>
      simp only
      refine sat_askRedeem rfl fun inserted => ?_
      refine sat_txPersist trivial fun out hout => ?_
      subst hout
      cases out with
      | error e => cases e <;> exact sat_abort trivial nofun
      | ok id =>
        refine (besides_idles (by rfl)).sat_bind fun accepted _ => ?_
        cases accepted with
        | error e => exact sat_abort trivial nofun
        | ok _ => exact sat_commit rfl rfl rfl (Or.inl rfl)

theorem redeemAndReserve_redeems (hb : b = Redeem.start) :
    (redeemAndReserve keyHash new).Sat redeems () b Anyhow (Excused req) := by
  subst hb
  unfold redeemAndReserve
  refine sat_askRedeem ⟨rfl, rfl⟩ fun begun => ?_
  refine sat_persist fun _ hbegun => ?_
  subst hbegun
  refine sat_askRedeem rfl fun burned => ?_
  refine sat_txPersist trivial fun out hout => ?_
  subst hout
  cases out with
  | false =>
    simp only [Bool.false_eq_true, if_false]
    refine sat_askRedeem trivial fun _ => ?_
    refine sat_askRedeem rfl fun state => ?_
    exact sat_persist fun _ _ => nofun
  | true =>
    simp only [if_true]
    refine sat_askRedeem rfl fun inserted => ?_
    refine sat_txPersist trivial fun out hout => ?_
    subst hout
    cases out with
    | error e => cases e <;> exact sat_abort trivial nofun
    | ok id => exact sat_commit rfl rfl rfl (Or.inr ⟨keyHash, rfl, rfl⟩)

/-! ### The handler -/

theorem registerWithVoucher_redeems :
    (registerWithVoucher keyHash new).Sat redeems () Redeem.start Anyhow (Excused req) := by
  unfold registerWithVoucher
  refine sat_askRedeem rfl fun state => ?_
  cases state with
  | lost out err | refused err => exact nofun
  | ok state =>
    refine Idles.sat_bind (P := fun x => x = state) (idles_pure rfl) ?_
    rintro out rfl
    cases hdecide : decideVoucher out with
    | error reason => exact nofun
    | ok _ =>
      simp only
      exact (redeemAndReserve_redeems rfl).then (fun _ _ _ _ => trivial)

theorem registerStandard_redeems {body : Json} (hbody : req.body = some body) :
    (registerStandard ext config req new body).Sat redeems () Redeem.start Anyhow (Excused req) := by
  refine (widevineGate_idles redeems_passive hbody).sat_bind fun gate _ => ?_
  cases gate with
  | ineligible => trivial
  | proceed device =>
    refine deviceCheckGate_idles.sat_bind fun decided _ => ?_
    rcases decided with _ | ⟨markToken, available⟩
    · trivial
    · refine (queueGroup_idles redeems_passive req.subject).sat_bind fun group _ => ?_
      have hreserve :
          (reserve new markToken group device).Sat redeems () Redeem.start Anyhow (Excused req) := by
        cases device with
        | some hmac => exact reserveWithDevice_redeems
        | none =>
          cases markToken with
          | none => exact reservePlain_redeems
          | some token => exact reserveWithMark_redeems
      refine hreserve.then ?_
      rintro _ (_ | _) _ _ <;> trivial

theorem register_redeems :
    (register ext config req).Sat redeems () Redeem.start Anyhow (Excused req) := by
  refine (prepare_idles redeems_passive).sat_bind fun x hbody => ?_
  obtain ⟨new, voucher, value⟩ := x
  cases voucher with
  | some key => exact registerWithVoucher_redeems
  | none => exact registerStandard_redeems hbody

end Program

/-! ### What a step does to the transactions and the vouchers -/

/-- The operation leaves the transaction of its claim as it is. -/
def quiet : Ev IntakeWorld → Bool
  | ⟨.commit, _⟩ | ⟨.rollback, _⟩ | ⟨.txInsertPending .., .ok (.ok ())⟩ => false
  | ⟨.begin, reply⟩ => redeemFails ⟨.begin, reply⟩
  | ⟨.txBurn keyHash, reply⟩ => redeemFails ⟨.txBurn keyHash, reply⟩
  | ⟨.txInsert new group, reply⟩ => redeemFails ⟨.txInsert new group, reply⟩
  | _ => true

/-- The ways the open transactions, the vouchers, the rows and the log can move together. -/
inductive TxMove (p : Nat) (st : IntakeState) (e : Ev IntakeWorld) (st' : IntakeState) : Prop
  | kept (event : quiet e = true) (txs : st'.txs = st.txs) (vouchers : st'.vouchers = st.vouchers)
      (log : st'.log = st.log) (rows : commitsClaim e = false → st'.db.rows = st.db.rows)
  | opened (event : e = ⟨.begin, .ok ()⟩) (free : st.tx? p = none) (now : st' = st.opened p)
  | burned (keyHash : FixedBytes 32) (tx : IntakeTx) (event : e.1 = .txBurn keyHash)
      (found : st.tx? p = some tx)
      (redeemable : st.voucherRedeemable tx.startedAt keyHash = true)
      (free : st.keyFree p keyHash = true)
      (now : st' = st.inTx p fun tx => { tx with burned := keyHash :: tx.burned })
  | inserted (new : NewReservation) (group : Option Nat) (event : e.1 = .txInsert new group)
      (now : st' = { st.inTx p (fun tx => { tx with rows := st.txRow tx new group :: tx.rows }) with
        db := st.db.nextval.2 })
  | recorded (hmac : FixedBytes 32) (id : Nat) (event : e.1 = .txInsertPending hmac id)
      (now : st' = st.inTx p fun tx => { tx with devices := (hmac, id) :: tx.devices })
  | closed (event : e.1 = .commit ∨ e.1 = .rollback) (commits : commitsClaim e = false)
      (now : st' = st.close p)
  | committed (tx : IntakeTx) (db : Db) (event : e.1 = .commit) (commits : commitsClaim e = true)
      (found : st.tx? p = some tx) (applied : tx.apply st.db = some db)
      (now : st' = st.committed p tx db)

theorem TxMove.of_eq {p : Nat} {st st' : IntakeState} {e : Ev IntakeWorld} (event : quiet e = true)
    (h : st' = st) : TxMove p st e st' := by
  subst h
  exact .kept event rfl rfl rfl fun _ => rfl

theorem IntakeAsk.Does.txMove {device : Bytes → Nat} {p : Nat} {st st' : IntakeState} {a : o.Ans}
    (h : IntakeAsk.Does device p st o a st') : TxMove p st ⟨o, a⟩ st' := by
  cases o with
  | allocatedDiscriminators base =>
    rcases Reply.Did.cases h with ⟨out, -, heq⟩ | heq <;> exact .of_eq rfl heq
  | voucherState key =>
    rcases Reply.Did.cases h with ⟨out, -, -, heq⟩ | heq <;> exact .of_eq rfl heq
  | deviceSeen hmac =>
    rcases Reply.Did.cases h with ⟨out, -, heq⟩ | heq <;> exact .of_eq rfl heq
  | consumeChallenge challenge =>
    rcases Reply.Did.cases h with ⟨out, -, rfl⟩ | heq
    · unfold IntakeState.consume
      split <;> exact .kept rfl rfl rfl rfl fun _ => rfl
    · exact .of_eq rfl heq
  | alreadyUsed token => exact .of_eq rfl h.2
  | registerDevice token =>
    cases a with
    | ok out => obtain rfl := h; exact .kept rfl rfl rfl rfl fun _ => rfl
    | error e => rcases h with rfl | rfl <;> exact .kept rfl rfl rfl rfl fun _ => rfl
  | insert new group =>
    cases a with
    | ok out | lost out err =>
      cases out with
      | error e => exact .of_eq rfl h.2
      | ok id =>
        obtain ⟨-, db, -, rfl⟩ := h
        exact .kept rfl rfl rfl rfl fun hnone => by cases hnone
    | refused err => exact .of_eq rfl h
  | begin =>
    cases a with
    | ok out => exact .opened rfl h.1 h.2
    | lost out err | refused err => exact .of_eq rfl h
  | txLock =>
    rcases Reply.Did.cases h with ⟨out, -, -, rfl⟩ | heq
    · exact .kept rfl rfl rfl rfl fun _ => rfl
    · exact .of_eq rfl heq
  | txBurn keyHash =>
    cases a with
    | ok out | lost out err =>
      obtain ⟨tx, htx, hredeem, heq⟩ := h
      cases out with
      | false => exact .of_eq rfl heq
      | true =>
        exact .burned keyHash tx rfl htx ((Bool.and_eq_true _ _).mp hredeem.symm).1 heq.1 heq.2
    | refused err => exact .of_eq rfl h
  | txInsert new group =>
    cases a with
    | ok out | lost out err =>
      cases out with
      | error e => exact .of_eq rfl h.choose_spec.2.2
      | ok id => exact .inserted new group rfl h.choose_spec.2.2.2.2
    | refused err => exact .of_eq rfl h
  | txInsertPending hmac id =>
    cases a with
    | ok out | lost out err =>
      rcases out with ⟨⟩ | _
      · exact .of_eq rfl h.2.2
      · exact .recorded hmac id rfl h.2.2.2
    | refused err => exact .of_eq rfl h
  | commit =>
    cases a with
    | ok out | lost out err =>
      obtain ⟨tx, db, htx, happly, heq⟩ := h
      exact .committed tx db rfl rfl htx happly heq
    | refused err => exact .closed (Or.inl rfl) rfl h
  | rollback => exact .closed (Or.inr rfl) rfl h
  | _ => exact .of_eq rfl h

/-! ### What a claim knows of its transaction -/

theorem Redeem.sound_of_next {b : Redeem} {e : Ev IntakeWorld} (h : (b.next e).failed = false) :
    b.failed = false :=
  (Bool.or_eq_false_iff.mp h).1

structure Redeem.Knows (b : Redeem) (tx : IntakeTx) : Prop where
  running : b.tx.isSome = true
  same : b.failed = false → b.tx = some (tx.burned, tx.rows.length)

namespace Redeem.Knows

variable {b : Redeem} {tx : IntakeTx} {e : Ev IntakeWorld}

theorem quiet (hb : b.Knows tx) (hok : b.Allows e.1) (hq : DeviceUniqueness.quiet e = true) :
    (b.next e).Knows tx := by
  obtain ⟨o, a⟩ := e
  cases o with
  | begin =>
    have hrunning := hb.running
    rw [hok.2] at hrunning
    cases hrunning
  | txBurn keyHash =>
    have hfailed : redeemFails ⟨.txBurn keyHash, a⟩ = true := hq
    exact ⟨by simpa [next, nextTx] using hb.running, by simp [next, hfailed]⟩
  | txInsert new group =>
    have hfailed : redeemFails ⟨.txInsert new group, a⟩ = true := hq
    exact ⟨by simpa [next, nextTx] using hb.running, by simp [next, hfailed]⟩
  | commit | rollback => cases hq
  | _ => exact ⟨hb.running, fun h => hb.same (sound_of_next h)⟩

theorem burned (hb : b.Knows tx) (he : e.1 = .txBurn keyHash) :
    (b.next e).Knows { tx with burned := keyHash :: tx.burned } := by
  obtain ⟨o, a⟩ := e
  obtain rfl : o = .txBurn keyHash := he
  refine ⟨by simpa [next, nextTx] using hb.running, fun h => ?_⟩
  have hsame := hb.same (sound_of_next h)
  simp [next, nextTx, hsame]

theorem inserted (hb : b.Knows tx) (he : e.1 = .txInsert new group) (row : Row) :
    (b.next e).Knows { tx with rows := row :: tx.rows } := by
  obtain ⟨o, a⟩ := e
  obtain rfl : o = .txInsert new group := he
  refine ⟨by simpa [next, nextTx] using hb.running, fun h => ?_⟩
  have hsame := hb.same (sound_of_next h)
  simp [next, nextTx, hsame]

theorem recorded (hb : b.Knows tx) {id : Nat} (he : e.1 = .txInsertPending hmac id)
    (devices : List (FixedBytes 32 × Nat)) : (b.next e).Knows { tx with devices := devices } := by
  obtain ⟨o, a⟩ := e
  obtain rfl : o = .txInsertPending hmac id := he
  exact ⟨hb.running, fun h => hb.same (sound_of_next h)⟩

end Redeem.Knows

/-! ### The invariant -/

namespace IntakeState

variable {st : IntakeState} {p : Nat} {tx : IntakeTx}

theorem tx?_mem (h : st.tx? p = some tx) : tx ∈ st.txs ∧ tx.owner = p :=
  ⟨List.mem_of_find?_eq_some h, by simpa using List.find?_some h⟩

theorem owner_of_tx?_none (h : st.tx? p = none) (htx : tx ∈ st.txs) : tx.owner ≠ p := by
  simpa using List.find?_eq_none.mp h tx htx

theorem mem_close : tx ∈ (st.close p).txs ↔ tx ∈ st.txs ∧ tx.owner ≠ p := by
  simp [close]

theorem owner_of_keyFree (h : st.keyFree p keyHash = true) (htx : tx ∈ st.txs)
    (hburned : keyHash ∈ tx.burned) : tx.owner = p := by
  simpa [hburned] using List.all_eq_true.mp h tx htx

end IntakeState

/-- The transactions among those committed that burned the voucher. -/
def redeemers (keyHash : FixedBytes 32) (log : List IntakeTx) : List IntakeTx :=
  log.filter fun tx => keyHash ∈ tx.burned

/-- What holds of the transactions under way and of the vouchers. A voucher is burned by one open
    transaction at most, and unused until that commits; it is used exactly if one committed
    transaction burned it, and that one inserted exactly one row. -/
structure VoucherInv (st : IntakeState) (w : Nat → Option Redeem) : Prop where
  known : ∀ tx ∈ st.txs, ∃ b, w tx.owner = some b ∧ b.Knows tx
  single : ∀ tx ∈ st.txs, ∀ tx' ∈ st.txs, tx.owner = tx'.owner → tx = tx'
  sole : ∀ tx ∈ st.txs, ∀ tx' ∈ st.txs, ∀ k ∈ tx.burned, k ∈ tx'.burned → tx.owner = tx'.owner
  live : ∀ tx ∈ st.txs, ∀ k ∈ tx.burned, ∃ v, st.vouchers k = some v ∧ v.usedAt = none ∧
    tx.startedAt < v.expiresAt
  unused : ∀ k, (∀ v, st.vouchers k = some v → v.usedAt = none) → redeemers k st.log = []
  used : ∀ k v t, st.vouchers k = some v → v.usedAt = some t → ∃ tx row,
    redeemers k st.log = [tx] ∧ tx.burned = [k] ∧ tx.rows = [row] ∧ tx.startedAt = t ∧
      t < v.expiresAt
  once : ∀ p b, w p = some b → ¬ (b.done = true ∧ b.failed = true)

theorem Redeem.next_once {b : Redeem} {e : Ev IntakeWorld} (hok : b.Allows e.1)
    (h : ¬ (b.done = true ∧ b.failed = true)) :
    ¬ ((b.next e).done = true ∧ (b.next e).failed = true) := by
  have hexclusive : commitsClaim e = true → redeemFails e = false := by
    obtain ⟨o, a⟩ := e
    cases o <;> simp +contextual [commitsClaim, redeemFails]
  have hdone : redeemFails e = true → b.done = false := by
    obtain ⟨o, a⟩ := e
    cases o with
    | begin | insert new group | commit => exact fun _ => hok.1
    | voucherState keyHash | txBurn keyHash | txInsert new group => exact fun _ => hok
    | _ => exact nofun
  have hsound : commitsClaim e = true → b.failed = false := by
    obtain ⟨o, a⟩ := e
    cases o with
    | insert new group => exact fun _ => hok.2
    | commit => exact fun _ => hok.2.1
    | _ => exact nofun
  rintro ⟨hd, hf⟩
  rcases Bool.or_eq_true_iff.mp hd with hd | hd <;> rcases Bool.or_eq_true_iff.mp hf with hf | hf
  · exact h ⟨hd, hf⟩
  · rw [hdone hf] at hd
    cases hd
  · rw [hsound hd] at hf
    cases hf
  · rw [hexclusive hd] at hf
    cases hf

namespace VoucherInv

variable {st st' : IntakeState} {w : Nat → Option Redeem} {p : Nat} {b b' : Redeem}

theorem underway (hi : VoucherInv st w) :
    Underway IntakeTx.owner IntakeTx.burned Redeem.Knows st.txs w :=
  ⟨hi.known, hi.single, hi.sole⟩

theorem once_update (hi : VoucherInv st w) (hb' : ¬ (b'.done = true ∧ b'.failed = true)) :
    ∀ q c, update w p (some b') q = some c → ¬ (c.done = true ∧ c.failed = true) := by
  intro q c hc
  rcases of_update hc with ⟨rfl, ⟨⟩⟩ | ⟨-, hc⟩
  · exact hb'
  · exact hi.once q c hc

/-- The transaction of `p` is changed, and `p` knows how. -/
theorem change (hi : VoucherInv st w) (hb : w p = some b) (f : IntakeTx → IntakeTx)
    (howner : ∀ tx, (f tx).owner = tx.owner) (hstarted : ∀ tx, (f tx).startedAt = tx.startedAt)
    (hknows : ∀ tx, b.Knows tx → b'.Knows (f tx))
    (hburned : ∀ tx ∈ st.txs, tx.owner = p → ∀ k ∈ (f tx).burned, k ∈ tx.burned ∨
      st.keyFree p k = true ∧ st.voucherRedeemable tx.startedAt k = true)
    (honce : ¬ (b'.done = true ∧ b'.failed = true)) (htxs : st'.txs = (st.inTx p f).txs)
    (hvouchers : st'.vouchers = st.vouchers) (hlog : st'.log = st.log) :
    VoucherInv st' (update w p (some b')) := by
  have hunderway := hi.underway.change hb howner (fun tx _ _ => hknows tx)
    (fun tx htx hp k hk => (hburned tx htx hp k hk).imp_right fun h tx' htx' hk' =>
      IntakeState.owner_of_keyFree h.1 htx' hk') htxs
  refine ⟨hunderway.known, hunderway.single, hunderway.sole, fun tx' htx' k hk => ?_,
    by rw [hvouchers, hlog]; exact hi.unused, by rw [hvouchers, hlog]; exact hi.used,
    hi.once_update honce⟩
  rw [htxs] at htx'
  obtain ⟨tx, htx, rfl⟩ := List.mem_map.mp htx'
  rw [hvouchers]
  -- what a changed transaction has burned it had burned before, or it is redeemable
  have hcases : k ∈ tx.burned ∨ st.voucherRedeemable tx.startedAt k = true := by
    split at hk
    · next hp => exact (hburned tx htx hp k hk).imp_right And.right
    · exact Or.inl hk
  have hstarted' : (if tx.owner = p then f tx else tx).startedAt = tx.startedAt := by
    split
    · exact hstarted tx
    · rfl
  rw [hstarted']
  rcases hcases with hk | hredeem
  · exact hi.live tx htx k hk
  · unfold IntakeState.voucherRedeemable at hredeem
    obtain ⟨v, hv, hgood⟩ := Option.any_eq_true _ _ |>.mp hredeem
    simp only [Bool.and_eq_true, Option.isNone_iff_eq_none, decide_eq_true_eq] at hgood
    exact ⟨v, hv, hgood.1, hgood.2⟩

/-- Some transactions are gone, and every claim that still has one is as it was. -/
theorem shrink (hi : VoucherInv st w) {w' : Nat → Option Redeem}
    (hw : ∀ tx ∈ st'.txs, w' tx.owner = w tx.owner)
    (honce : ∀ p b, w' p = some b → ¬ (b.done = true ∧ b.failed = true))
    (htxs : ∀ tx ∈ st'.txs, tx ∈ st.txs) (hvouchers : st'.vouchers = st.vouchers)
    (hlog : st'.log = st.log) : VoucherInv st' w' := by
  obtain ⟨known, single, sole⟩ := hi.underway.shrink htxs hw fun _ _ _ h => h
  refine ⟨known, single, sole, ?_, ?_, ?_, honce⟩ <;> rw [hvouchers]
  · exact fun tx htx => hi.live tx (htxs tx htx)
  · exact hlog ▸ hi.unused
  · exact hlog ▸ hi.used

/-- A transaction is begun. -/
theorem opened (hi : VoucherInv st w) (hfree : st.tx? p = none) (htx : b'.tx = some ([], 0))
    (honce : ¬ (b'.done = true ∧ b'.failed = true)) :
    VoucherInv (st.opened p) (update w p (some b')) := by
  obtain ⟨known, single, sole⟩ := hi.underway.opened ⟨p, st.db.now, [], [], []⟩
    (fun _ => IntakeState.owner_of_tx?_none hfree) rfl (b := b') ⟨by simp [htx], fun _ => htx⟩
  refine ⟨known, single, sole, fun tx hmem k hk => ?_, hi.unused, hi.used, hi.once_update honce⟩
  rcases List.mem_cons.mp hmem with rfl | hmem
  · cases hk
  · exact hi.live tx hmem k hk

/-- A transaction that its claim may commit is committed. -/
theorem committed (hi : VoucherInv st w) {tx : IntakeTx} (htx : st.tx? p = some tx)
    (hone : tx.burned = [] ∨ ∃ k row, tx.burned = [k] ∧ tx.rows = [row])
    (honce : ¬ (b'.done = true ∧ b'.failed = true)) :
    VoucherInv (st.committed p tx db) (update w p (some b')) := by
  obtain ⟨hmem, howner⟩ := IntakeState.tx?_mem htx
  have hrest : ∀ tx' ∈ (st.committed p tx db).txs, tx' ∈ st.txs ∧ tx'.owner ≠ p :=
    fun tx' => IntakeState.mem_close.mp
  obtain ⟨known, single, sole⟩ := hi.underway.shrink (fun tx' h => (hrest tx' h).1)
    (fun tx' h => update_of_ne (hrest tx' h).2 (some b') w) fun _ _ _ h => h
  refine ⟨known, single, sole, ?_, ?_, ?_, hi.once_update honce⟩
  · intro tx' hmem' k hk
    obtain ⟨hmem', hne⟩ := hrest tx' hmem'
    -- the voucher is not one of those that were just spent
    have hnot : k ∉ tx.burned := fun hk' =>
      hne ((hi.sole tx' hmem' tx hmem k hk hk').trans howner)
    simp only [IntakeState.committed, IntakeState.spend, if_neg hnot]
    exact hi.live tx' hmem' k hk
  · intro k hall
    by_cases hk : k ∈ tx.burned
    · obtain ⟨v, hv, -⟩ := hi.live tx hmem k hk
      have := hall { v with usedAt := some tx.startedAt }
        (by simp [IntakeState.committed, IntakeState.spend, hk, hv])
      cases this
    · simp only [IntakeState.committed, IntakeState.spend, if_neg hk] at hall
      simpa [IntakeState.committed, redeemers, hk] using hi.unused k hall
  · intro k v t hv ht
    by_cases hk : k ∈ tx.burned
    · obtain ⟨v₀, hv₀, hfresh, hlt⟩ := hi.live tx hmem k hk
      simp only [IntakeState.committed, IntakeState.spend, if_pos hk, hv₀, Option.map_some,
        Option.some.injEq] at hv
      subst hv
      obtain rfl : tx.startedAt = t := Option.some.inj ht
      rcases hone with hnone | ⟨k', row, hburned, hrows⟩
      · rw [hnone] at hk
        cases hk
      · obtain rfl : k = k' := by simpa [hburned] using hk
        have hempty := hi.unused k fun v hv => by
          rw [hv₀, Option.some.injEq] at hv
          exact hv ▸ hfresh
        refine ⟨tx, row, ?_, hburned, hrows, rfl, hlt⟩
        simpa [IntakeState.committed, redeemers, hk] using hempty
    · simp only [IntakeState.committed, IntakeState.spend, if_neg hk] at hv
      simpa [IntakeState.committed, redeemers, hk] using hi.used k v t hv ht

theorem op {device : Bytes → Nat} {a : o.Ans} (hi : VoucherInv st w) (hb : w p = some b)
    (hok : b.Allows o) (hdoes : IntakeAsk.Does device p st o a st') :
    VoucherInv st' (update w p (some (b.next ⟨o, a⟩))) := by
  have honce := Redeem.next_once (e := ⟨o, a⟩) hok (hi.once p b hb)
  have hclosed : ∀ tx ∈ (st.close p).txs,
      update w p (some (b.next ⟨o, a⟩)) tx.owner = w tx.owner := fun tx htx =>
    update_of_ne (IntakeState.mem_close.mp htx).2 ..
  cases hdoes.txMove with
  | kept event txs vouchers log _ =>
    refine hi.change hb id (fun _ => rfl) (fun _ => rfl) (fun tx h => h.quiet hok event)
      (fun tx _ _ k hk => Or.inl hk) honce ?_ vouchers log
    rw [txs]
    simp [IntakeState.inTx]
  | opened event free now =>
    obtain ⟨rfl, rfl⟩ := Sigma.mk.inj event
    subst now
    exact hi.opened free rfl honce
  | burned keyHash tx event found redeemable free now =>
    subst now
    refine hi.change hb (fun tx => { tx with burned := keyHash :: tx.burned }) (fun _ => rfl)
      (fun _ => rfl) (fun tx h => h.burned event) ?_ honce rfl rfl rfl
    intro tx' htx' howner k hk
    obtain ⟨hmem, howner'⟩ := IntakeState.tx?_mem found
    obtain rfl := hi.single tx' htx' tx hmem (howner.trans howner'.symm)
    rcases List.mem_cons.mp hk with rfl | hk
    · exact Or.inr ⟨free, redeemable⟩
    · exact Or.inl hk
  | inserted new group event now =>
    subst now
    exact hi.change hb (fun tx => { tx with rows := st.txRow tx new group :: tx.rows })
      (fun _ => rfl) (fun _ => rfl) (fun tx h => h.inserted event _)
      (fun tx _ _ k hk => Or.inl hk) honce rfl rfl rfl
  | recorded hmac id event now =>
    subst now
    exact hi.change hb (fun tx => { tx with devices := (hmac, id) :: tx.devices }) (fun _ => rfl)
      (fun _ => rfl) (fun tx h => h.recorded event _) (fun tx _ _ k hk => Or.inl hk) honce rfl rfl
      rfl
  | closed event commits now =>
    subst now
    exact hi.shrink hclosed (hi.once_update honce) (fun tx h => (IntakeState.mem_close.mp h).1)
      rfl rfl
  | committed tx db event _ found _ now =>
    subst now
    obtain rfl : o = .commit := event
    refine hi.committed found ?_ honce
    -- what the claim may commit is what it knows its transaction to be
    obtain ⟨hmem, rfl⟩ := IntakeState.tx?_mem found
    obtain ⟨-, hsound, keys, rows, htx, hkeys⟩ := hok
    have hsame := ((hi.underway.knows hb hmem).same hsound).symm.trans htx
    obtain ⟨rfl, rfl⟩ := Prod.mk.inj (Option.some.inj hsame)
    refine hkeys.imp_right ?_
    rintro ⟨k, hk, hrows⟩
    obtain ⟨row, hrow⟩ := List.length_eq_one_iff.mp hrows
    exact ⟨k, row, hk, hrow⟩

theorem env (hi : VoucherInv st w) (e : IntakeEvent) : VoucherInv (e.act st) w := by
  cases e with
  | tick d => exact hi.shrink (fun _ _ => rfl) hi.once (fun _ h => h) rfl rfl
  | connectionLost p =>
    exact hi.shrink (fun _ _ => rfl) hi.once (fun _ h => (IntakeState.mem_close.mp h).1) rfl rfl
  | others db challenges => exact hi.shrink (fun _ _ => rfl) hi.once (fun _ h => h) rfl rfl
  | mint keyHash expiresAt =>
    simp only [IntakeEvent.act]
    split
    · exact hi
    · next hnone =>
      have hnone : st.vouchers keyHash = none := by simpa using hnone
      refine ⟨hi.known, hi.single, hi.sole, ?_, ?_, ?_, hi.once⟩
      · intro tx htx k hk
        obtain ⟨v, hv, hrest⟩ := hi.live tx htx k hk
        have hne : k ≠ keyHash := by
          rintro rfl
          rw [hnone] at hv
          cases hv
        exact ⟨v, (update_of_ne hne ..).trans hv, hrest⟩
      · intro k hall
        rcases eq_or_ne k keyHash with rfl | hne
        · exact hi.unused k fun v hv => by
            rw [hnone] at hv
            cases hv
        · simp only [update_of_ne hne] at hall
          exact hi.unused k hall
      · intro k v t hv ht
        rcases eq_or_ne k keyHash with rfl | hne
        · obtain rfl : ⟨none, expiresAt⟩ = v := by simpa using hv
          cases ht
        · exact hi.used k v t ((update_of_ne hne ..).symm.trans hv) ht

end VoucherInv

/-! ### Whole runs -/

/-- Tables before the first claim: no transaction is open or has committed, no voucher is used. -/
structure IntakeState.Unredeemed (st : IntakeState) : Prop where
  txs : st.txs = []
  log : st.log = []
  vouchers : ∀ k v, st.vouchers k = some v → v.usedAt = none

section Runs

variable {ext : GateExt} {device : Bytes → Nat} {Served : GateConfig → ClaimRequest → Prop}
  {st₀ : IntakeState} {ls : List (Label IntakeWorld IntakeEvent)}
  {s t : IntakeSys}

theorem redeems_bound (st₀ : IntakeState) :
    Bound (Intake ext device Served) st₀ redeems Redeem.start where
  boot := by
    rintro p prog ⟨config, req, -, rfl⟩
    refine Prog.Sat.mono ?_ register_redeems
    intros
    trivial
  adm _ _ _ _ _ _ _ _ := trivial

theorem reachable_voucherInv (h₀ : st₀.Unredeemed)
    (r : Reachable (Intake ext device Served) st₀ ls s) :
    VoucherInv s.st (s.watch redeems Redeem.start) := by
  refine Reachable.inv (redeems_bound st₀) (fun _ st w => VoucherInv st w) ?_ ⟨?_, ?_, ?_, ?_⟩ r
  · constructor
    · simp [h₀.txs]
    · simp [h₀.txs]
    · simp [h₀.txs]
    · simp [h₀.txs]
    · simp [h₀.log, redeemers]
    · intro k v t hv ht
      rw [h₀.vouchers k v hv] at ht
      cases ht
    · exact nofun
  · intro _ _ _ _ _ _ _ _ hi hb hok hdone
    exact hi.op hb hok hdone
  · rintro _ _ e _ _ hi rfl
    exact hi.env e
  · intro _ s p _ hi hdead
    refine hi.shrink (fun tx htx => ?_) (hi.once_update (by simp [Redeem.start])) (fun _ h => h)
      rfl rfl
    obtain ⟨b, hb, -⟩ := hi.known tx htx
    have hne : tx.owner ≠ p := by
      rintro rfl
      rw [hdead] at hb
      cases hb
    rw [update_of_ne hne]
  · rintro _ s p _ _ hi rfl
    refine hi.shrink (fun tx htx => update_of_ne (IntakeState.mem_close.mp htx).2 ..)
      (fun q b hb => ?_) (fun _ h => (IntakeState.mem_close.mp h).1) rfl rfl
    exact hi.once q b (of_update_none hb).2

/-! ### What a commit puts into the table -/

variable {db' : Db}

theorem Db.addRow_rows {row : Row} (h : db.addRow row = some db') : db'.rows = row :: db.rows := by
  unfold Db.addRow at h
  split at h
  · rw [← Option.some.inj h]
  · cases h

theorem Db.insertPending_rows {id : Nat} (h : (db.insertPending hmac id).toOption = some db') :
    db'.rows = db.rows := by
  unfold Db.insertPending at h
  split at h
  · cases h
  · rw [← Option.some.inj h]

theorem IntakeTx.apply_rows {tx : IntakeTx} (h : tx.apply db = some db') :
    db'.rows = tx.rows.reverse ++ db.rows := by
  have hrows : ∀ (rows : List Row) (db db' : Db), rows.foldlM Db.addRow db = some db' →
      db'.rows = rows.reverse ++ db.rows := by
    intro rows
    induction rows with
    | nil => rintro db db' ⟨⟩; rfl
    | cons row rows ih =>
      intro db db' h
      rw [List.foldlM_cons] at h
      obtain ⟨db₁, h₁, h₂⟩ := Option.bind_eq_some_iff.mp h
      simp [ih db₁ db' h₂, Db.addRow_rows h₁]
  have hdevices : ∀ (devices : List (FixedBytes 32 × Nat)) (db db' : Db),
      devices.foldlM (fun db d => (db.insertPending d.1 d.2).toOption) db = some db' →
      db'.rows = db.rows := by
    intro devices
    induction devices with
    | nil => rintro db db' ⟨⟩; rfl
    | cons d devices ih =>
      intro db db' h
      rw [List.foldlM_cons] at h
      obtain ⟨db₁, h₁, h₂⟩ := Option.bind_eq_some_iff.mp h
      rw [ih db₁ db' h₂, Db.insertPending_rows h₁]
  unfold IntakeTx.apply at h
  obtain ⟨db₁, h₁, h₂⟩ := Option.bind_eq_some_iff.mp h
  rw [hdevices _ _ _ h₂, hrows _ _ _ h₁]

/-! ### Vouchers and reservations -/

theorem Redeem.tells (h : List (Ev IntakeWorld)) :
    (h.foldl Redeem.next Redeem.start).failed = h.any redeemFails ∧
      (h.foldl Redeem.next Redeem.start).done = h.any commitsClaim := by
  induction h using List.reverseRecOn with
  | nil => exact ⟨rfl, rfl⟩
  | append_singleton h e ih => simp [List.foldl_append, Redeem.next, ih.1, ih.2]

/-- A step that does not commit leaves the vouchers and the rows alone. -/
theorem TxMove.frame {p : Nat} {st st' : IntakeState} {e : Ev IntakeWorld} (h : TxMove p st e st')
    (hcommits : commitsClaim e = false) :
    st'.vouchers = st.vouchers ∧ st'.db.rows = st.db.rows := by
  cases h with
  | kept _ _ vouchers _ rows => exact ⟨vouchers, rows hcommits⟩
  | opened _ _ now | burned _ _ _ _ _ _ now | inserted _ _ _ now => subst now; exact ⟨rfl, rfl⟩
  | recorded _ _ _ now | closed _ _ now => subst now; exact ⟨rfl, rfl⟩
  | committed _ _ _ commits _ _ _ =>
    rw [hcommits] at commits
    cases commits

/-- A step that changes a voucher commits a transaction that burned it. -/
theorem TxMove.spends {p : Nat} {st st' : IntakeState} {e : Ev IntakeWorld} (h : TxMove p st e st')
    (hchanged : st'.vouchers keyHash ≠ st.vouchers keyHash) :
    ∃ tx db, st.tx? p = some tx ∧ tx.apply st.db = some db ∧ st' = st.committed p tx db ∧
      keyHash ∈ tx.burned := by
  cases h with
  | committed tx db _ _ found applied now =>
    refine ⟨tx, db, found, applied, now, ?_⟩
    by_contra hnot
    refine hchanged ?_
    rw [now]
    simp [IntakeState.committed, IntakeState.spend, hnot]
  | kept _ _ vouchers _ _ => exact absurd (congrFun vouchers keyHash) hchanged
  | opened _ _ now | burned _ _ _ _ _ _ now => subst now; exact absurd rfl hchanged
  | inserted _ _ _ now | recorded _ _ _ now | closed _ _ now => subst now; exact absurd rfl hchanged

/-- The step commits a transaction that burned the voucher `keyHash`, which was unused and not
    expired, and that inserted exactly one reservation. -/
def Redeems (keyHash : FixedBytes 32) (st st' : IntakeState) : Prop :=
  ∃ tx row v, st'.log = tx :: st.log ∧ tx.burned = [keyHash] ∧ tx.rows = [row] ∧
    st'.db.rows = row :: st.db.rows ∧ st.vouchers keyHash = some v ∧ v.usedAt = none ∧
    tx.startedAt < v.expiresAt ∧ st'.vouchers keyHash = some { v with usedAt := some tx.startedAt }

/-- Whatever step of a claim changes a voucher redeems it. -/
theorem changed_redeems (h₀ : st₀.Unredeemed) (r : Reachable (Intake ext device Served) st₀ ls s)
    {p : Nat} {e : Ev IntakeWorld} (d : Step (Intake ext device Served) s (.op p e) t)
    (hchanged : t.st.vouchers keyHash ≠ s.st.vouchers keyHash) : Redeems keyHash s.st t.st := by
  have hi := reachable_voucherInv h₀ r
  have hi' := reachable_voucherInv h₀ (r.snoc d)
  have hmove : TxMove p s.st e t.st := by
    cases d with
    | op live done => exact IntakeAsk.Does.txMove done
  obtain ⟨tx, db, found, applied, now, hburned⟩ := hmove.spends hchanged
  obtain ⟨hmem, howner⟩ := IntakeState.tx?_mem found
  obtain ⟨v, hv, hfresh, hlt⟩ := hi.live tx hmem keyHash hburned
  have hv' : t.st.vouchers keyHash = some { v with usedAt := some tx.startedAt } := by
    rw [now]
    simp [IntakeState.committed, IntakeState.spend, hburned, hv]
  obtain ⟨tx', row, hredeemers, hkeys, hrows, -, -⟩ := hi'.used keyHash _ _ hv' rfl
  have hlog : t.st.log = tx :: s.st.log := by rw [now]; rfl
  -- the one transaction in the log that burned the voucher is the one committed now
  obtain rfl : tx' = tx := by
    have : tx ∈ redeemers keyHash t.st.log := by simp [redeemers, hlog, hburned]
    rw [hredeemers, List.mem_singleton] at this
    exact this.symm
  refine ⟨tx', row, v, hlog, hkeys, hrows, ?_, hv, hfresh, hlt, hv'⟩
  rw [now]
  simpa [IntakeState.committed, hrows] using IntakeTx.apply_rows applied

/-- Of a transaction that was committed every voucher it burned is used, by it alone. -/
theorem VoucherInv.redeemed {st : IntakeState} {w : Nat → Option Redeem} {tx : IntakeTx}
    {k : FixedBytes 32} (hi : VoucherInv st w) (htx : tx ∈ redeemers k st.log) :
    redeemers k st.log = [tx] ∧ ∃ v row, tx.rows = [row] ∧ st.vouchers k = some v ∧
      v.usedAt = some tx.startedAt ∧ tx.startedAt < v.expiresAt := by
  have hused : ¬ ∀ v, st.vouchers k = some v → v.usedAt = none := fun hfresh => by
    rw [hi.unused k hfresh] at htx
    cases htx
  simp only [not_forall] at hused
  obtain ⟨v, hv, hused⟩ := hused
  obtain ⟨t, ht⟩ := Option.ne_none_iff_exists'.mp hused
  obtain ⟨tx', row, hredeemers, -, hrows, rfl, hlt⟩ := hi.used k v t hv ht
  obtain rfl : tx = tx' := by simpa [hredeemers] using htx
  exact ⟨hredeemers, v, row, hrows, hv, ht, hlt⟩

/-- In every interleaving of claims, from tables with no voucher used: a voucher is used exactly if
    a committed transaction burned it; that is the only one, it inserted exactly one reservation, and
    it started before the voucher's expiry; no other kind of step changes a voucher; and a claim in
    which a statement failed or conflicted, other than a commit that took effect, has committed
    nothing, and none of its steps has changed a voucher or a row. -/
theorem vouchers_redeemed_once (h₀ : st₀.Unredeemed)
    (r : Reachable (Intake ext device Served) st₀ ls s) :
    (∀ k v, s.st.vouchers k = some v → (v.usedAt.isSome ↔ ∃ tx ∈ s.st.log, k ∈ tx.burned)) ∧
    (∀ tx ∈ s.st.log, ∀ k ∈ tx.burned, redeemers k s.st.log = [tx] ∧ ∃ v row, tx.rows = [row] ∧
      s.st.vouchers k = some v ∧ v.usedAt = some tx.startedAt ∧ tx.startedAt < v.expiresAt) ∧
    (∀ k, (redeemers k s.st.log).length ≤ 1) ∧
    (∀ p e t, Step (Intake ext device Served) s (.op p e) t →
      (commitsClaim e = false →
        t.st.vouchers = s.st.vouchers ∧ t.st.db.rows = s.st.db.rows) ∧
      ∀ k, t.st.vouchers k ≠ s.st.vouchers k → Redeems k s.st t.st) ∧
    ∀ p h, s.hist p = some h → h.any redeemFails = true → h.any commitsClaim = false := by
  have hi := reachable_voucherInv h₀ r
  have hmem : ∀ {k tx}, tx ∈ redeemers k s.st.log ↔ tx ∈ s.st.log ∧ k ∈ tx.burned := by
    simp [redeemers]
  refine ⟨?_, fun tx htx k hk => hi.redeemed (hmem.mpr ⟨htx, hk⟩), ?_, ?_, ?_⟩
  · intro k v hv
    constructor
    · intro hused
      obtain ⟨t, ht⟩ := Option.isSome_iff_exists.mp hused
      obtain ⟨tx, row, hredeemers, -⟩ := hi.used k v t hv ht
      exact ⟨tx, hmem.mp (hredeemers ▸ List.mem_singleton_self tx)⟩
    · rintro ⟨tx, htx⟩
      obtain ⟨-, v', row, -, hv', hused, -⟩ := hi.redeemed (hmem.mpr htx)
      obtain rfl : v = v' := Option.some.inj (hv.symm.trans hv')
      rw [hused]
      rfl
  · intro k
    cases hredeemers : redeemers k s.st.log with
    | nil => exact Nat.zero_le 1
    | cons tx _ =>
      have hhead : tx ∈ redeemers k s.st.log := by simp [hredeemers]
      rw [← hredeemers, (hi.redeemed hhead).1]
      exact le_rfl
  · intro p e t d
    refine ⟨fun hcommits => ?_, fun k => changed_redeems h₀ r d⟩
    cases d with
    | op live done => exact (IntakeAsk.Does.txMove done).frame hcommits
  · intro p h hh hfails
    have honce := hi.once p (h.foldl Redeem.next Redeem.start) (by simp [Sys.watch, hh, redeems])
    rw [(Redeem.tells h).1, (Redeem.tells h).2, hfails] at honce
    exact Bool.eq_false_iff.mpr fun hdone => honce ⟨hdone, rfl⟩

end Runs

/-! ### A claim with a voucher -/

def voucherHash : FixedBytes 32 :=
  ⟨[110, 221, 187, 12, 26, 4, 83, 32, 206, 209, 251, 177, 22, 178, 90, 227, 154, 46, 247, 78, 197,
    153, 195, 19, 125, 77, 204, 158, 114, 166, 187, 60], rfl⟩

/-- The libraries on the claim below, with the SHA-256 of its voucher. -/
def voucherExt : GateExt where
  toExt := devExt
  describe _ := ""
  sha256 m := if m = utf8 "VOUCHER-1" then voucherHash else ⟨List.replicate 32 0, length_zeros⟩
  hmacSha256 _ _ := ⟨List.replicate 32 0, length_zeros⟩
  verifyChain _ _ := .error "no chain"

def voucherClaim : Incoming fun _ _ => True :=
  ⟨(testConfig none, iosRequest [("lifetimePoUDVoucher", .str "VOUCHER-1")]), trivial⟩

/-- The voucher is minted and the claim comes in. -/
def voucherScript (commit : IntakeHint) :
    List (Move IntakeHint IntakeEvent (Incoming fun _ _ => True)) :=
  .env (.mint voucherHash (seconds 1760000400)) :: .start 0 voucherClaim :: goesOn 0 10 ++
    [.op 0 commit]

def IntakeState.spent (st : IntakeState) (keyHash : FixedBytes 32) : Bool :=
  (st.vouchers keyHash).any fun v => v.usedAt.isSome

def toldPersistenceFailed (s : IntakeSys) : Bool :=
  match s.procs 0 with
  | some ⟨.ret (.error .persistenceFailed, ()), _⟩ => true
  | _ => false

/-- A commit takes effect and its acknowledgement is lost: the claim is told of a database error, and
    the voucher is spent and the reservation is there. -/
theorem lost_commit_spends :
    ∃ ls s, Reachable (Intake voucherExt List.length fun _ _ => True) IntakeState.fresh ls s ∧
      toldPersistenceFailed s = true ∧ s.st.spent voucherHash = true ∧ s.st.db.rows.length = 1 := by
  obtain ⟨ls, s, hr, ht⟩ :=
    (intakePlayer voucherExt List.length fun _ _ => True).reaches IntakeState.fresh
      (voucherScript (.lost "connection reset"))
      (fun _ s => toldPersistenceFailed s && s.st.spent voucherHash && s.st.db.rows.length = 1)
      (by decide +kernel)
  simp only [Bool.and_eq_true, decide_eq_true_eq] at ht
  exact ⟨ls, s, hr, ht.1.1, ht.1.2, ht.2⟩

theorem fresh_unredeemed : IntakeState.fresh.Unredeemed := ⟨rfl, rfl, nofun⟩

theorem voucher_redeemed_smoothly :
    ∃ ls s tx row,
      Reachable (Intake voucherExt List.length fun _ _ => True) IntakeState.fresh ls s ∧
      redeemers voucherHash s.st.log = [tx] ∧ tx.rows = [row] := by
  obtain ⟨ls, s, hr, ht⟩ :=
    (intakePlayer voucherExt List.length fun _ _ => True).reaches IntakeState.fresh
      (voucherScript .smooth) (fun _ s => s.st.spent voucherHash) (by decide +kernel)
  obtain ⟨v, hv, hused⟩ := Option.any_eq_true _ _ |>.mp ht
  obtain ⟨hiff, hredeemed, -⟩ := vouchers_redeemed_once fresh_unredeemed hr
  obtain ⟨tx, htx, hburned⟩ := (hiff voucherHash v hv).mp hused
  obtain ⟨hredeemers, -, row, hrows, -⟩ := hredeemed tx htx voucherHash hburned
  exact ⟨ls, s, tx, row, hr, hredeemers, hrows⟩

end DeviceUniqueness
