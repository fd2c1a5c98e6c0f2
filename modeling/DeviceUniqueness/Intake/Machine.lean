import DeviceUniqueness.Intake.Service
import DeviceUniqueness.Schemes.System

/-! Any number of claims being registered at once, on any number of replicas.

    The claims share the tables, Apple's bits and one advisory lock. A transaction writes when it
    commits, except that it takes its row id from the sequence at once, and that a name or a device
    another open transaction is about to write makes an insert wait. It ends with its request, and
    may be lost with its connection at any time; the lock it took is released with it. What the other
    services do to the tables is arbitrary. -/

namespace DeviceUniqueness

open Function Schemes

/-! ### Apple's bits -/

structure BitState where
  bit0 : Bool
  bit1 : Bool
  deriving DecidableEq

def BitState.isRegistered (b : BitState) : Bool := !b.bit0 && b.bit1

/-- Whether a device with these bits, if any, has claimed its free registration. -/
def slotUsed (bits : Option BitState) : Bool := bits.any BitState.isRegistered

/-! ### Tables -/

structure Challenge where
  expiresAt : Time
  consumed : Bool
  deriving DecidableEq

structure Voucher where
  usedAt : Option Time
  expiresAt : Time
  deriving DecidableEq

namespace Db

variable (db : Db)

/-- The row id sequence, which no rollback turns back. -/
def nextval : Nat × Db :=
  (db.nextId,
    { db with
      nextId := db.nextId + 1
      ids_lt := fun row hrow => Nat.lt_succ_of_lt (db.ids_lt row hrow) })

/-- Add a row whose id was taken from the sequence before. -/
def addRow (row : Row) : Option Db :=
  if h : row.id ∉ db.rows.map Row.id ∧ row.id < db.nextId ∧
      row.intake.fullUsername ∉ (db.rows.map fun r => r.intake.fullUsername) ∧
      row.queueGroup ∈ [1, 2, 3, 4] then
    some { db with
      rows := row :: db.rows
      ids_nodup := List.nodup_cons.mpr ⟨h.1, db.ids_nodup⟩
      ids_lt := List.forall_mem_cons.mpr ⟨h.2.1, db.ids_lt⟩
      names_nodup := List.nodup_cons.mpr ⟨h.2.2.1, db.names_nodup⟩
      group_range := List.forall_mem_cons.mpr ⟨h.2.2.2, db.group_range⟩ }
  else none

/-- `u8::from_str`. -/
def parseU8 (s : String) : Option Nat :=
  let digits := match utf8 s with
    | 43 :: rest => rest
    | bs => bs
  if digits.isEmpty || !digits.all isAsciiDigit then none
  else
    let n := digits.foldl (fun n b => 10 * n + (b.toNat - 48)) 0
    if n < 256 then some n else none

def allocatedDiscriminators (base : String) : Option (List Nat) :=
  (db.rows.filter fun row => row.intake.base = base).mapM fun row => parseU8 row.intake.digits

end Db

/-- An open transaction: when it was begun, which is the time of everything it writes, and what it
    will have written. -/
structure IntakeTx where
  owner : Nat
  startedAt : Time
  rows : List Row
  devices : List (FixedBytes 32 × Nat)
  burned : List (FixedBytes 32)
  deriving DecidableEq

def IntakeTx.apply (tx : IntakeTx) (db : Db) : Option Db := do
  let db ← tx.rows.foldlM Db.addRow db
  tx.devices.foldlM (fun db device => (db.insertPending device.1 device.2).toOption) db

/-- Apple's bits are kept by device, vouchers by the hash of their key; `lock` is the owner of the
    transaction that holds the advisory lock. `log` are the transactions committed so far, the last
    one first: nothing reads it. -/
structure IntakeState where
  db : Db
  challenges : FixedBytes 32 → Option Challenge
  vouchers : FixedBytes 32 → Option Voucher
  apple : Nat → Option BitState
  lock : Option Nat
  txs : List IntakeTx
  log : List IntakeTx

namespace IntakeState

variable (st : IntakeState)

def tx? (p : Nat) : Option IntakeTx := st.txs.find? fun tx => tx.owner = p

/-- The transaction of `p` is gone, and with it the lock if it held it. -/
def close (p : Nat) : IntakeState :=
  { st with
    txs := st.txs.filter fun tx => tx.owner ≠ p
    lock := if st.lock = some p then none else st.lock }

def opened (p : Nat) : IntakeState := { st with txs := ⟨p, st.db.now, [], [], []⟩ :: st.txs }

/-- The transaction of `p`, changed. -/
def inTx (p : Nat) (f : IntakeTx → IntakeTx) : IntakeState :=
  { st with txs := st.txs.map fun tx => if tx.owner = p then f tx else tx }

/-- No open transaction of another request is about to write this name. -/
def nameFree (p : Nat) (name : String) : Bool :=
  st.txs.all fun tx => tx.owner = p || tx.rows.all fun row => row.intake.fullUsername ≠ name

def hmacFree (p : Nat) (hmac : FixedBytes 32) : Bool :=
  st.txs.all fun tx => tx.owner = p || tx.devices.all fun d => d.1 ≠ hmac

/-- The mark of the free slot, `(bit0, bit1) = (false, true)`. -/
def mark (device : Nat) : IntakeState :=
  { st with apple := update st.apple device (some ⟨false, true⟩) }

def challengeUsable (challenge : FixedBytes 32) : Bool :=
  (st.challenges challenge).any fun c => !c.consumed && st.db.now < c.expiresAt

def consume (challenge : FixedBytes 32) : IntakeState :=
  if st.challengeUsable challenge then
    { st with
      challenges := update st.challenges challenge
        ((st.challenges challenge).map fun c => { c with consumed := true }) }
  else st

/-- No open transaction of another request has burned the voucher. -/
def keyFree (p : Nat) (keyHash : FixedBytes 32) : Bool :=
  st.txs.all fun tx => tx.owner = p || keyHash ∉ tx.burned

/-- `used_at IS NULL AND expires_at > now()`, at the time of a transaction. -/
def voucherRedeemable (now : Time) (keyHash : FixedBytes 32) : Bool :=
  (st.vouchers keyHash).any fun v => v.usedAt.isNone && now < v.expiresAt

/-- The vouchers once the transaction is committed. -/
def spend (tx : IntakeTx) (keyHash : FixedBytes 32) : Option Voucher :=
  if keyHash ∈ tx.burned then
    (st.vouchers keyHash).map fun v => { v with usedAt := some tx.startedAt }
  else st.vouchers keyHash

/-- The transaction is over, and all it wrote is there. -/
def committed (p : Nat) (tx : IntakeTx) (db : Db) : IntakeState :=
  { st.close p with db := db, vouchers := st.spend tx, log := tx :: st.log }

/-- The row an insert in the transaction will have written. -/
def txRow (tx : IntakeTx) (new : NewReservation) (group : Option Nat) : Row :=
  let row := match group with
    | some group => st.db.newRow new .queued group
    | none => st.db.newRow new .reserved 1
  { row with createdAt := tx.startedAt, updatedAt := tx.startedAt }

end IntakeState

/-! ### Effects -/

/-- What the world does for an operation of request `p`; `device` says which device a token was made
    on. -/
def IntakeAsk.Does (device : Bytes → Nat) (p : Nat) (st : IntakeState) :
    (o : IntakeAsk) → o.Ans → IntakeState → Prop
  | .allocatedDiscriminators base, reply, st' =>
      Reply.Did reply st st' fun out => st.db.allocatedDiscriminators base = some out ∧ st' = st
  | .voucherState keyHash, reply, st' =>
      Reply.Did reply st st' fun out =>
        (out = .unknown ↔ st.vouchers keyHash = none) ∧
        (out = .spent ↔ ∃ v, st.vouchers keyHash = some v ∧ v.usedAt.isSome) ∧ st' = st
  | .consumeChallenge challenge, reply, st' =>
      Reply.Did reply st st' fun out =>
        out = st.challengeUsable challenge ∧ st' = st.consume challenge
  | .deviceSeen hmac, reply, st' =>
      Reply.Did reply st st' fun out => out = (st.db.device? hmac).isSome ∧ st' = st
  | .alreadyUsed token, a, st' =>
      (∀ used, a = .ok used → used = slotUsed (st.apple (device token))) ∧ st' = st
  | .registerDevice token, a, st' =>
      -- an update may have been accepted although the answer did not arrive
      match (a : Except String Unit) with
      | .ok () => st' = st.mark (device token)
      | .error _ => st' = st ∨ st' = st.mark (device token)
  | .insert new group, reply, st' =>
      Reply.Did reply st st' fun out =>
        match out with
        | .ok id => st.nameFree p new.fullUsername ∧
            ∃ db, st.db.insertReservation new group = .ok (id, db) ∧ st' = { st with db := db }
        | .error e => st.db.insertReservation new group = .error e ∧ st' = st
  | .begin, reply, st' =>
      match (reply : Reply Unit) with
      | .ok () => st.tx? p = none ∧ st' = st.opened p
      | .lost .. | .refused _ => st' = st
  | .txLock, reply, st' =>
      Reply.Did reply st st' fun _ =>
        (st.tx? p).isSome ∧ st.lock = none ∧ st' = { st with lock := some p }
  | .txBurn keyHash, reply, st' =>
      -- a voucher that another transaction has burned is waited for
      Reply.Did reply st st' fun out =>
        ∃ tx, st.tx? p = some tx ∧
        out = (st.voucherRedeemable tx.startedAt keyHash && keyHash ∉ tx.burned) ∧
        if out then st.keyFree p keyHash ∧
          st' = st.inTx p fun tx => { tx with burned := keyHash :: tx.burned }
        else st' = st
  | .txInsert new group, reply, st' =>
      Reply.Did reply st st' fun out =>
        ∃ tx, st.tx? p = some tx ∧
        match out with
        | .ok id => st.nameFree p new.fullUsername ∧ id = st.db.nextId ∧
            (∃ db, st.db.insertReservation new group = .ok (id, db)) ∧
            st' = { st.inTx p (fun tx => { tx with rows := st.txRow tx new group :: tx.rows }) with
              db := st.db.nextval.2 }
        | .error e => st.db.insertReservation new group = .error e ∧ st' = st
  | .txInsertPending hmac id, reply, st' =>
      Reply.Did reply st st' fun out =>
        (st.tx? p).isSome ∧
        match out with
        | .ok () => st.hmacFree p hmac ∧ st.db.device? hmac = none ∧
            st' = st.inTx p fun tx => { tx with devices := (hmac, id) :: tx.devices }
        | .error .seen => (st.db.device? hmac).isSome ∧ st' = st
  | .commit, reply, st' =>
      match (reply : Reply Unit) with
      | .ok () | .lost .. => ∃ tx db, st.tx? p = some tx ∧ tx.apply st.db = some db ∧
          st' = st.committed p tx db
      | .refused _ => st' = st.close p
  | .rollback, _, st' => st' = st.close p
  | _, _, st' => st' = st

/-! ### What a reply says -/

def isErr {ε α : Type} : Except ε α → Bool
  | .error _ => true
  | .ok _ => false

/-- Whether a statement was done, and a row inserted by it. -/
def Reply.inserted {ε : Type} : Reply (Except ε Nat) → Bool
  | .ok (.ok _) | .lost (.ok _) _ => true
  | _ => false

def Reply.done {α : Type} : Reply α → Bool
  | .ok _ | .lost .. => true
  | .refused _ => false

/-- The step puts a reservation into the table. -/
def commitsClaim : Ev IntakeWorld → Bool
  | ⟨.insert .., reply⟩ => reply.inserted
  | ⟨.commit, reply⟩ => reply.done
  | _ => false

/-! ### The machine -/

/-- What else happens: the clock of the database moves on, a connection is lost with the transaction
    on it, vouchers are minted, the other services change the outbox and the challenges. -/
inductive IntakeEvent where
  | tick (d : Nat)
  | connectionLost (p : Nat)
  | mint (keyHash : FixedBytes 32) (expiresAt : Time)
  | others (db : Db) (challenges : FixedBytes 32 → Option Challenge)

def IntakeEvent.act (st : IntakeState) : IntakeEvent → IntakeState
  | .tick d => { st with db := st.db.tick d }
  | .connectionLost p => st.close p
  | .mint keyHash expiresAt =>
      -- the hash is the primary key
      if (st.vouchers keyHash).isSome then st
      else { st with vouchers := update st.vouchers keyHash (some ⟨none, expiresAt⟩) }
  | .others db challenges => { st with db, challenges }

/-- `Served` are the requests that come in, each with the configuration of the replica it comes to. -/
def Intake (ext : GateExt) (device : Bytes → Nat) (Served : GateConfig → ClaimRequest → Prop) :
    Machine IntakeWorld IntakeState IntakeEvent (Except UsernamesError ClaimResponse × Unit) where
  exec p o st a st' := IntakeAsk.Does device p st o a st'
  env e st st' := st' = e.act st
  boot _ prog := ∃ config req, Served config req ∧ prog = register ext config req ()
  die p st st' := st' = st.close p

abbrev IntakeSys := Sys IntakeWorld IntakeState (Except UsernamesError ClaimResponse × Unit)

end DeviceUniqueness
