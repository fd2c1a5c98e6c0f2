import DeviceUniqueness.Schemes.Keyed
import DeviceUniqueness.Schemes.Lease

/-! The tables the services share: the reservation outbox, the Widevine device records and the
    leases, with the constraints their schema puts on them.

    A reservation row carries two state machines, the People registration (`status`) and the dotNS
    reservation (`dotnsStatus`). What the client sent (`intake`) and the primary key never change
    after the insert, so the schema's keys survive every update and are fields of `Db`: a table
    with two rows of one id, of one full username, or two records of one device, cannot be built. -/

namespace DeviceUniqueness

open Schemes

abbrev Bytes := List UInt8

/-- `str::as_bytes`. -/
def utf8 (s : String) : Bytes := s.toUTF8.data.toList

theorem utf8_eq (s : String) : utf8 s = s.toList.flatMap String.utf8EncodeChar := by
  rw [utf8, String.toUTF8, ← String.utf8Encode_toList, List.utf8Encode]
  simp

theorem utf8_injective : Function.Injective utf8 := fun _ _ h =>
  String.toByteArray_inj.mp (ByteArray.ext (Array.toList_inj.mp h))

/-- A byte array of fixed width, `[u8; n]`. -/
abbrev FixedBytes (n : Nat) := { bs : Bytes // bs.length = n }

abbrev Account := FixedBytes 32

instance lawfulBEq_bytes : LawfulBEq Bytes := inferInstance

instance lawfulBEq_account : LawfulBEq Account := inferInstance

theorem length_zeros : (List.replicate 32 (0 : UInt8)).length = 32 := rfl

/-- A point in time, in microseconds. -/
abbrev Time := Int

def seconds (n : Int) : Time := n * 1000000

/-- `as i64`, of a `u64`. -/
def asI64 (n : Nat) : Int := (BitVec.ofNat 64 n).toInt

/-- The People half of a row. -/
inductive Status where
  | queued
  | reserved
  | submitting
  | assigned
  | retryAfter
  | failedTerminal
  deriving DecidableEq, Repr

/-- The dotNS half of a row; a row whose request carried no dotNS block has none. -/
inductive DotnsStatus where
  | pending
  | submitting
  | reserved
  | retryAfter
  | failedTerminal
  | expired
  | abandoned
  deriving DecidableEq, Repr

structure NewReservation where
  accountId : String
  candidateAccountId : String
  base : String
  digits : String
  fullUsername : String
  candidateSignature : Bytes
  ringVrfKey : Bytes
  proofOfOwnership : Bytes
  consumerRegistrationSignature : Bytes
  identifierKey : Bytes
  dotnsSignature : Option Bytes
  dotnsSignedAt : Option Int
  reservedUsername : Option String
  payloadVersion : Nat
  deriving DecidableEq

/-- A stored reservation. `intake` is what was inserted; the rest is bookkeeping. -/
structure Row where
  id : Nat
  intake : NewReservation
  createdAt : Time
  status : Status
  queueGroup : Nat
  txHash : Option String
  nonce : Option Nat
  attempt : Int
  notBefore : Option Time
  lastError : Option String
  submittedAt : Option Time
  updatedAt : Time
  dotnsStatus : Option DotnsStatus
  dotnsTxHash : Option String
  dotnsAttempt : Int
  dotnsNotBefore : Option Time
  dotnsLastError : Option String
  deriving DecidableEq

/-- The columns the writer reads. -/
structure Reservation where
  id : Nat
  fullUsername : String
  candidateAccountId : String
  candidateSignature : Bytes
  ringVrfKey : Bytes
  proofOfOwnership : Bytes
  consumerRegistrationSignature : Bytes
  identifierKey : Bytes
  reservedUsername : Option String
  attempt : Int
  dotnsSignature : Option Bytes
  dotnsSignedAt : Option Int
  dotnsAttempt : Int
  payloadVersion : Nat
  createdAt : Time
  deriving DecidableEq

def rowToReservation (row : Row) : Reservation where
  id := row.id
  fullUsername := row.intake.fullUsername
  candidateAccountId := row.intake.candidateAccountId
  candidateSignature := row.intake.candidateSignature
  ringVrfKey := row.intake.ringVrfKey
  proofOfOwnership := row.intake.proofOfOwnership
  consumerRegistrationSignature := row.intake.consumerRegistrationSignature
  identifierKey := row.intake.identifierKey
  reservedUsername := row.intake.reservedUsername
  attempt := row.attempt
  dotnsSignature := row.intake.dotnsSignature
  dotnsSignedAt := row.intake.dotnsSignedAt
  dotnsAttempt := row.dotnsAttempt
  payloadVersion := row.intake.payloadVersion
  createdAt := row.createdAt

@[simp] theorem rowToReservation_id (row : Row) : (rowToReservation row).id = row.id := rfl

inductive DeviceStatus where
  | pending
  | consumed
  deriving DecidableEq, Repr

/-- One pseudonymized physical device; `reservationId` is set only while a claim is in flight. -/
structure Device where
  hmac : FixedBytes 32
  status : DeviceStatus
  reservationId : Option Nat
  deriving DecidableEq

/-- What a writer holds to prove its lease. -/
structure Guard where
  leaseName : String
  holderId : String
  epoch : Nat
  deriving DecidableEq

/-- The tables, the database clock and the sequence of row ids. -/
@[ext] structure Db where
  now : Time
  nextId : Nat
  rows : List Row
  devices : List Device
  leases : String → Option (Lease String Time)
  ids_nodup : (rows.map Row.id).Nodup
  ids_lt : ∀ row ∈ rows, row.id < nextId
  names_nodup : (rows.map fun row => row.intake.fullUsername).Nodup
  group_range : ∀ row ∈ rows, row.queueGroup ∈ [1, 2, 3, 4]
  hmacs_nodup : (devices.map Device.hmac).Nodup

/-- Nothing registered yet. -/
def Db.empty (now : Time) : Db where
  now := now
  nextId := 1
  rows := []
  devices := []
  leases := fun _ => none
  ids_nodup := List.nodup_nil
  ids_lt := by simp
  names_nodup := List.nodup_nil
  group_range := by simp
  hmacs_nodup := List.nodup_nil

namespace Db

variable (db : Db)

/-! ### Rows by id -/

def row? (id : Nat) : Option Row := db.rows.find? fun row => row.id = id

variable {id : Nat} {f : Row → Row}

theorem row?_eq_some {db : Db} {row : Row} : db.row? id = some row ↔ row ∈ db.rows ∧ row.id = id :=
  find?_keyed db.ids_nodup

theorem row?_id {db : Db} {row : Row} (h : db.row? id = some row) : row.id = id :=
  (row?_eq_some.mp h).2

/-! ### Updates -/

/-- What no update may touch. -/
structure Keeps (f : Row → Row) : Prop where
  id : ∀ row, (f row).id = row.id
  intake : ∀ row, (f row).intake = row.intake
  group : ∀ row, row.queueGroup ∈ [1, 2, 3, 4] → (f row).queueGroup ∈ [1, 2, 3, 4]

theorem Keeps.ite (hf : Keeps f) (p : Row → Bool) :
    Keeps fun row => if p row then f row else row where
  id row := by split <;> simp [hf.id]
  intake row := by split <;> simp [hf.intake]
  group row h := by split; exacts [hf.group row h, h]

/-- `UPDATE … SET f` over all rows. -/
def mapRows (f : Row → Row) (hf : Keeps f) : Db :=
  { db with
    rows := db.rows.map f
    ids_nodup := by simpa [Function.comp_def, hf.id] using db.ids_nodup
    ids_lt := by simpa [hf.id] using db.ids_lt
    names_nodup := by simpa [Function.comp_def, hf.intake] using db.names_nodup
    group_range := by
      intro row hrow
      obtain ⟨row', hmem, rfl⟩ := List.mem_map.mp hrow
      exact hf.group row' (db.group_range row' hmem) }

/-- `UPDATE … SET f WHERE p`. -/
def updateWhere (p : Row → Bool) (f : Row → Row) (hf : Keeps f) : Db :=
  db.mapRows (fun row => if p row then f row else row) (hf.ite p)

/-- `rows_affected()`. -/
def affected (p : Row → Bool) : Nat := db.rows.countP p

theorem row?_mapRows {hf : Keeps f} : (db.mapRows f hf).row? id = (db.row? id).map f :=
  find?_map_keyed hf.id db.rows id

theorem row?_updateWhere {p : Row → Bool} (hf : Keeps f) : (db.updateWhere p f hf).row? id =
      (db.row? id).map fun row => if p row then f row else row :=
  db.row?_mapRows

/-- The record of a device, if it has one. -/
def device? (hmac : FixedBytes 32) : Option Device := db.devices.find? fun d => d.hmac = hmac

end Db

end DeviceUniqueness
