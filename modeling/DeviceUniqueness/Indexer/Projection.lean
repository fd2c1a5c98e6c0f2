import DeviceUniqueness.Outbox.Schema

/-! The username projection: what a consumer entry of the People Chain decodes to, the rows it is
    kept as, and the statements that change them.

    One table holds two kinds of rows. A row without a `speculativeFromBlock` is confirmed, and
    only the finalized half of the indexer writes it; a row with one was read at the tip of the
    chain, and is all that speculation may touch. Beside the rows stands one checkpoint: how far
    the finalized chain has been indexed, and which chain that was. -/

namespace DeviceUniqueness.Indexer

abbrev BlockHash := FixedBytes 32

/-! ### SS58 -/

/-- The hash and the alphabet of SS58. -/
structure Ss58Ext where
  blake2b512 : Bytes → Bytes
  bs58 : Bytes → String

inductive Ss58Error where
  | invalidPrefix (network : UInt16)
  deriving DecidableEq

/-- A prefix that fits into two bytes of an address. -/
abbrev Ss58Prefix := { network : UInt16 // network < 16384 }

def validatePrefix (network : UInt16) : Except Ss58Error Ss58Prefix :=
  if h : network < 16384 then .ok ⟨network, h⟩ else .error (.invalidPrefix network)

/-- `ss58::encode`. -/
def ss58Encode (ext : Ss58Ext) (account : Account) (network : UInt16) : Except Ss58Error String := do
  let head : Bytes ←
    if network ≤ 63 then .ok [network.toUInt8]
    else if network ≤ 16383 then
      .ok [((network &&& 0xfc) >>> 2).toUInt8 ||| 0x40,
        (network >>> 8).toUInt8 ||| ((network &&& 3) <<< 6).toUInt8]
    else .error (.invalidPrefix network)
  let payload := head ++ account.1
  let checksum := ext.blake2b512 (utf8 "SS58PRE" ++ payload)
  return ext.bs58 (payload ++ checksum.take 2)

theorem ss58Encode_valid (ext : Ss58Ext) (account : Account) (network : Ss58Prefix) :
    ∃ address, ss58Encode ext account network.1 = .ok address := by
  have hle : network.1 ≤ 16383 := by
    have := network.2
    rw [UInt16.lt_iff_toNat_lt] at this
    rw [UInt16.le_iff_toNat_le]
    exact Nat.le_of_lt_succ this
  rw [ss58Encode]
  split_ifs
  · exact ⟨_, rfl⟩
  · exact ⟨_, rfl⟩

/-- The address of an account, which a prefix that was validated always has. -/
def address (ext : Ss58Ext) (account : Account) (network : Ss58Prefix) : String :=
  match h : ss58Encode ext account network.1 with
  | .ok text => text
  | .error _ => absurd h (by obtain ⟨_, h'⟩ := ss58Encode_valid ext account network; simp [h'])

/-! ### Decoding a consumer -/

/-- A value of `Resources::Consumers`, as far as the projection reads it. -/
structure ConsumerInfo where
  identifierKey : FixedBytes 65
  liteUsername : Bytes
  fullUsername : Option Bytes
  deriving DecidableEq

inductive DecodeError where
  | liteUtf8
  | fullUtf8
  | liteFormat
  | emptyFull
  | nulByte
  deriving DecidableEq, Repr

structure AssignedUsername where
  accountId : Account
  accountIdSs58 : String
  identifierKey : FixedBytes 65
  liteUsername : String
  liteBase : String
  liteDigits : String
  fullUsername : Option String
  displayUsername : String
  snapshotHash : BlockHash
  snapshotNumber : Nat
  deriving DecidableEq

/-- `String::from_utf8`. -/
def fromUtf8 (bytes : Bytes) : Option String := String.fromUTF8? ⟨bytes.toArray⟩

/-- `str::rsplit_once`: around the last separator. -/
def rsplitOnce (sep : Char) : List Char → Option (List Char × List Char)
  | [] => none
  | c :: cs =>
      match rsplitOnce sep cs with
      | some (base, rest) => some (c :: base, rest)
      | none => if c = sep then some ([], cs) else none

/-- The username half of `decode_consumer`: the lite username with its two parts, the full username,
    and the one that is shown. -/
structure Usernames where
  liteUsername : String
  liteBase : String
  liteDigits : String
  fullUsername : Option String
  displayUsername : String

def decodeUsernames (liteUsername : Bytes) (fullUsername : Option Bytes) :
    Except DecodeError Usernames := do
  let some lite := fromUtf8 liteUsername | .error .liteUtf8
  let some (liteBase, liteDigits) := rsplitOnce '.' lite.toList | .error .liteFormat
  if liteBase.isEmpty || liteDigits.isEmpty || !liteDigits.all Char.isDigit then
    .error .liteFormat
  let full ← match fullUsername with
    | none => .ok none
    | some value =>
        match fromUtf8 value with
        | some text => .ok (some text)
        | none => .error .fullUtf8
  if full = some "" then
    .error .emptyFull
  if lite.toList.contains '\x00' || full.any (fun text => text.toList.contains '\x00') then
    .error .nulByte
  return ⟨lite, String.ofList liteBase, String.ofList liteDigits, full, full.getD lite⟩

def decodeConsumer (ext : Ss58Ext) (account : Account) (consumer : ConsumerInfo)
    (network : Ss58Prefix) (snapshotHash : BlockHash) (snapshotNumber : Nat) :
    Except DecodeError AssignedUsername := do
  let names ← decodeUsernames consumer.liteUsername consumer.fullUsername
  return {
    accountId := account
    accountIdSs58 := address ext account network
    identifierKey := consumer.identifierKey
    liteUsername := names.liteUsername
    liteBase := names.liteBase
    liteDigits := names.liteDigits
    fullUsername := names.fullUsername
    displayUsername := names.displayUsername
    snapshotHash
    snapshotNumber }

example : ((decodeUsernames (utf8 "alice.team.007") none).map fun names =>
    (names.liteBase, names.liteDigits, names.displayUsername)) =
    .ok ("alice.team", "007", "alice.team.007") := by decide +kernel

/-! ### The tables -/

/-- `$n::numeric`, of a string of digits. -/
def castNumeric (digits : String) : Nat :=
  digits.toList.foldl (fun n c => 10 * n + (c.toNat - '0'.toNat)) 0

/-- What a row says of its account that the consumer entry alone decides. -/
structure Content where
  identifierKey : FixedBytes 65
  liteUsername : String
  liteBase : String
  liteDigits : Nat
  fullUsername : Option String
  displayUsername : String
  deriving DecidableEq

def Usernames.content (names : Usernames) (identifierKey : FixedBytes 65) : Content :=
  ⟨identifierKey, names.liteUsername, names.liteBase, castNumeric names.liteDigits,
    names.fullUsername, names.displayUsername⟩

def AssignedUsername.content (record : AssignedUsername) : Content :=
  ⟨record.identifierKey, record.liteUsername, record.liteBase, castNumeric record.liteDigits,
    record.fullUsername, record.displayUsername⟩

/-- What the entry decodes to, wherever it was read. -/
def ConsumerInfo.content (consumer : ConsumerInfo) : Option Content :=
  match decodeUsernames consumer.liteUsername consumer.fullUsername with
  | .ok names => some (names.content consumer.identifierKey)
  | .error _ => none

structure Row where
  accountIdSs58 : String
  content : Content
  snapshotHash : BlockHash
  snapshotNumber : Nat
  speculativeFromBlock : Option Nat
  createdAt : Time
  updatedAt : Time
  deriving DecidableEq

def Row.speculative (row : Row) : Bool := row.speculativeFromBlock.isSome

def AssignedUsername.row (record : AssignedUsername) (snapshotNumber : Nat)
    (speculativeFromBlock : Option Nat) (createdAt updatedAt : Time) : Row :=
  ⟨record.accountIdSs58, record.content, record.snapshotHash, snapshotNumber, speculativeFromBlock,
    createdAt, updatedAt⟩

/-- The columns an admission compares and writes: the address, and what the entry decides. -/
def Row.said (row : Row) : String × Content := (row.accountIdSs58, row.content)

def AssignedUsername.said (record : AssignedUsername) : String × Content :=
  (record.accountIdSs58, record.content)

/-- The row of `sync_state`. -/
structure Checkpoint where
  lastFinalizedNumber : Nat
  lastFinalizedHash : BlockHash
  genesisHash : Option BlockHash
  recordsIndexed : Nat
  decodeFailures : Nat
  deriving DecidableEq

/-- `assigned_usernames` by its primary key. -/
abbrev Rows := AList fun _ : Account => Row

/-- `DELETE`, of the rows that do not meet the condition. -/
def Rows.keep (rows : Rows) (p : Row → Bool) : Rows where
  entries := rows.entries.filter fun entry => p entry.2
  nodupKeys := rows.nodupKeys.sublist List.filter_sublist

structure Store where
  rows : Rows
  syncState : Option Checkpoint
  deriving DecidableEq

def Store.empty : Store := ⟨∅, none⟩

/-- A statement that changes the tables. -/
inductive Write where
  | upsert (record : AssignedUsername) (snapshotNumber : Nat)
  | deleteAccount (account : Account)
  | upsertSpeculative (record : AssignedUsername) (bestNumber : Nat)
  | deleteIfSpeculative (account : Account)
  | clearSpeculative
  | deleteRows
  | deleteOtherSnapshots (snapshotHash : BlockHash)
  | deleteCheckpoint
  | adoptCheckpoint (genesisHash : BlockHash)
  | writeCheckpoint (checkpoint : Checkpoint)
  | advanceCheckpoint (number : Nat) (hash : BlockHash) (recordsIndexed decodeFailures : Nat)
  deriving DecidableEq

namespace Store

variable (st : Store) (now : Time)

/-- An update leaves the time of the insert alone. -/
def createdAt (account : Account) : Time := ((st.rows.lookup account).map Row.createdAt).getD now

def upsert (record : AssignedUsername) (snapshotNumber : Nat) : Store :=
  { st with
    rows := st.rows.insert record.accountId
      (record.row snapshotNumber none (st.createdAt now record.accountId) now) }

def deleteAccount (account : Account) : Store := { st with rows := st.rows.erase account }

/-- Whether the insert or its `ON CONFLICT` branch takes effect. -/
def admits (record : AssignedUsername) : Bool :=
  match st.rows.lookup record.accountId with
  | none => true
  | some row => row.speculative &&
      decide ((row.accountIdSs58, row.content) ≠ (record.accountIdSs58, record.content))

/-- The block a speculative row was first admitted at, which is not refreshed. -/
def admittedAt (account : Account) (bestNumber : Nat) : Option Nat :=
  ((st.rows.lookup account).map Row.speculativeFromBlock).getD (some bestNumber)

def upsertSpeculative (record : AssignedUsername) (bestNumber : Nat) : Store :=
  if st.admits record then
    { st with
      rows := st.rows.insert record.accountId
        (record.row bestNumber (st.admittedAt record.accountId bestNumber)
          (st.createdAt now record.accountId) now) }
  else st

/-- The account has a row, and it is speculative. -/
def holdsSpeculative (account : Account) : Bool := (st.rows.lookup account).any Row.speculative

def deleteIfSpeculative (account : Account) : Store :=
  if st.holdsSpeculative account then st.deleteAccount account else st

def finalizedAccounts (accounts : List Account) : List Account :=
  (st.rows.entries.filter fun entry => !entry.2.speculative && accounts.contains entry.1).map
    Sigma.fst

def speculativeAccounts : List Account :=
  (st.rows.entries.filter fun entry => entry.2.speculative).map Sigma.fst

def clearSpeculative : Store := { st with rows := st.rows.keep fun row => !row.speculative }

def deleteOtherSnapshots (snapshotHash : BlockHash) : Store :=
  { st with rows := st.rows.keep fun row => row.snapshotHash = snapshotHash }

def adoptCheckpoint (genesisHash : BlockHash) : Store :=
  { st with syncState := st.syncState.map fun c => { c with genesisHash := some genesisHash } }

def advanceCheckpoint (number : Nat) (hash : BlockHash) (recordsIndexed decodeFailures : Nat) :
    Store :=
  { st with
    syncState := st.syncState.map fun c =>
      { c with
        lastFinalizedNumber := number, lastFinalizedHash := hash, recordsIndexed,
        decodeFailures } }

/-- The tables after the statement. -/
def apply : Write → Store
  | .upsert record snapshotNumber => st.upsert now record snapshotNumber
  | .deleteAccount account => st.deleteAccount account
  | .upsertSpeculative record bestNumber => st.upsertSpeculative now record bestNumber
  | .deleteIfSpeculative account => st.deleteIfSpeculative account
  | .clearSpeculative => st.clearSpeculative
  | .deleteRows => { st with rows := ∅ }
  | .deleteOtherSnapshots snapshotHash => st.deleteOtherSnapshots snapshotHash
  | .deleteCheckpoint => { st with syncState := none }
  | .adoptCheckpoint genesisHash => st.adoptCheckpoint genesisHash
  | .writeCheckpoint checkpoint => { st with syncState := some checkpoint }
  | .advanceCheckpoint number hash recordsIndexed decodeFailures =>
      st.advanceCheckpoint number hash recordsIndexed decodeFailures

/-- `rows_affected`, for the statements that ask for it. -/
def affected : Write → Nat
  | .upsertSpeculative record _ => if st.admits record then 1 else 0
  | .deleteIfSpeculative account => if st.holdsSpeculative account then 1 else 0
  | .clearSpeculative => st.speculativeAccounts.length
  | .deleteRows => st.rows.entries.length
  | _ => 0

/-! ### The two kinds of rows -/

def confirmedRow (account : Account) : Option Row :=
  (st.rows.lookup account).filter fun row => !row.speculative

def pendingRow (account : Account) : Option Row := (st.rows.lookup account).filter Row.speculative

/-- What the confirmed row of the account says. -/
def confirmed (account : Account) : Option Content := (st.confirmedRow account).map Row.content

end Store

/-! ### What each statement does to them -/

namespace Rows

variable (rows : Rows)

theorem lookup_insert (a b : Account) (row : Row) :
    (rows.insert a row).lookup b = if b = a then some row else rows.lookup b := by
  split_ifs with h
  · rw [h]
    exact AList.lookup_insert rows
  · exact AList.lookup_insert_ne h

theorem lookup_erase (a b : Account) :
    (rows.erase a).lookup b = if b = a then none else rows.lookup b := by
  split_ifs with h
  · rw [h]
    exact AList.lookup_erase a rows
  · exact AList.lookup_erase_ne h

theorem lookup_keep (p : Row → Bool) (a : Account) :
    (rows.keep p).lookup a = (rows.lookup a).filter p := by
  refine Option.ext fun row => ?_
  rw [← Option.mem_def, ← Option.mem_def, AList.mem_lookup_iff, Option.mem_filter_iff,
    AList.mem_lookup_iff]
  simp [keep]

end Rows

namespace Store

variable (st : Store) (now : Time) (account : Account)

theorem confirmedRow_upsert (record : AssignedUsername) (n : Nat) :
    (st.upsert now record n).confirmedRow account =
      if account = record.accountId then
        some (record.row n none (st.createdAt now record.accountId) now)
      else st.confirmedRow account := by
  rw [confirmedRow, upsert, Rows.lookup_insert]
  split_ifs <;> rfl

theorem confirmedRow_deleteAccount (gone : Account) :
    (st.deleteAccount gone).confirmedRow account =
      if account = gone then none else st.confirmedRow account := by
  rw [confirmedRow, deleteAccount, Rows.lookup_erase]
  split_ifs <;> rfl

theorem confirmedRow_deleteOtherSnapshots (hash : BlockHash) :
    (st.deleteOtherSnapshots hash).confirmedRow account =
      (st.confirmedRow account).filter fun row => row.snapshotHash = hash := by
  rw [confirmedRow, deleteOtherSnapshots, Rows.lookup_keep, confirmedRow, Option.filter_filter,
    Option.filter_filter]
  simp only [Bool.and_comm]

end Store

/-- The statements of the speculative half. -/
def Write.speculates : Write → Bool
  | .upsertSpeculative .. | .deleteIfSpeculative _ | .clearSpeculative => true
  | _ => false

namespace Store

variable (st : Store) (now : Time) (account : Account)

/-- What is written is speculative, and so is what it may be written over. -/
theorem admittedAt_isSome {record : AssignedUsername} (h : st.admits record = true) (n : Nat) :
    (st.admittedAt record.accountId n).isSome := by
  rw [admits] at h
  rw [admittedAt]
  cases hrow : st.rows.lookup record.accountId with
  | none => rfl
  | some row =>
    rw [hrow, Bool.and_eq_true] at h
    exact h.1

theorem confirmedRow_upsertSpeculative (record : AssignedUsername) (n : Nat) :
    (st.upsertSpeculative now record n).confirmedRow account = st.confirmedRow account := by
  rw [upsertSpeculative]
  split_ifs with hadmits
  · have hspec := st.admittedAt_isSome hadmits n
    rw [confirmedRow, Rows.lookup_insert, confirmedRow]
    split_ifs with h
    · rw [h, Option.filter_some_neg (by simpa [AssignedUsername.row, Row.speculative] using hspec)]
      rw [admits] at hadmits
      cases hrow : st.rows.lookup record.accountId with
      | none => rfl
      | some row =>
        rw [hrow, Bool.and_eq_true] at hadmits
        rw [Option.filter_some_neg (by simp [hadmits.1])]
    · rfl
  · rfl

theorem confirmedRow_deleteIfSpeculative (gone : Account) :
    (st.deleteIfSpeculative gone).confirmedRow account = st.confirmedRow account := by
  rw [deleteIfSpeculative]
  split_ifs with hspec
  · rw [confirmedRow_deleteAccount]
    split_ifs with h
    · rw [h, confirmedRow]
      rw [holdsSpeculative, Option.any_eq_true] at hspec
      obtain ⟨row, hrow, hspec⟩ := hspec
      rw [hrow, Option.filter_some_neg (by simp [hspec])]
    · rfl
  · rfl

theorem confirmedRow_clearSpeculative :
    (st.clearSpeculative).confirmedRow account = st.confirmedRow account := by
  rw [confirmedRow, clearSpeculative, Rows.lookup_keep, Option.filter_filter, confirmedRow]
  simp

/-- Speculation leaves the confirmed rows and the checkpoint alone. -/
theorem apply_speculates {write : Write} (h : write.speculates = true) :
    (∀ account, (st.apply now write).confirmedRow account = st.confirmedRow account) ∧
      (st.apply now write).syncState = st.syncState := by
  cases write with
  | upsertSpeculative record n =>
    refine ⟨fun account => st.confirmedRow_upsertSpeculative now account record n, ?_⟩
    rw [apply, upsertSpeculative]
    split_ifs <;> rfl
  | deleteIfSpeculative gone =>
    refine ⟨fun account => st.confirmedRow_deleteIfSpeculative account gone, ?_⟩
    rw [apply, deleteIfSpeculative]
    split_ifs <;> rfl
  | clearSpeculative => exact ⟨st.confirmedRow_clearSpeculative, rfl⟩
  | _ => cases h

theorem foldl_speculates {writes : List Write} :
    ∀ {st : Store}, (∀ write ∈ writes, write.speculates = true) →
      (∀ account, (writes.foldl (Store.apply · now) st).confirmedRow account =
        st.confirmedRow account) ∧
      (writes.foldl (Store.apply · now) st).syncState = st.syncState := by
  induction writes with
  | nil => exact fun _ => ⟨fun _ => rfl, rfl⟩
  | cons write writes ih =>
    intro st h
    obtain ⟨hrows, hsync⟩ := st.apply_speculates now (h write (List.mem_cons_self ..))
    obtain ⟨hrows', hsync'⟩ := @ih (st.apply now write)
      fun write hmem => h write (List.mem_cons_of_mem _ hmem)
    exact ⟨fun account => (hrows' account).trans (hrows account), hsync'.trans hsync⟩

end Store

end DeviceUniqueness.Indexer
