import DeviceUniqueness.Indexer.World

/-! The indexer: the snapshot that seeds the projection, the finalized blocks that carry it on, the
    speculative pass over the blocks that are not finalized yet, and the loop that drives them.

    Only one process at a time may change the projection: whoever does holds the projection lock,
    from before it looks at the tables until the function that took the lock is over. -/

namespace DeviceUniqueness.Indexer

open Schemes

inductive ChainError where
  | query (err : String)
  | noBestHeader
  deriving DecidableEq

/-- Run the steps with the lock that was just taken; however they end, it is given back. -/
def locked {σ ε α : Type} (m : Act IndexWorld σ ε α) : Act IndexWorld σ ε α := do
  let out ← Act.attempt m
  let _ ← ask .unlock
  Act.ofExcept out

/-- `i64::try_from`, of a block number. -/
def blockNumberDb {ε : Type} (tooLarge : Nat → ε) (number : Nat) : Except ε Nat :=
  if number < 2 ^ 63 then .ok number else .error (tooLarge number)

section Bootstrap

/-! ### Seeding -/

inductive BootstrapTrigger where
  | freshDatabase
  | chainChanged
  deriving DecidableEq

structure BootstrapReport where
  indexed : Nat
  skipped : Nat
  snapshotNumber : Nat
  trigger : BootstrapTrigger
  deriving DecidableEq

inductive BootstrapError where
  | chain (err : ChainError)
  | storage (err : String)
  | ss58 (err : Ss58Error)
  | snapshotNumber (number : Nat)
  | database (err : String)
  | incompleteScan (iteratorErrors : Nat)
  deriving DecidableEq

inductive CheckpointState where
  | absent
  | usable
  | discarded
  deriving DecidableEq

variable {σ : Type} (ext : IndexExt)

abbrev Seeding (σ : Type) := Act IndexWorld σ BootstrapError

/-- Clear the checkpoint and the projection built from it when they belong to another chain. -/
def reconcileChainIdentity : Seeding σ CheckpointState := do
  let liveGenesis ← ask .genesisHash
  match ← fetch .database (ask .storedGenesis) with
  | none => pure .absent
  | some none =>
      -- the row predates the column: it is adopted
      let _ ← confirm .database (ask (.run (.adoptCheckpoint liveGenesis)))
      pure .usable
  | some (some stored) =>
      if stored = liveGenesis then pure .usable
      else do
        fetch .database (ask .begin)
        let _ ← fetch .database (ask (.exec .deleteCheckpoint))
        let _ ← fetch .database (ask (.exec .deleteRows))
        confirm .database (ask .commit)
        pure .discarded

def upsertBatch (records : List AssignedUsername) (snapshotNumber : Nat) : Seeding σ Unit := do
  fetch .database (ask .begin)
  Act.forEach (fun record => do
    let _ ← fetch .database (ask (.exec (.upsert record snapshotNumber)))
    pure ()) records
  confirm .database (ask .commit)

/-- Where the scan stands. -/
structure Scan where
  batch : List AssignedUsername
  indexed : Nat
  skipped : Nat
  iteratorErrors : Nat

def Scan.skip (scan : Scan) : Scan := { scan with skipped := scan.skipped + 1 }

def Scan.push (scan : Scan) : Except DecodeError AssignedUsername → Scan
  | .ok record => { scan with batch := scan.batch ++ [record] }
  | .error _ => scan.skip

def Scan.flush (scan : Scan) (snapshotNumber : Nat) : Seeding σ Scan := do
  upsertBatch scan.batch snapshotNumber
  pure { scan with batch := [], indexed := scan.indexed + scan.batch.length }

/-- What is left in the batch after the scan. -/
def Scan.finish (scan : Scan) (snapshotNumber : Nat) : Seeding σ Scan :=
  if scan.batch.isEmpty then pure scan else scan.flush snapshotNumber

/-- One turn of the scan. Only an entry whose value decodes reaches the check of the page. -/
def scanItem (pageSize : Nat) (network : Ss58Prefix) (snapshot : BlockRef) (snapshotNumber : Nat)
    (scan : Scan) : ScanItem → Seeding σ Scan
  | .failed _ => pure { scan.skip with iteratorErrors := scan.iteratorErrors + 1 }
  | .badKey _ => pure scan.skip
  | .entry account value =>
      match ext.decodeValue value with
      | .error _ => pure scan.skip
      | .ok consumer =>
          let scan := scan.push
            (decodeConsumer ext.toSs58Ext account consumer network snapshot.hash snapshot.number)
          if scan.batch.length = pageSize then scan.flush snapshotNumber else pure scan

def bootstrapLocked (pageSize : Nat) (trigger : BootstrapTrigger) : Seeding σ BootstrapReport := do
  let snapshot ← fetch (fun err => .chain (.query err)) (ask .currentBlock)
  let snapshotNumber ← Act.ofExcept (blockNumberDb .snapshotNumber snapshot.number)
  let constant ← fetch .storage (ask (.ss58Prefix snapshot.hash))
  let network ← Act.ofExcept ((validatePrefix constant).mapError .ss58)
  let items ← fetch .storage (ask (.consumers snapshot.hash))
  let scan ← Act.fold (scanItem ext pageSize network snapshot snapshotNumber) ⟨[], 0, 0, 0⟩ items
  let scan ← scan.finish snapshotNumber
  if scan.iteratorErrors ≠ 0 then
    Act.fail (.incompleteScan scan.iteratorErrors)
  else
    let _ ← confirm .database (ask (.run (.deleteOtherSnapshots snapshot.hash)))
    let genesisHash ← ask .genesisHash
    let _ ← confirm .database (ask (.run (.writeCheckpoint
      ⟨snapshotNumber, snapshot.hash, some genesisHash, scan.indexed, scan.skipped⟩)))
    pure ⟨scan.indexed, scan.skipped, snapshot.number, trigger⟩

def ensureSeeded (pageSize : Nat) : Seeding σ (Option BootstrapReport) := do
  fetch .database (ask .lock)
  locked do
    match ← reconcileChainIdentity with
    | .usable => pure none
    | .absent =>
        let report ← bootstrapLocked ext pageSize .freshDatabase
        pure (some report)
    | .discarded =>
        let report ← bootstrapLocked ext pageSize .chainChanged
        pure (some report)

end Bootstrap

section Incremental

/-! ### Finalized blocks -/

structure IndexReport where
  fromBlock : Nat
  toBlock : Nat
  blocksProcessed : Nat
  accountsUpserted : Nat
  accountsDeleted : Nat
  decodeFailures : Nat
  deriving DecidableEq

def IndexReport.idle (block : Nat) : IndexReport := ⟨block, block, 0, 0, 0, 0⟩

inductive IndexError where
  | chain (err : ChainError)
  | storage (err : String)
  | ss58 (err : Ss58Error)
  | database (err : String)
  | snapshotNumber (number : Nat)
  deriving DecidableEq

variable {σ : Type} (ext : IndexExt)

abbrev Indexing (σ : Type) := Act IndexWorld σ IndexError

def atBlock (number : Nat) : Indexing σ BlockRef :=
  fetch (fun err => .chain (.query err)) (ask (.atBlock number))

def finalizedHeadNumber : Indexing σ Nat := do
  let block ← fetch (fun err => .chain (.query err)) (ask .currentBlock)
  pure block.number

def fetchEvents (hash : BlockHash) : Indexing σ (List (Except String ChainEvent)) :=
  fetch (fun err => .chain (.query err)) (ask (.events hash))

def networkAt (hash : BlockHash) : Indexing σ Ss58Prefix := do
  let constant ← fetch .storage (ask (.ss58Prefix hash))
  Act.ofExcept ((validatePrefix constant).mapError .ss58)

/-- `events.find`, with what is read from the events found. -/
def findEvents (read : ChainEvent → Option Account) (events : List (Except String ChainEvent)) :
    Except IndexError (List Account) := do
  let decoded ← events.mapM fun event => event.mapError .storage
  return decoded.filterMap read

def accountsFromEvents (events : List (Except String ChainEvent)) :
    Except IndexError (List Account) := do
  let lite ← findEvents (fun | .litePersonRegistered account => some account | _ => none) events
  let person ← findEvents (fun | .personRegistered account => some account | _ => none) events
  let updated ← findEvents (fun | .identifierKeyUpdated account => some account | _ => none) events
  let registered ← findEvents (fun | .consumerRegistered account => some account | _ => none) events
  return lite ++ person ++ updated ++ registered

/-- Through a `BTreeSet`: in order, each account once. -/
def dedupeAccounts (accounts : List Account) : List Account :=
  accounts.dedup.insertionSort fun a b => a.1 ≤ b.1

/-- The consumer entry of an account at a block, and what it decodes to; a value that is no
    `ConsumerInfo` ends the function. -/
def readConsumer (account : Account) (network : Ss58Prefix) (block : BlockRef) :
    Indexing σ (Option (Except DecodeError AssignedUsername)) := do
  match ← fetch .storage (ask (.consumer block.hash account)) with
  | none => pure none
  | some value =>
      let consumer ← Act.ofExcept ((ext.decodeValue value).mapError .storage)
      pure (some (decodeConsumer ext.toSs58Ext account consumer network block.hash block.number))

/-- Upserts, deletes and failures of a block so far. -/
structure BlockCounts where
  upserts : Nat
  deletes : Nat
  failures : Nat

def exec (write : Write) : Indexing σ Nat := fetch .database (ask (.exec write))

def indexAccount (network : Ss58Prefix) (block : BlockRef) (numberDb : Nat) (counts : BlockCounts)
    (account : Account) : Indexing σ BlockCounts := do
  match ← readConsumer ext account network block with
  | some (.ok record) =>
      let _ ← exec (.upsert record numberDb)
      pure { counts with upserts := counts.upserts + 1 }
  | some (.error _) =>
      let _ ← exec (.deleteAccount account)
      pure { counts with failures := counts.failures + 1 }
  | none =>
      let _ ← exec (.deleteAccount account)
      pure { counts with deletes := counts.deletes + 1 }

/-- Index one finalized block, committing its writes and checkpoint atomically. -/
def indexBlock (number : Nat) (report : IndexReport) : Indexing σ IndexReport := do
  let block ← atBlock number
  let numberDb ← Act.ofExcept (blockNumberDb .snapshotNumber block.number)
  let events ← fetchEvents block.hash
  let accounts ← Act.ofExcept (accountsFromEvents events)
  let affected := dedupeAccounts accounts
  if affected.isEmpty then
    fetch .database (ask .begin)
    let _ ← exec (.advanceCheckpoint numberDb block.hash 0 0)
    confirm .database (ask .commit)
    pure report
  else
    let network ← networkAt block.hash
    fetch .database (ask .begin)
    let counts ← Act.fold (indexAccount ext network block numberDb) ⟨0, 0, 0⟩ affected
    let _ ← exec (.advanceCheckpoint numberDb block.hash counts.upserts counts.failures)
    confirm .database (ask .commit)
    pure { report with
      accountsUpserted := report.accountsUpserted + counts.upserts
      accountsDeleted := report.accountsDeleted + counts.deletes
      decodeFailures := report.decodeFailures + counts.failures }

def indexFromCheckpoint (checkpoint headNumber : Nat) : Indexing σ (Option IndexReport) := do
  if headNumber ≤ checkpoint then pure (some (.idle checkpoint))
  else
    let report ← Act.fold (fun report number => do
        let report ← indexBlock ext number report
        pure { report with blocksProcessed := report.blocksProcessed + 1 })
      ⟨checkpoint + 1, headNumber, 0, 0, 0, 0⟩
      (List.range' (checkpoint + 1) (headNumber - checkpoint))
    pure (some report)

def readCheckpoint : Indexing σ (Option Nat) := fetch .database (ask .storedNumber)

def indexFinalizedRangeLocked (headNumber : Nat) : Indexing σ (Option IndexReport) := do
  match ← readCheckpoint with
  | none => pure (some (.idle 0))
  | some checkpoint => indexFromCheckpoint ext checkpoint headNumber

def tryProjectionLock : Indexing σ Bool := fetch .database (ask .tryLock)

/-! ### The speculative window -/

def maxSpeculativeWindow : Nat := 64

inductive SpeculativeWindow where
  | nothing
  | standDown
  | scan (fromBlock toBlock : Nat)
  deriving DecidableEq

def planSpeculativeWindow (finalized best : Nat) : SpeculativeWindow :=
  if best ≤ finalized then .nothing
  else if best - finalized > maxSpeculativeWindow then .standDown
  else .scan (finalized + 1) best

structure SpeculativeReport where
  fromBlock : Nat
  toBlock : Nat
  blocksScanned : Nat
  accountsChecked : Nat
  accountsAdmitted : Nat
  accountsRetracted : Nat
  decodeFailures : Nat
  skippedWideWindow : Bool
  deriving DecidableEq

/-- The accounts one block's events named, and the hash they were read from. -/
structure CachedBlock where
  hash : BlockHash
  accounts : List Account
  deriving DecidableEq

structure SpeculativeCache where
  entries : AList fun _ : Nat => CachedBlock

namespace SpeculativeCache

def new : SpeculativeCache := ⟨∅⟩

def get (cache : SpeculativeCache) (number : Nat) (hash : BlockHash) : Option (List Account) :=
  ((cache.entries.lookup number).filter fun cached => cached.hash = hash).map CachedBlock.accounts

def insert (cache : SpeculativeCache) (number : Nat) (hash : BlockHash) (accounts : List Account) :
    SpeculativeCache :=
  ⟨cache.entries.insert number ⟨hash, accounts⟩⟩

/-- `split_off` keeps the keys from its argument on. -/
def pruneFinalized (cache : SpeculativeCache) (finalized : Nat) : SpeculativeCache where
  entries := ⟨cache.entries.entries.filter fun entry => min (finalized + 1) (2 ^ 64 - 1) ≤ entry.1,
    cache.entries.nodupKeys.sublist List.filter_sublist⟩

end SpeculativeCache

abbrev Speculating := Indexing SpeculativeCache

/-- The accounts the events of a block name, from the cache if the block has not been replaced. -/
def scanBlock (affected : List Account) (number : Nat) : Speculating (List Account) := do
  let block ← atBlock number
  let cache ← Act.get
  match cache.get number block.hash with
  | some accounts => pure (affected ++ accounts)
  | none =>
      let events ← fetchEvents block.hash
      let accounts ← Act.ofExcept (accountsFromEvents events)
      Act.modify fun cache => cache.insert number block.hash accounts
      pure (affected ++ accounts)

def reconcileAccount (network : Ss58Prefix) (block : BlockRef) (numberDb : Nat)
    (report : SpeculativeReport) (account : Account) : Speculating SpeculativeReport := do
  match ← readConsumer ext account network block with
  | some (.ok record) =>
      let affected ← exec (.upsertSpeculative record numberDb)
      pure (if affected > 0 then { report with accountsAdmitted := report.accountsAdmitted + 1 }
        else report)
  | some (.error _) =>
      let report := { report with decodeFailures := report.decodeFailures + 1 }
      let affected ← exec (.deleteIfSpeculative account)
      pure (if affected > 0 then { report with accountsRetracted := report.accountsRetracted + 1 }
        else report)
  | none =>
      let affected ← exec (.deleteIfSpeculative account)
      pure (if affected > 0 then { report with accountsRetracted := report.accountsRetracted + 1 }
        else report)

def reconcileAccounts (head : Nat) (affected : List Account) (report : SpeculativeReport) :
    Speculating SpeculativeReport := do
  let block ← atBlock head
  let numberDb ← Act.ofExcept (blockNumberDb .snapshotNumber block.number)
  let network ← networkAt block.hash
  fetch .database (ask .begin)
  let report ← Act.fold (reconcileAccount ext network block numberDb) report affected
  confirm .database (ask .commit)
  pure report

/-- Over no accounts the statement is not sent. -/
def finalizedAccounts (accounts : List Account) : Indexing σ (List Account) :=
  if accounts.isEmpty then pure [] else fetch .database (ask (.finalizedAccounts accounts))

/-- The blocks to scan, and the report to start from. -/
def speculativePlan (finalized best : Nat) : List Nat × SpeculativeReport :=
  let report : SpeculativeReport := ⟨min (finalized + 1) (2 ^ 64 - 1), best, 0, 0, 0, 0, 0, false⟩
  match planSpeculativeWindow finalized best with
  | .nothing => ([], { report with toBlock := finalized })
  | .standDown => ([], { report with skippedWideWindow := true })
  | .scan fromBlock toBlock => (List.range' fromBlock (toBlock + 1 - fromBlock), report)

def indexSpeculativeWindow (finalized best : Nat) : Speculating SpeculativeReport := do
  let (window, report) := speculativePlan finalized best
  Act.modify fun cache => cache.pruneFinalized finalized
  let named ← Act.fold scanBlock [] window
  let report := { report with blocksScanned := window.length }
  let held ← fetch .database (ask .speculativeAccounts)
  let affected := dedupeAccounts (named ++ held)
  let alreadyFinalized ← finalizedAccounts affected
  let affected := affected.filter fun account => !alreadyFinalized.contains account
  let report := { report with accountsChecked := affected.length }
  if affected.isEmpty then pure report
  else reconcileAccounts ext (max best finalized) affected report

end Incremental

section Loop

/-! ### The sync loop -/

variable (ext : IndexExt)

structure PassReport where
  finalized : IndexReport
  speculative : Option SpeculativeReport

def bestHeadNumber {σ : Type} : Indexing σ Nat := do
  match ← fetch (fun err => .chain (.query err)) (ask .bestHeader) with
  | none => Act.fail (.chain .noBestHeader)
  | some number => pure number

/-- The best head the wake came with, or else the node's. -/
def bestHeadOr {σ : Type} : Option Nat → Indexing σ Nat
  | some best => pure best
  | none => bestHeadNumber

/-- A failure of the speculative half does not fail the pass. -/
def reconcileSpeculative (finalized : Nat) (bestHead : Option Nat) :
    Speculating (Option SpeculativeReport) := do
  match ← Act.attempt (bestHeadOr bestHead) with
  | .error _ => pure none
  | .ok best =>
      match ← Act.attempt (indexSpeculativeWindow ext finalized best) with
      | .ok report => pure (some report)
      | .error _ => pure none

/-- Both halves of a pass, under the lock. -/
def passLocked (finalized : Nat) (bestHead : Option Nat) (speculativeIndexing : Bool) :
    Speculating (Option PassReport) := do
  match ← indexFinalizedRangeLocked ext finalized with
  | none => pure none
  | some report =>
      if speculativeIndexing then
        let speculative ← reconcileSpeculative ext finalized bestHead
        pure (some ⟨report, speculative⟩)
      else pure (some ⟨report, none⟩)

def pass (bestHead : Option Nat) (speculativeIndexing : Bool) : Speculating (Option PassReport) := do
  let finalized ← finalizedHeadNumber
  match ← tryProjectionLock with
  | true => locked (passLocked ext finalized bestHead speculativeIndexing)
  | false => pure none

/-- A pass that fails is tried again at the next wake. -/
def runPass {ε : Type} (bestHead : Option Nat) (speculativeIndexing : Bool) :
    Act IndexWorld SpeculativeCache ε Unit := do
  let _ ← Act.attempt (pass ext bestHead speculativeIndexing)
  pure ()

def turn {ε : Type} (speculativeIndexing : Bool) : Act IndexWorld SpeculativeCache ε Unit := do
  match ← ask .wake with
  | .block number => runPass ext (some number) speculativeIndexing
  | .timer => runPass ext none speculativeIndexing
  | .resubscribe =>
      -- the stream died: the timer carries the projection if it is due
      match ← ask .fallbackDue with
      | true => runPass ext none speculativeIndexing
      | false => pure ()

/-- Rows that an earlier run left at the tip are dropped, unless another instance is at work. -/
def dropLeftovers {σ : Type} : Seeding σ Unit := do
  match ← fetch .database (ask .tryLock) with
  | true => locked do
      let _ ← confirm .database (ask (.run .clearSpeculative))
      pure ()
  | false => pure ()

/-- What an indexer process does over its first `turns` wakes: it drops leftovers, seeds the
    projection, and follows the chain. -/
def indexer (pageSize : Nat) (speculativeIndexing : Bool) (turns : Nat) :
    Act IndexWorld SpeculativeCache BootstrapError Unit := do
  dropLeftovers
  let _ ← ensureSeeded ext pageSize
  Act.forEach (fun _ => turn ext speculativeIndexing) (List.range turns)

end Loop

end DeviceUniqueness.Indexer
