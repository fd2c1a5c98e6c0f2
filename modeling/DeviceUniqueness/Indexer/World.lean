import DeviceUniqueness.Indexer.Projection
import DeviceUniqueness.Writer.World
import DeviceUniqueness.Schemes.Interference

/-! What the indexer asks of the world: its node, its database, the projection lock.

    A block is known by its hash, and its hash settles what it holds: its events, the consumer
    entries of its state, the constants of its runtime. Every query may fail. The node of a process
    follows one chain, told apart by its genesis hash; below the finalized height of that chain it
    knows one block for each number, above it the block it names may change from one query to the
    next.

    What a transaction writes is there for others when it commits. A commit, like any other
    statement, may take effect without its answer arriving. -/

namespace DeviceUniqueness.Indexer

open Schemes

/-! ### The chains -/

structure BlockRef where
  hash : BlockHash
  number : Nat
  deriving DecidableEq

/-- An event of a block: one of the four that are watched, or another. -/
inductive ChainEvent where
  | litePersonRegistered (account : Account)
  | personRegistered (account : Account)
  | identifierKeyUpdated (account : Account)
  | consumerRegistered (account : Account)
  | other
  deriving DecidableEq

/-- What the storage iterator comes to next: no item, an item whose key is no account, or an entry. -/
inductive ScanItem where
  | failed (err : String)
  | badKey (err : String)
  | entry (account : Account) (value : Bytes)
  deriving DecidableEq

/-- What the blocks hold, and the finalized chain of each genesis. -/
structure Chains where
  events : BlockHash → List (Except String ChainEvent)
  ss58Prefix : BlockHash → UInt16
  consumers : BlockHash → Account → Option Bytes
  final : BlockHash → Nat → BlockHash

/-- The items are entries of the block, and unless the iterator failed they are all of them. -/
structure Chains.Lists (w : Chains) (hash : BlockHash) (items : List ScanItem) : Prop where
  sound : ∀ account value, .entry account value ∈ items → w.consumers hash account = some value
  complete : (∀ err, .failed err ∉ items) →
    ∀ account value, w.consumers hash account = some value → .entry account value ∈ items

/-- What the indexer takes from libraries: SS58, and the SCALE decoding of a consumer value. -/
structure IndexExt extends Ss58Ext where
  decodeValue : Bytes → Except String ConsumerInfo

/-! ### Operations -/

/-- What wakes the sync loop. -/
inductive Wake where
  | block (number : Nat)
  | timer
  | resubscribe
  deriving DecidableEq

inductive IndexAsk where
  | genesisHash
  | currentBlock
  | atBlock (number : Nat)
  | events (hash : BlockHash)
  | ss58Prefix (hash : BlockHash)
  | consumers (hash : BlockHash)
  | consumer (hash : BlockHash) (account : Account)
  | bestHeader
  | lock
  | tryLock
  | unlock
  | storedGenesis
  | storedNumber
  | speculativeAccounts
  | finalizedAccounts (accounts : List Account)
  | begin
  | exec (w : Write)
  | commit
  | run (w : Write)
  | wake
  | fallbackDue

@[reducible] def IndexAsk.Ans : IndexAsk → Type
  | .genesisHash => BlockHash
  | .currentBlock | .atBlock _ => Except String BlockRef
  | .events _ => Except String (List (Except String ChainEvent))
  | .ss58Prefix _ => Except String UInt16
  | .consumers _ => Except String (List ScanItem)
  | .consumer .. => Except String (Option Bytes)
  | .bestHeader => Except String (Option Nat)
  | .lock => Except String Unit
  | .tryLock => Except String Bool
  | .unlock => Unit
  | .storedGenesis => Except String (Option (Option BlockHash))
  | .storedNumber => Except String (Option Nat)
  | .speculativeAccounts | .finalizedAccounts _ => Except String (List Account)
  | .begin => Except String Unit
  | .exec _ => Except String Nat
  | .commit => Reply Unit
  | .run _ => Reply Nat
  | .wake => Wake
  | .fallbackDue => Bool

/-- The world as an indexer sees it. -/
abbrev IndexWorld : Iface := ⟨IndexAsk, IndexAsk.Ans⟩

section Operations

variable {σ ε α : Type}

def ask (o : IndexAsk) : Act IndexWorld σ ε o.Ans := Act.op (I := IndexWorld) o

/-- A query whose failure ends the function, as `wrap` says. -/
def fetch (wrap : String → ε) (m : Act IndexWorld σ ε (Except String α)) : Act IndexWorld σ ε α :=
  m >>= fun answer => Act.ofExcept (answer.mapError wrap)

/-- How a statement that may have been done looks from here. -/
def answered : Reply α → Except String α
  | .ok out => .ok out
  | .lost _ err | .refused err => .error err

def confirm (wrap : String → ε) (m : Act IndexWorld σ ε (Reply α)) : Act IndexWorld σ ε α :=
  m >>= fun reply => Act.ofExcept ((answered reply).mapError wrap)

end Operations

/-! ### The shared state -/

/-- An open transaction: when it was begun, which is its `now()`, and what it will have written. -/
structure IndexTx where
  startedAt : Time
  writes : List Write

/-- The tables as the transaction sees them, and leaves them. -/
def IndexTx.view (tx : IndexTx) (store : Store) : Store :=
  tx.writes.foldl (Store.apply · tx.startedAt) store

/-- `lock` is the process that holds the projection lock, `height` how far each chain is finalized. -/
structure IndexState where
  now : Time
  store : Store
  lock : Option Nat
  txs : Nat → Option IndexTx
  height : BlockHash → Nat

namespace IndexState

variable (st : IndexState)

def setTx (p : Nat) (tx : Option IndexTx) : IndexState :=
  { st with txs := Function.update st.txs p tx }

def setStore (store : Store) : IndexState := { st with store }

def setLock (lock : Option Nat) : IndexState := { st with lock }

/-- The process and all it holds are gone. -/
def release (p : Nat) : IndexState :=
  (st.setTx p none).setLock (if st.lock = some p then none else st.lock)

end IndexState

/-- What the world does for an operation of process `p`. -/
def IndexAsk.Does (w : Chains) (p : Nat) (st : IndexState) : (o : IndexAsk) → o.Ans → IndexState → Prop
  | .atBlock number, answer, st' => st' = st ∧ ∀ block, answer = .ok block → block.number = number
  | .events hash, answer, st' => st' = st ∧ ∀ events, answer = .ok events → events = w.events hash
  | .ss58Prefix hash, answer, st' =>
      st' = st ∧ ∀ network, answer = .ok network → network = w.ss58Prefix hash
  | .consumers hash, answer, st' => st' = st ∧ ∀ items, answer = .ok items → w.Lists hash items
  | .consumer hash account, answer, st' =>
      st' = st ∧ ∀ value, answer = .ok value → value = w.consumers hash account
  | .lock, answer, st' =>
      match (answer : Except String Unit) with
      | .ok () => st.lock = none ∧ st' = st.setLock (some p)
      | .error _ => st' = st
  | .tryLock, answer, st' =>
      match (answer : Except String Bool) with
      | .ok true => st.lock = none ∧ st' = st.setLock (some p)
      | .ok false => st.lock.isSome ∧ st' = st
      | .error _ => st' = st
  | .unlock, _, st' => st' = st.release p
  | .storedGenesis, answer, st' =>
      st' = st ∧ ∀ out, answer = .ok out → out = st.store.syncState.map Checkpoint.genesisHash
  | .storedNumber, answer, st' =>
      st' = st ∧ ∀ out, answer = .ok out → out = st.store.syncState.map Checkpoint.lastFinalizedNumber
  | .speculativeAccounts, answer, st' =>
      st' = st ∧ ∀ out, answer = .ok out → out = st.store.speculativeAccounts
  | .finalizedAccounts accounts, answer, st' =>
      st' = st ∧ ∀ out, answer = .ok out → out = st.store.finalizedAccounts accounts
  | .begin, answer, st' =>
      match (answer : Except String Unit) with
      | .ok () => st' = st.setTx p (some ⟨st.now, []⟩)
      | .error _ => st' = st
  | .exec write, answer, st' =>
      match (answer : Except String Nat) with
      | .ok out => ∃ tx, st.txs p = some tx ∧ out = (tx.view st.store).affected write ∧
          st' = st.setTx p (some { tx with writes := tx.writes ++ [write] })
      | .error _ => st' = st
  | .commit, reply, st' =>
      match (reply : Reply Unit) with
      | .ok () | .lost .. => ∃ tx, st.txs p = some tx ∧
          st' = (st.setTx p none).setStore (tx.view st.store)
      | .refused _ => st' = st.setTx p none
  | .run write, reply, st' =>
      Reply.Did reply st st' fun out =>
        out = st.store.affected write ∧ st' = st.setStore (st.store.apply st.now write)
  | .genesisHash, _, st' | .currentBlock, _, st' | .bestHeader, _, st' | .wake, _, st'
  | .fallbackDue, _, st' => st' = st

/-- Where the blocks are that the node of a process names: it follows the chain of `genesis`, and
    what is finalized there is settled. -/
def IndexAsk.Placed (w : Chains) (genesis : BlockHash) (st : IndexState) :
    (o : IndexAsk) → o.Ans → Prop
  | .genesisHash, answer => answer = genesis
  | .currentBlock, answer => ∀ block, answer = .ok block →
      block.number ≤ st.height genesis ∧ block.hash = w.final genesis block.number
  | .atBlock number, answer => ∀ block, answer = .ok block →
      number ≤ st.height genesis → block.hash = w.final genesis number
  | _, _ => True

end DeviceUniqueness.Indexer
