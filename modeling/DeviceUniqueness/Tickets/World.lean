import DeviceUniqueness.Intake.Reservation
import DeviceUniqueness.Writer.Engine
import DeviceUniqueness.Schemes.Interference

/-! The pool of invitation tickets: its table, what the two services ask of the outside, and what the
    database makes of it.

    A ticket is a key pair. The maintainer registers the key on the chain and inserts it as
    available; a claim takes the oldest available ticket in one transaction and signs with it. A row
    is locked by the claim that selected it, and other claims pass over it. -/

namespace DeviceUniqueness.Tickets

open Function Schemes

/-! ### The table -/

inductive Dim where
  | game
  | proofOfInk
  deriving DecidableEq

def Dim.asStr : Dim → String
  | .game => "Game"
  | .proofOfInk => "ProofOfInk"

def Dim.fromStr (s : String) : Option Dim :=
  if s = "Game" then some .game else if s = "ProofOfInk" then some .proofOfInk else none

inductive Network where
  | westend2
  | paseo
  | polkadot
  deriving DecidableEq

def Network.asStr : Network → String
  | .westend2 => "westend2"
  | .paseo => "paseo"
  | .polkadot => "polkadot"

inductive TicketState where
  | available
  | claimed
  deriving DecidableEq

/-- What the claim reads of a row. -/
structure ClaimedTicket where
  publicKey : Bytes
  privateKey : Bytes
  inviter : String
  createdAt : Time
  deriving DecidableEq

/-- A row of `invite_tickets`. `lock` is the process whose open transaction has the row locked. -/
structure Ticket extends ClaimedTicket where
  dim : Dim
  network : Network
  state : TicketState
  claimedBy : Option String
  claimedAt : Option Time
  updatedAt : Option Time
  lock : Option Nat
  deriving DecidableEq

/-- The row is available in the pool. -/
def Ticket.inPool (dim : Dim) (network : Network) (row : Ticket) : Bool :=
  row.state = .available && row.dim = dim && row.network = network

/-- The public key is the primary key. -/
structure TicketTable where
  rows : List Ticket
  keys_nodup : (rows.map fun row => row.publicKey).Nodup

/-- What is inserted; the rest of a row is defaults. -/
structure NewTicket where
  publicKey : Bytes
  privateKey : Bytes
  dim : Dim
  network : Network
  inviter : String
  deriving DecidableEq

/-- A row as it is inserted at the time. -/
def NewTicket.row (new : NewTicket) (now : Time) : Ticket where
  publicKey := new.publicKey
  privateKey := new.privateKey
  inviter := new.inviter
  createdAt := now
  dim := new.dim
  network := new.network
  state := .available
  claimedBy := none
  claimedAt := none
  updatedAt := none
  lock := none

/-- What a claim writes into the row of a key. -/
structure Flip where
  publicKey : Bytes
  claimedBy : String
  claimedAt : Time
  deriving DecidableEq

def Flip.row (flip : Flip) (row : Ticket) : Ticket :=
  if row.publicKey = flip.publicKey then
    { row with
      state := .claimed
      claimedBy := some flip.claimedBy
      claimedAt := some flip.claimedAt
      updatedAt := some flip.claimedAt }
  else row

namespace Ticket

/-- The row of the key is locked by the process. -/
def lockedBy (p : Nat) (key : Bytes) (row : Ticket) : Ticket :=
  if row.publicKey = key then { row with lock := some p } else row

/-- The lock of the process is released. -/
def unlockedBy (p : Nat) (row : Ticket) : Ticket :=
  if row.lock = some p then { row with lock := none } else row

variable (row : Ticket) (p : Nat)

@[simp] theorem toClaimedTicket_lockedBy (key : Bytes) :
    (row.lockedBy p key).toClaimedTicket = row.toClaimedTicket := by
  unfold lockedBy
  split <;> rfl

@[simp] theorem toClaimedTicket_unlockedBy :
    (row.unlockedBy p).toClaimedTicket = row.toClaimedTicket := by
  unfold unlockedBy
  split <;> rfl

@[simp] theorem toClaimedTicket_flip (flip : Flip) :
    (flip.row row).toClaimedTicket = row.toClaimedTicket := by
  unfold Flip.row
  split <;> rfl

@[simp] theorem lock_flip (flip : Flip) : (flip.row row).lock = row.lock := by
  unfold Flip.row
  split <;> rfl

@[simp] theorem state_lockedBy (key : Bytes) : (row.lockedBy p key).state = row.state := by
  unfold lockedBy
  split <;> rfl

@[simp] theorem state_unlockedBy : (row.unlockedBy p).state = row.state := by
  unfold unlockedBy
  split <;> rfl

@[simp] theorem inPool_lockedBy (key : Bytes) (dim : Dim) (network : Network) :
    (row.lockedBy p key).inPool dim network = row.inPool dim network := by
  unfold lockedBy
  split <;> rfl

@[simp] theorem inPool_unlockedBy (dim : Dim) (network : Network) :
    (row.unlockedBy p).inPool dim network = row.inPool dim network := by
  unfold unlockedBy
  split <;> rfl

end Ticket

namespace TicketTable

variable (table : TicketTable)

/-- Every row changed, none of the keys. -/
def mapRows (f : Ticket → Ticket) (hf : ∀ row, (f row).publicKey = row.publicKey) : TicketTable where
  rows := table.rows.map f
  keys_nodup := by
    rw [List.map_map]
    simpa only [comp_def, hf] using table.keys_nodup

def countAvailable (dim : Dim) (network : Network) : Nat :=
  table.rows.countP (Ticket.inPool dim network)

/-- How many tickets are claimed. -/
def claimedCount : Nat := table.rows.countP fun row => row.state = .claimed

/-- `ON CONFLICT (public_key) DO NOTHING`. -/
def insertAvailable (new : NewTicket) (now : Time) : TicketTable :=
  if h : new.publicKey ∈ table.rows.map fun row => row.publicKey then table
  else
    { rows := table.rows ++ [new.row now]
      keys_nodup := by
        rw [List.map_append]
        exact List.Nodup.append table.keys_nodup (List.nodup_singleton _)
          (List.disjoint_singleton.mpr h) }

def apply (flip : Flip) : TicketTable :=
  table.mapRows flip.row fun row => congrArg ClaimedTicket.publicKey (row.toClaimedTicket_flip flip)

def lockRow (p : Nat) (key : Bytes) : TicketTable :=
  table.mapRows (Ticket.lockedBy p key) fun row =>
    congrArg ClaimedTicket.publicKey (row.toClaimedTicket_lockedBy p key)

def unlockRows (p : Nat) : TicketTable :=
  table.mapRows (Ticket.unlockedBy p) fun row =>
    congrArg ClaimedTicket.publicKey (row.toClaimedTicket_unlockedBy p)

def row? (key : Bytes) : Option Ticket := table.rows.find? fun row => row.publicKey = key

/-- The rows a claim may take: those that nobody has locked. -/
def claimable (dim : Dim) (network : Network) : List Ticket :=
  table.rows.filter fun row => row.inPool dim network && row.lock.isNone

variable {table}

theorem row?_eq_some {key : Bytes} {row : Ticket} :
    table.row? key = some row ↔ row ∈ table.rows ∧ row.publicKey = key :=
  find?_keyed table.keys_nodup

theorem row?_mapRows {f : Ticket → Ticket} {hf : ∀ row, (f row).publicKey = row.publicKey}
    {key : Bytes} : (table.mapRows f hf).row? key = (table.row? key).map f :=
  find?_map_keyed hf table.rows key

theorem row?_apply {flip : Flip} {key : Bytes} :
    (table.apply flip).row? key = (table.row? key).map flip.row :=
  row?_mapRows

theorem row?_lockRow {p : Nat} {key key' : Bytes} :
    (table.lockRow p key).row? key' = (table.row? key').map (Ticket.lockedBy p key) :=
  row?_mapRows

theorem row?_unlockRows {p : Nat} {key : Bytes} :
    (table.unlockRows p).row? key = (table.row? key).map (Ticket.unlockedBy p) :=
  row?_mapRows

theorem row?_insertAvailable {new : NewTicket} {now : Time} {key : Bytes} :
    (table.insertAvailable new now).row? key =
      if table.row? key = none ∧ new.publicKey = key then some (new.row now) else table.row? key := by
  rw [insertAvailable]
  split
  · next hmem =>
    obtain ⟨row, hrow, hkey⟩ := List.mem_map.mp hmem
    rw [if_neg]
    rintro ⟨hnone, rfl⟩
    rw [row?_eq_some.mpr ⟨hrow, hkey⟩] at hnone
    cases hnone
  · rw [row?, List.find?_append, ← row?]
    cases hrow : table.row? key with
    | some row => simp
    | none => by_cases hkey : new.publicKey = key <;> simp [hkey, NewTicket.row]

end TicketTable

/-! ### What is asked -/

inductive AppError where
  | rateLimited (retryAfterSecs : Nat)
  | invalidBody (fields : List FieldError)
  | malformedJson
  | poolExhausted
  | ticketRaceLost
  | internal (err : String)
  deriving DecidableEq

/-- The body of a 200. -/
structure ClaimResponse where
  publicKey : String
  inviter : String
  dim : String
  network : String
  claimedBy : String
  createdAt : String
  claimedAt : String
  signature : String
  remaining : Nat
  deriving DecidableEq

/-- A `force_batch` of `set_invite_ticket` calls, and the account it is proxied for. -/
structure TicketBatch where
  tickets : List Account
  dim : Dim
  proxyFor : Option Account
  deriving DecidableEq

/-- What a submitted extrinsic is reported as; the statuses that are passed over are one. -/
inductive TxStatus where
  | inFinalizedBlock
  | error (message : String)
  | invalid (message : String)
  | dropped (message : String)
  | other
  deriving DecidableEq

/-- A wait under the timer: the timer was first, or there is an answer. -/
inductive Awaited (α : Type) where
  | elapsed
  | ready (answer : Except String α)

/-- What the claim service and the maintainer ask for. `answer` stands for the response to the
    request of the body, and `resize` for the assignment of a pool's batch size. -/
inductive TicketAsk where
  | allow (subject : String)
  | nowUtc
  | count (dim : Dim) (network : Network)
  | begin
  | selectOldest (dim : Dim) (network : Network)
  | setClaimed (flip : Flip)
  | rollback
  | commit
  | nonce
  | answer (body : Bytes) (result : Except AppError ClaimResponse)
  | tryLock
  | unlock
  | availableInvites (dim : Dim) (inviter : Account)
  | freeBalance (account : Account)
  | seed
  | txClient
  | createSigned (batch : TicketBatch)
  | submitAndWatch (batch : TicketBatch)
  | nextStatus
  | waitForSuccess
  | insertAvailable (new : NewTicket)
  | resize (dim : Dim) (size : Nat)

@[reducible] def TicketAsk.Ans : TicketAsk → Type
  | .allow _ => Except Nat Unit
  | .nowUtc => Time
  | .count .. | .availableInvites .. | .freeBalance _ | .setClaimed _ => Except String Nat
  | .begin | .rollback => Except String Unit
  | .selectOldest .. => Except String (Option ClaimedTicket)
  | .commit | .insertAvailable _ => Reply Unit
  | .nonce | .seed => FixedBytes 32
  | .answer .. | .unlock | .resize .. => Unit
  | .tryLock => Except String Bool
  | .txClient | .createSigned _ | .submitAndWatch _ => Awaited Unit
  | .nextStatus => Awaited (Option TxStatus)
  | .waitForSuccess => Awaited (List (Except String Event))

abbrev TicketWorld : Iface := ⟨TicketAsk, TicketAsk.Ans⟩

def ticketAsk {ε : Type} (o : TicketAsk) : Act TicketWorld Unit ε o.Ans := Act.op (I := TicketWorld) o

/-- `execute`, with what it reports. -/
def reported : Reply Unit → Except String Unit
  | .ok _ => .ok ()
  | .lost _ err | .refused err => .error err

/-! ### What the database does -/

/-- `now` is the clock of the database, `flips` are the writes of open transactions, and `lock` is
    the holder of the tick lock. -/
structure PoolState where
  table : TicketTable
  now : Time
  flips : Nat → Option Flip
  lock : Option Nat

namespace PoolState

variable (st : PoolState)

/-- The transaction of the process is over, with nothing written. -/
def abort (p : Nat) : PoolState :=
  { st with table := st.table.unlockRows p, flips := update st.flips p none }

/-- What the transaction of the process wrote is there to be seen. -/
def commit (p : Nat) : PoolState :=
  match st.flips p with
  | some flip => { st with table := st.table.apply flip }.abort p
  | none => st.abort p

/-- A lost process loses its connections. -/
def lose (p : Nat) : PoolState :=
  { st.abort p with lock := if st.lock = some p then none else st.lock }

end PoolState

/-- The oldest row, if there is one. -/
def Oldest (rows : List Ticket) : Option ClaimedTicket → Prop
  | none => rows = []
  | some ticket => ∃ row ∈ rows, row.toClaimedTicket = ticket ∧ ∀ row' ∈ rows,
      row.createdAt ≤ row'.createdAt

/-- A statement that fails in a transaction ends it, and so does a commit or a rollback, whatever is
    reported. The tick lock is the process's own until it is released. -/
def TicketAsk.Does (p : Nat) (st : PoolState) : (o : TicketAsk) → o.Ans → PoolState → Prop
  | .count dim network, reply, st' =>
      st' = st ∧ ∀ n, reply = .ok n → n = st.table.countAvailable dim network
  | .selectOldest dim network, reply, st' =>
      match reply with
      | .ok ticket => Oldest (st.table.claimable dim network) ticket ∧
          st' = match ticket with
            | some ticket => { st with table := st.table.lockRow p ticket.publicKey }
            | none => st
      | .error _ => st' = st.abort p
  | .setClaimed flip, reply, st' =>
      match reply with
      | .ok _ => st' = { st with flips := update st.flips p (some flip) }
      | .error _ => st' = st.abort p
  | .rollback, _, st' => st' = st.abort p
  | .commit, reply, st' =>
      match reply with
      | .ok _ | .lost .. => st' = st.commit p
      | .refused _ => st' = st.abort p
  | .insertAvailable new, reply, st' =>
      Reply.Did reply st st' fun _ =>
        st' = { st with table := st.table.insertAvailable new st.now }
  | .tryLock, reply, st' =>
      match reply with
      | .ok true => (st.lock = none ∨ st.lock = some p) ∧ st' = { st with lock := some p }
      | .ok false => st.lock ≠ none ∧ st' = st
      | .error _ => st' = st
  | .unlock, _, st' => st' = st ∨ st.lock = some p ∧ st' = { st with lock := none }
  | .allow _, _, st' | .nowUtc, _, st' | .begin, _, st' | .nonce, _, st' | .answer .., _, st'
  | .availableInvites .., _, st' | .freeBalance _, _, st' | .seed, _, st' | .txClient, _, st'
  | .createSigned _, _, st' | .submitAndWatch _, _, st' | .nextStatus, _, st'
  | .waitForSuccess, _, st' | .resize .., _, st' => st' = st

end DeviceUniqueness.Tickets
