import DeviceUniqueness.Tickets.Service

/-! The maintainer of the pools.

    A tick tops up one pool: it counts, generates as many keys as are missing and as fit into a
    batch, registers them on the chain in one batch, and inserts those the chain accepted. The size
    of the next batch grows by one with a batch that made progress and is halved otherwise. Ticks are
    taken under an advisory lock, pool after pool, for ever. -/

namespace DeviceUniqueness.Tickets

open Schemes

structure PoolTuning where
  target : Int
  batchMax : Nat

structure InviterIdentity where
  signer : Account
  inviter : Account
  inviterSs58 : String

/-- `WriterSigner::proxy_for`. -/
def InviterIdentity.proxyFor (identity : InviterIdentity) : Option Account :=
  if identity.inviter ≠ identity.signer then some identity.inviter else none

/-- The shortfall, as far as it fits. -/
def planRefill (available target : Int) (batchSize : Nat) : Nat :=
  let needed := saturate64 (target - available)
  if needed ≤ 0 then 0 else min (if needed ≤ 65535 then needed.toNat else 65535) batchSize

/-- A missing entry means not accepted. -/
def itemAccepted (items : List Bool) (index : Nat) : Bool := items[index]? == some true

abbrev Maintaining := Act TicketWorld Unit String

/-! ### The batch -/

/-- A wait of the submission, under the timer of the tick. -/
def awaited {α : Type} : Awaited α → Except String α
  | .elapsed => .error "batch finalization timed out"
  | .ready answer => answer

/-- The items of the events that decode. -/
def finalizedItems (events : List (Except String Event)) : List Bool :=
  (batchItemResults (events.filterMap Except.toOption)).map Except.isOk

/-- Follow the extrinsic. By the time so many statuses have come the timer has run out. -/
def watch : Nat → Maintaining (List Bool)
  | 0 => Act.fail "batch finalization timed out"
  | patience + 1 => do
      match ← Act.ofExcept (awaited (← ticketAsk .nextStatus)) with
      | some .inFinalizedBlock =>
          let events ← Act.ofExcept (awaited (← ticketAsk .waitForSuccess))
          pure (finalizedItems events)
      | some (.error message) => Act.fail ("tx error: " ++ message)
      | some (.invalid message) => Act.fail ("tx invalid: " ++ message)
      | some (.dropped message) => Act.fail ("tx dropped: " ++ message)
      | some .other => watch patience
      | none => Act.fail "tx status stream ended before finalization"

/-- The wait for the batch is of no concern to whoever minds neither of its questions. -/
theorem watch_rests {B : Type} {M : Monitor TicketWorld B} {b : B}
    (hstatus : Act.Rests M b (ticketAsk .nextStatus : Maintaining _))
    (hsuccess : Act.Rests M b (ticketAsk .waitForSuccess : Maintaining _)) :
    ∀ patience, Act.Rests M b (watch patience)
  | 0 => Act.rests_fail _
  | patience + 1 => by
      refine hstatus.bind fun answer => (Act.rests_ofExcept _).bind fun status => ?_
      match status with
      | some .inFinalizedBlock =>
        exact hsuccess.bind fun _ => (Act.rests_ofExcept _).bind fun _ => Act.rests_pure _
      | some (.error _) | some (.invalid _) | some (.dropped _) | none => exact Act.rests_fail _
      | some .other => exact watch_rests hstatus hsuccess patience

def submitTicketBatch (patience : Nat) (batch : TicketBatch) : Maintaining (List Bool) := do
  Act.ofExcept (awaited (← ticketAsk .txClient))
  Act.ofExcept (awaited (← ticketAsk (.createSigned batch)))
  Act.ofExcept (awaited (← ticketAsk (.submitAndWatch batch)))
  watch patience

/-! ### The tick -/

section Tick

variable (ext : TicketExt) (identity : InviterIdentity) (network : Network) (tuning : PoolTuning)
  (patience : Nat)

/-- A key pair and the seed it is kept as. -/
structure Generated where
  keypair : ext.Keypair
  seed : FixedBytes 32
  made : fromStoredSecret ext seed.1 = .ok keypair

def Generated.account {ext : TicketExt} (key : Generated ext) : Account := ext.publicBytes key.keypair

def generate : Maintaining (Generated ext) := do
  let seed ← ticketAsk .seed
  match made : fromStoredSecret ext seed.1 with
  | .ok keypair => pure ⟨keypair, seed, made⟩
  | .error e => Act.fail ("fresh seed is valid: " ++ e)

/-- The row of a generated key. -/
def Generated.ticket {ext : TicketExt} (key : Generated ext) (identity : InviterIdentity) (dim : Dim)
    (network : Network) : NewTicket where
  publicKey := key.account.1
  privateKey := key.seed.1
  dim := dim
  network := network
  inviter := identity.inviterSs58

/-- Insert the keys that were accepted, and count them. -/
def insertAccepted (dim : Dim) (items : List Bool) (generated : List (Generated ext)) :
    Maintaining Nat :=
  Act.fold (fun inserted x =>
    if itemAccepted items x.2 then do
      let reply ← ticketAsk (.insertAvailable (x.1.ticket identity dim network))
      Act.ofExcept ((reported reply).mapError ("inserting registered ticket: " ++ ·))
      pure (inserted + 1)
    else pure inserted) 0 generated.zipIdx

/-- The number of tickets added, and the size of the next batch. -/
def tickPool (dim : Dim) (batchSize : Nat) : Maintaining (Nat × Nat) := do
  let available ← ticketAsk (.count dim network)
  let available ← Act.ofExcept (available.mapError ("counting available tickets: " ++ ·))
  let _ ← ticketAsk (.availableInvites dim identity.inviter)
  let size := planRefill available tuning.target batchSize
  if size = 0 then pure (0, batchSize)
  else
    let generated ← Act.collect (fun _ => do pure (some (← generate ext))) (List.range size)
    let items ← submitTicketBatch patience ⟨generated.map Generated.account, dim, identity.proxyFor⟩
    let inserted ← insertAccepted ext identity network dim items generated
    pure (inserted, settleBatchSize batchSize tuning.batchMax (0 < inserted))

/-- One pool of a turn: whatever came of it sets the size of its next batch. -/
def servePool (pool : Dim × Nat) : Maintaining (Dim × Nat) := do
  let tick ← Act.attempt (tickPool ext identity network tuning patience pool.1 pool.2)
  let size := match tick with
    | .ok (_, next) => next
    | .error _ => settleBatchSize pool.2 tuning.batchMax false
  ticketAsk (.resize pool.1 size)
  pure (pool.1, size)

/-- One turn: the pools one after the other, if the lock is to be had. -/
def turn (pools : List (Dim × Nat)) : Maintaining (List (Dim × Nat)) := do
  match ← ticketAsk .tryLock with
  | .ok true =>
      let served ← Act.collect (fun pool => do
        pure (some (← servePool ext identity network tuning patience pool))) pools
      ticketAsk .unlock
      pure served
  | .ok false | .error _ => pure pools

/-- The loop over its first `turns` turns. -/
def turns (pools : List (Dim × Nat)) : Nat → Maintaining Unit
  | 0 => pure ()
  | n + 1 => do
      let pools ← turn ext identity network tuning patience pools
      let _ ← ticketAsk (.freeBalance identity.signer)
      turns pools n

def runLoop (dims : List Dim) (n : Nat) : Maintaining Unit :=
  turns ext identity network tuning patience (dims.map fun dim => (dim, tuning.batchMax)) n

end Tick

/-! ### Any number of claims and maintainers -/

/-- Time passes at the database. The maintainers have one tuning, and everything else of their own;
    claims come with any body. -/
def Invites (ext : TicketExt) (tuning : PoolTuning) :
    Machine TicketWorld PoolState Nat (Except String Unit × Unit) where
  exec p o st a st' := TicketAsk.Does p st o a st'
  env d st st' := st' = { st with now := st.now + d }
  boot _ prog := (∃ network subject body, prog = serveClaim ext network subject body ()) ∨
    ∃ identity network patience dims n,
      prog = runLoop ext identity network tuning patience dims n ()
  die p st st' := st' = st.lose p

abbrev TicketSys := Sys TicketWorld PoolState (Except String Unit × Unit)

abbrev TicketLabel := Label TicketWorld Nat

end DeviceUniqueness.Tickets
