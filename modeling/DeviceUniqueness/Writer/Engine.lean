import DeviceUniqueness.Writer.World

/-! One claimed set of one lane, drained onto its chain.

    Written once over the lane and run twice, as in the source. A pass claims the rows that are due,
    decides what it can offline and against one batched owner read (`triage`), and submits the rest:
    a lone row as a bare call (`one`), several as one batch (`batch`). Whatever comes back is
    recorded on the rows. `reconcileSubmitting` is what a new lease holder does first with the rows
    a previous one left in flight. -/

namespace DeviceUniqueness

open Schemes

/-! ### What the lanes differ in -/

namespace Lane

def ownedElsewhere : Lane → String
  | .people => "username owned by another account"
  | .dotns => "lite label reserved by another account"

def reconciled : Lane → String
  | .people => "reconcile: not yet on-chain, re-queued"
  | .dotns => "reconcile: not yet on Asset Hub, re-queued"

def nonceFetch : Lane → String
  | .people => "nonce fetch"
  | .dotns => "asset hub nonce fetch"

/-- A lone row is a bare call, several rows are one batch. -/
def tx : Lane → List (Reservation × Account) → Option Account → Payload
  | .people, [(r, candidate)], proxyFor => buildRegistrationTx r candidate proxyFor
  | .people, rows, proxyFor => buildRegistrationBatchTx rows proxyFor
  | .dotns, [(r, candidate)], proxyFor => buildReserveNameTx r candidate proxyFor
  | .dotns, rows, proxyFor => buildReserveNameBatchTx rows proxyFor

end Lane

/-- Everything a pass needs that is not the lane's. `finalizeTicks` is how many lease renewals fit
    into the finalization timeout. -/
structure Cx where
  ext : Ext
  guard : Guard
  signerAccount : Account
  proxyFor : Option Account
  maxAttempts : Int
  finalizeTicks : Nat
  leaseTtl : Nat

/-! ### Reading the events of a finalized extrinsic -/

/-- The result a proxy call carries, as its first byte says. -/
def checkDispatchResult (describe : Bytes → String) : Bytes → Except String Unit
  | 0 :: _ => .ok ()
  | 1 :: error => .error ("proxied call failed: " ++ describe error)
  | _ => .error "ProxyExecuted's result is not a Result<(), DispatchError>"

def checkProxiedCall (describe : Bytes → String) : List (Except String Event) → Except String Unit
  | [] => .ok ()
  | .error _ :: _ => .error "decoding events"
  | .ok event :: events =>
      if event.pallet ≠ "Proxy" ∨ event.name ≠ "ProxyExecuted" then checkProxiedCall describe events
      else match checkDispatchResult describe event.fieldBytes with
        | .ok () => checkProxiedCall describe events
        | .error e => .error e

/-- The items of a batch in order: `none` for an event that is not about an item. -/
def batchItem (event : Event) : Option (Except Event Unit) :=
  if event.pallet = "Utility" ∧ event.name = "ItemCompleted" then some (.ok ())
  else if event.pallet = "Utility" ∧ event.name = "ItemFailed" then some (.error event)
  else none

def batchItemResults (events : List Event) : List (Except Event Unit) := events.filterMap batchItem

/-- All events, or nothing if one does not decode. -/
def decodeAll : List (Except String Event) → Option (List Event)
  | [] => some []
  | .error _ :: _ => none
  | .ok event :: events => (decodeAll events).map (event :: ·)

def itemResults (fin : Finalized) : Except String (List (Except String Unit)) :=
  match decodeAll fin.events with
  | none => .error "decoding batch events"
  | some events => .ok ((batchItemResults events).map fun item =>
      match item with
      | .ok () => .ok ()
      | .error event => .error (fin.describe event.fieldBytes))

/-! ### Talking to the database and the chain for a row -/

section Calls

variable {σ : Type} (cx : Cx) (l : Lane)

def heartbeat : Act Outside σ WriterError Bool := dbCall (.renew cx.guard cx.leaseTtl)

def hold : Act Outside σ WriterError Unit := do
  if ← heartbeat cx then pure () else Act.fail (.leaseLost .draining)

/-- Await finalization, renewing the lease while it waits. -/
def finalize (tx : Tx) : Nat → Act Outside σ String Finalized
  | 0 => Act.fail finalizeTimeout
  | ticks + 1 => do
      match ← awaitFinalized l tx with
      | .done verdict => Act.ofExcept verdict
      | .timeout => Act.fail finalizeTimeout
      | .renew =>
          if ← Act.mapError WriterError.display (heartbeat cx) then finalize tx ticks
          else Act.fail (WriterError.leaseLost .finalizing).display

/-- One guarded write that settles the row; not going through means the lease is lost. -/
def write (r : Reservation) (w : Write) (doing : Op) : Act Outside σ WriterError Unit := do
  let done : Bool ← dbCall (.settle l cx.guard r w)
  if done then pure () else Act.fail (.leaseLost doing)

/-- Record what became of the row. Only a retry charges an attempt. -/
def record (r : Reservation) : Outcome → Act Outside σ WriterError Unit
  | .landed | .observed => write cx l r .landed .landing
  | .retry reason => do
      let attempt := l.attempt r + 1
      let now ← nowUtc
      write cx l r (.retry (now + rowBackoff attempt) attempt reason) .retrying
  | .park reason => do
      let now ← nowUtc
      write cx l r (.retry (parkUntil now) (l.attempt r) reason) .parking
  | .defer until_ reason _ => write cx l r (.retry until_ (l.attempt r) reason) .deferring
  | .failed reason => write cx l r (.failed reason) .failing
  | .expired reason =>
      write cx l r (.expired reason) (match l with | .people => .failing | .dotns => .expiring)

def sign (nonce : Nat) (rows : List (Reservation × Account)) : Act Outside σ String Tx := do
  let rs := rows.map Prod.fst
  let hash ← Act.ofExcept (← createSigned l (l.tx rows cx.proxyFor) nonce rs)
  pure ⟨hash, nonce, rs⟩

def mark (r : Reservation) (tx : Tx) : Act Outside σ WriterError Unit := do
  let done : Bool ← dbCall (.mark l cx.guard r tx (l.attempt r + 1))
  if done then pure () else Act.fail (.leaseLost .submitting)

/-- Hand the signed extrinsic to the node and await what it finalized to. -/
def submit (tx : Tx) : Act Outside σ String Finalized := do
  Act.ofExcept (← submitAndWatch l tx)
  finalize cx l tx cx.finalizeTicks

def submitOne (nonce : Nat) (r : Reservation) (candidate : Account) : Act Outside σ String Unit := do
  let tx ← sign cx l nonce [(r, candidate)]
  Act.mapError WriterError.display (mark cx l r tx)
  let fin ← submit cx l tx
  Act.ofExcept (checkProxiedCall fin.describe fin.events)

def submitBatch (nonce : Nat) (rows : List (Reservation × Account)) :
    Act Outside σ String (List (Except String Unit)) := do
  let tx ← sign cx l nonce rows
  Act.forEach (fun row => Act.mapError WriterError.display (mark cx l row.1 tx)) rows
  let fin ← submit cx l tx
  Act.ofExcept (checkProxiedCall fin.describe fin.events)
  Act.ofExcept (itemResults fin)

end Calls

/-! ### The drain -/

/-- One lane's drain, and the state that persists between its passes. -/
structure Drain (l : Lane) where
  batch : BatchLane
  nonce : Option Nat
  link : l.Link

def batchReconcileBackoff : Time := seconds 10

def reconcileReadChunk : Nat := 50

/-- `slice::chunks`. -/
def chunks {α : Type} (n : Nat) (xs : List α) : List (List α) := go xs.length xs
where
  go : Nat → List α → List (List α)
    | 0, _ => []
    | _ + 1, [] => []
    | fuel + 1, x :: xs => (x :: xs).take n :: go fuel ((x :: xs).drop n)

namespace Drain

def new (l : Lane) (batchMax : Nat) (link : l.Link) : Drain l := ⟨.new batchMax, none, link⟩

variable (cx : Cx) {l : Lane}

def resetNonce : Act Outside (Drain l) WriterError Unit :=
  Act.modify fun drain => { drain with nonce := none }

def linkUp {ε : Type} : Act Outside (Drain l) ε Bool :=
  Act.zoom Drain.link (fun drain link => { drain with link := link }) l.up

def linkCtx {ε : Type} : Act Outside (Drain l) ε (Except String l.Ctx) :=
  Act.zoom Drain.link (fun drain link => { drain with link := link }) l.ctx

/-- Put rows back at an unchanged attempt, all behind one time. -/
def defer (rows : List Reservation) (backoff : Time) (reason : String) :
    Act Outside (Drain l) WriterError Unit := do
  let now ← nowUtc
  Act.forEach (fun r => record cx l r (.defer (now + backoff) reason .batch)) rows

/-- Put a whole batch back and halve the lane's size. -/
def retryBatch (rows : List Reservation) (reason : String) :
    Act Outside (Drain l) WriterError Unit := do
  let drain ← Act.get
  let (backoff, batch) := drain.batch.failed
  Act.modify fun drain => { drain with batch := batch }
  defer cx rows backoff reason

/-- Put rows back from a batch that submitted but whose items had to be read from the chain. -/
def deferReconciled (rows : List Reservation) (reason : String) :
    Act Outside (Drain l) WriterError Unit :=
  defer cx rows batchReconcileBackoff reason

/-- Record one row's failed submission, from what the chain shows and the attempts it has left. -/
def settle (r : Reservation) (candidate : Account) (observed : Option Account) (reason : String) :
    Act Outside (Drain l) WriterError Unit :=
  match classifySubmitFailure reason observed candidate (l.attempt r + 1) cx.maxAttempts with
  | .assign => record cx l r .landed
  | .park => record cx l r (.park reason)
  | .retry => record cx l r (.retry reason)
  | .defer => do
      let now ← nowUtc
      record cx l r (signerDefer now reason)
  | .fail => record cx l r (.failed (terminalReason reason))

def nextNonce (rows : List Reservation) : Act Outside (Drain l) WriterError Nat := do
  let drain ← Act.get
  match drain.nonce with
  | some n => pure n
  | none =>
      match ← accountNonce l cx.signerAccount rows with
      | .ok n =>
          Act.modify fun drain => { drain with nonce := some n }
          pure n
      | .error e => Act.fail (.chain e)

/-- A submission went through: the nonce is spent and the lane works. -/
def succeeded (nonce : Nat) : Act Outside (Drain l) WriterError Unit :=
  Act.modify fun drain =>
    { drain with nonce := some (nonce + 1), batch := drain.batch.succeeded }

/-- Submit one row on its own. -/
def one (r : Reservation) (candidate : Account) : Act Outside (Drain l) WriterError Unit := do
  match ← Act.attempt (nextNonce cx [r]) with
  | .error e => record cx l r (.retry (l.nonceFetch ++ ": " ++ e.display))
  | .ok nonce =>
      match ← Act.attempt (submitOne cx l nonce r candidate) with
      | .ok () =>
          succeeded nonce
          record cx l r .landed
      | .error reason =>
          resetNonce
          let observed ← ownerOf l r.fullUsername
          settle cx r candidate (observed.toOption.join) reason

/-- Resolve a batch whose items cannot be trusted from chain state alone. -/
def reconcileBatch (rows : List (Reservation × Account)) (reason : String) :
    Act Outside (Drain l) WriterError Unit := do
  match ← ownersOf l (rows.map fun row => row.1.fullUsername) with
  | .error e => deferReconciled cx (rows.map Prod.fst) (reason ++ "; owner read failed: " ++ e)
  | .ok owners =>
      let unlanded ← Act.collect (fun row : Reservation × Account =>
        if owners.lookup row.1.fullUsername = some row.2 then do
          record cx l row.1 .landed
          pure none
        else pure (some row)) rows
      if unlanded.isEmpty then pure () else deferReconciled cx (unlanded.map Prod.fst) reason

/-- The names of the rows whose item failed. -/
def failedNames (rows : List (Reservation × Account)) (items : List (Except String Unit)) :
    List String :=
  (rows.zip items).filterMap fun (row, item) =>
    match item with
    | .ok () => none
    | .error _ => some row.1.fullUsername

def itemMismatch : String := "batch item events did not match the calls submitted"

/-- Decide each row from its own item result. -/
def apply (rows : List (Reservation × Account)) (items : List (Except String Unit)) :
    Act Outside (Drain l) WriterError Unit := do
  if items.length ≠ rows.length then reconcileBatch cx rows itemMismatch
  else do
    -- a failed read counts as an empty answer
    let owners := ((← ownersOf l (failedNames rows items)).toOption).getD []
    Act.forEach (fun (row : (Reservation × Account) × Except String Unit) =>
      match row.2 with
      | .ok () => record cx l row.1.1 .landed
      | .error reason =>
          settle cx row.1.1 row.1.2 (owners.lookup row.1.1.fullUsername) reason) (rows.zip items)

/-- Submit a whole claimed set as one extrinsic. -/
def batchRows (rows : List (Reservation × Account)) : Act Outside (Drain l) WriterError Unit := do
  match ← Act.attempt (nextNonce cx (rows.map Prod.fst)) with
  | .error e => retryBatch cx (rows.map Prod.fst) (l.nonceFetch ++ ": " ++ e.display)
  | .ok nonce =>
      match ← Act.attempt (submitBatch cx l nonce rows) with
      | .ok items =>
          succeeded nonce
          apply cx rows items
      | .error e =>
          resetNonce
          retryBatch cx (rows.map Prod.fst) e

/-- The offline gate on one row: a row that does not pass is recorded at once. -/
def gateRow (ctx : l.Ctx) (wall : Time) (r : Reservation) :
    Act Outside (Drain l) WriterError (Option (Reservation × Account)) :=
  match l.gate cx.ext r ctx wall with
  | .ok candidate => pure (some (r, candidate))
  | .error gate => do
      record cx l r gate.outcome
      pure none

/-- The chain's word on one row: free rows are left to submit. -/
def checkOwner (owners : Owners) (row : Reservation × Account) :
    Act Outside (Drain l) WriterError (Option (Reservation × Account)) :=
  match owners.lookup row.1.fullUsername with
  | some owner => do
      record cx l row.1 (if owner = row.2 then .observed else .failed l.ownedElsewhere)
      pure none
  | none => pure (some row)

/-- Resolve every row decidable without submitting anything, and return the rest with their parsed
    candidate accounts. Its errors lose their kind on the way out. -/
def triage (ctx : l.Ctx) (due : List Reservation) :
    Act Outside (Drain l) WriterError (List (Reservation × Account)) :=
  Act.mapError (fun e => .chain e.display) do
    let wall ← nowUtc
    let gated ← Act.collect (gateRow cx ctx wall) due
    if gated.isEmpty then pure []
    else
      match ← ownersOf l (gated.map fun row => row.1.fullUsername) with
      | .error e =>
          retryBatch cx (gated.map Prod.fst) ("owner read failed: " ++ e)
          pure []
      | .ok owners => Act.collect (checkOwner cx owners) gated

/-- What is left after the triage goes out, alone or as one batch. -/
def submitRows : List (Reservation × Account) → Act Outside (Drain l) WriterError Unit
  | [] => pure ()
  | [(r, candidate)] => one cx r candidate
  | rows => batchRows cx rows

/-- Drain one claimed set; `true` means there was nothing due. -/
def pass : Act Outside (Drain l) WriterError Bool := do
  if ← linkUp then
    let drain ← Act.get
    let due : List Reservation ← dbCall (.claim l drain.batch.size)
    if due.isEmpty then pure true
    else
      hold cx
      match ← linkCtx with
      | .error e =>
          retryBatch cx due ("lane context read failed: " ++ e)
          pure false
      | .ok ctx =>
          let submittable ← triage cx ctx due
          submitRows cx submittable
          pure false
  else pure true

/-- The parse gate on one row left in flight. -/
def parseRow (r : Reservation) :
    Act Outside (Drain l) WriterError (Option (Reservation × Account)) :=
  match parseCandidate cx.ext r with
  | .ok candidate => pure (some (r, candidate))
  | .error gate => do
      record cx l r gate.outcome
      pure none

/-- One chunk of rows left in flight against one owner read; how many are still unread. -/
def reconcileChunk (unread : Nat) (chunk : List (Reservation × Account)) :
    Act Outside (Drain l) WriterError Nat := do
  match ← ownersOf l (chunk.map fun row => row.1.fullUsername) with
  | .error _ => pure (unread + chunk.length)
  | .ok owners =>
      Act.forEach (fun row : Reservation × Account =>
        record cx l row.1
          (if owners.lookup row.1.fullUsername = some row.2 then .observed
           else .retry l.reconciled)) chunk
      pure unread

/-- Reconcile the rows a previous writer left in flight against chain state. -/
def reconcileSubmitting : Act Outside (Drain l) WriterError Unit := do
  if ← linkUp then
    let stuck : List Reservation ← dbCall (.submitting l)
    let parsed ← Act.collect (parseRow cx) stuck
    let unread ← Act.fold (reconcileChunk cx) 0 (chunks reconcileReadChunk parsed)
    if 0 < unread then
      Act.fail (.chain ("reconcile could not read " ++ toString unread ++ " of " ++
        toString parsed.length ++ " SUBMITTING rows"))
    else pure ()
  else pure ()

end Drain

end DeviceUniqueness
