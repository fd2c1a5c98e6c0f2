import DeviceUniqueness.Writer.Engine

/-! The writer process: take the lease, reconcile, drain until something goes wrong, start over.

    The process runs forever, a program here is finite: `fuel` bounds the turns of each loop, and a
    loop that runs out of it cuts the process off where it stands. Every finite piece of what the
    process does is a piece of `run config fuel` for enough fuel. -/

namespace DeviceUniqueness

open Schemes

/-- What a writer is configured with; `signerAccount` and `proxyFor` follow from its key. -/
structure WriterConfig where
  ext : Ext
  attester : Account
  signerAccount : Account
  proxyFor : Option Account
  holderId : String
  leaseName : String
  leaseTtl : Nat
  batchSize : Nat
  dotnsBatchSize : Nat
  finalizeTicks : Nat
  maxAttempts : Int
  queueEnabled : Bool
  queueFallbackAfter : Nat
  resourcePollInterval : Nat
  assetHubRpcUrl : String

/-- A job that fires on its own interval. -/
structure Ticker where
  every : Time
  last : Option Time

namespace Ticker

def new (every : Nat) : Ticker := ⟨seconds every, none⟩

def isDue (ticker : Ticker) (now : Time) : Bool := ticker.last.all fun t => ticker.every ≤ now - t

/-- Whether the job is due, marking it run if so. -/
def due {ε : Type} : Act Outside Ticker ε Bool := do
  let now ← instantNow
  let ticker ← Act.get
  if ticker.isDue now then
    Act.modify fun ticker => { ticker with last := some now }
    pure true
  else pure false

end Ticker

structure Writer where
  people : Drain .people
  dotns : Drain .dotns
  resources : Ticker
  stranded : Ticker

namespace Writer

def new (config : WriterConfig) : Writer where
  people := .new .people config.batchSize ()
  dotns := .new .dotns config.dotnsBatchSize (.new config.assetHubRpcUrl config.attester)
  resources := .new config.resourcePollInterval
  stranded := .new config.queueFallbackAfter

variable {ε α : Type}

def onPeople (m : Act Outside (Drain .people) ε α) : Act Outside Writer ε α :=
  Act.zoom Writer.people (fun writer drain => { writer with people := drain }) m

def onDotns (m : Act Outside (Drain .dotns) ε α) : Act Outside Writer ε α :=
  Act.zoom Writer.dotns (fun writer drain => { writer with dotns := drain }) m

def onResources (m : Act Outside Ticker ε α) : Act Outside Writer ε α :=
  Act.zoom Writer.resources (fun writer ticker => { writer with resources := ticker }) m

def onStranded (m : Act Outside Ticker ε α) : Act Outside Writer ε α :=
  Act.zoom Writer.stranded (fun writer ticker => { writer with stranded := ticker }) m

variable (config : WriterConfig)

def cxOf (guard : Guard) : Cx where
  ext := config.ext
  guard := guard
  signerAccount := config.signerAccount
  proxyFor := config.proxyFor
  maxAttempts := config.maxAttempts
  finalizeTicks := config.finalizeTicks
  leaseTtl := config.leaseTtl

/-- Wait until the lease is taken; `none` when cut off waiting. -/
def acquireLease : Nat → Act Outside Writer WriterError (Option Guard)
  | 0 => pure none
  | fuel + 1 => do
      let epoch : Option Nat ←
        dbCall (.tryAcquire config.leaseName config.holderId config.leaseTtl)
      match epoch with
      | some epoch => pure (some ⟨config.leaseName, config.holderId, epoch⟩)
      | none => acquireLease fuel

/-- The two halves of the queue's upkeep. Failures are logged and passed over. -/
def queue : Act Outside Writer WriterError Unit := do
  if config.queueEnabled then
    if ← onStranded Ticker.due then
      let _ ← Act.attempt (ε := WriterError) (dbCall .strandedQueued)
      pure ()
    else pure ()
  else
    let _ ← Act.attempt (ε := WriterError) (dbCall (.fallbackDrain config.queueFallbackAfter))
    pure ()

/-- The periodic passes. Of the resource readings only the dial of the Asset Hub link is kept. -/
def periodic : Act Outside Writer WriterError Unit := do
  if ← onResources Ticker.due then
    match ← attesterResources with
    | .ok () =>
        let _ ← onDotns Drain.linkUp
        pure ()
    | .error _ => pure ()
  else pure ()
  queue config

/-- One turn of the active loop. -/
def turn (guard : Guard) : Act Outside Writer WriterError Unit := do
  if ← heartbeat (cxOf config guard) then
    periodic config
    let _ ← onPeople (Drain.pass (cxOf config guard))
    let _ ← onDotns (Drain.pass (cxOf config guard))
    pure ()
  else Act.fail (.leaseLost .draining)

/-- Drain until something goes wrong; returning means being cut off. -/
def activeLoop (guard : Guard) : Nat → Act Outside Writer WriterError Unit
  | 0 => pure ()
  | fuel + 1 => do
      turn config guard
      activeLoop guard fuel

/-- The startup reconcile of both lanes. A failure is logged and passed over. -/
def reconcile (guard : Guard) : Act Outside Writer WriterError Unit := do
  match ← Act.attempt (onPeople (Drain.reconcileSubmitting (cxOf config guard))) with
  | .ok () => pure ()
  | .error e => startupReconcileFailed .people (WriterError.display e)
  match ← Act.attempt (onDotns (Drain.reconcileSubmitting (cxOf config guard))) with
  | .ok () => pure ()
  | .error e => startupReconcileFailed .dotns (WriterError.display e)

/-- Only a failed acquisition ends the process. -/
def runForever (fuel : Nat) : Nat → Act Outside Writer WriterError Unit
  | 0 => pure ()
  | turns + 1 => do
      match ← acquireLease config fuel with
      | none => pure ()
      | some guard =>
          onPeople Drain.resetNonce
          onDotns Drain.resetNonce
          reconcile config guard
          match ← Act.attempt (activeLoop config guard fuel) with
          | .ok () => pure ()
          | .error (_ : WriterError) => runForever fuel turns

/-- The writer process. -/
def run (fuel : Nat) : Prog Outside (Except WriterError Unit × Writer) :=
  runForever config fuel fuel (new config)

end Writer

end DeviceUniqueness
