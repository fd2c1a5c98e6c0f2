import DeviceUniqueness.Outbox.Lanes

/-! What can become of a row in a pass, and how a failed submission is told apart.

    A submission that failed leaves only a text behind. `classifySubmitFailure` reads it, together
    with the owner the chain shows and the attempts the row has spent, and decides whether the row
    has landed after all, waits without being charged, is charged and retried, or is given up. -/

namespace DeviceUniqueness

/-- `str::contains`. -/
def contains (s pat : String) : Bool := (utf8 s).tails.any (utf8 pat).isPrefixOf

/-! ### Errors of the writer -/

/-- What a writer was doing when it lost its lease. -/
inductive Op where
  | landing
  | failing
  | expiring
  | retrying
  | parking
  | deferring
  | submitting
  | draining
  | finalizing
  deriving DecidableEq, Repr

def Op.display : Op → String
  | .landing => "recording a row as landed"
  | .failing => "failing a row"
  | .expiring => "expiring a reservation"
  | .retrying => "scheduling a retry"
  | .parking => "parking a row"
  | .deferring => "re-queueing a batch"
  | .submitting => "marking rows submitting"
  | .draining => "draining"
  | .finalizing => "awaiting finalization"

inductive WriterError where
  | leaseLost (op : Op)
  | db (msg : String)
  | chain (msg : String)
  deriving DecidableEq, Repr

def WriterError.display : WriterError → String
  | .leaseLost op => "lost the writer lease while " ++ op.display
  | .db msg => msg
  | .chain msg => msg

/-! ### Outcomes -/

/-- Why a row was put back without being charged. -/
inductive Defer where
  | batch
  | signer
  | staleNonce
  | notYet
  deriving DecidableEq, Repr

inductive Outcome where
  | landed
  | observed
  | retry (reason : String)
  | park (reason : String)
  | defer (until_ : Time) (reason : String) (cause : Defer)
  | failed (reason : String)
  | expired (reason : String)
  deriving DecidableEq, Repr

/-- The verdict of a lane's offline checks on a row it will not submit. -/
inductive Gate where
  | failed (reason : String)
  | expired (reason : String)
  | notYet (until_ : Time) (reason : String)
  deriving DecidableEq, Repr

def Gate.outcome : Gate → Outcome
  | .failed reason => .failed reason
  | .expired reason => .expired reason
  | .notYet until_ reason => .defer until_ reason .notYet

/-! ### Reading a failed submission -/

inductive SubmitFailureAction where
  | assign
  | park
  | retry
  | defer
  | fail
  deriving DecidableEq, Repr

/-- The one runtime error that is a success: the username is already registered. -/
def alreadyRegistered : String := "PeopleLite::AlreadyRegistered"

def unfundedSigner : String := "Inability to pay some fees"

def unfundedParkBackoffSecs : Int := 300

/-- Refusals that say the signer's next nonce is contested, not that the row is wrong. -/
def signerContention : List String :=
  [ "Priority is too low",
    "priority of the transaction is too low",
    "too low priority",
    "Transaction Already Imported",
    "chainHead_follow emitted 'stop' event during transaction submission",
    "the connection was lost" ]

def signerContentionBackoffSecs : Int := 30

def staleNonce : String := "Transaction is outdated"

def staleNonceBackoffSecs : Int := 6

def finalizeTimeout : String := "finalization timed out"

def isSignerContention (reason : String) : Bool :=
  contains reason finalizeTimeout || contains reason staleNonce ||
    signerContention.any fun refusal => contains reason refusal

/-- Rejections that another submission cannot talk the runtime out of. -/
def deterministicRejections : List String :=
  [ "Resources::UsernameReservationTaken",
    "Resources::QueueFull",
    "Resources::AlreadyHasReservation" ]

def isDeterministicRejection (reason : String) : Bool :=
  deterministicRejections.any fun rejection => contains reason rejection

def terminalReason (reason : String) : String :=
  if isDeterministicRejection reason then "rejected deterministically, not retried: " ++ reason
  else "max attempts reached: " ++ reason

def classifySubmitFailure (reason : String) (observedOwner : Option Account) (candidate : Account)
    (completedAttempts maxAttempts : Int) : SubmitFailureAction :=
  if observedOwner = some candidate || contains reason alreadyRegistered then .assign
  else if contains reason unfundedSigner then .park
  else if isSignerContention reason then .defer
  else if isDeterministicRejection reason || maxAttempts ≤ completedAttempts then .fail
  else .retry

def signerDeferCause (reason : String) : Int × Defer :=
  if contains reason staleNonce then (staleNonceBackoffSecs, .staleNonce)
  else (signerContentionBackoffSecs, .signer)

def signerDefer (now : Time) (reason : String) : Outcome :=
  .defer (now + seconds (signerDeferCause reason).1) reason (signerDeferCause reason).2

def parkUntil (now : Time) : Time := now + seconds unfundedParkBackoffSecs

/-- The wait after a charged attempt: `2 ^ attempt` seconds, the exponent kept within `0..6`. -/
def rowBackoff (attempt : Int) : Time := seconds (2 ^ (max 0 (min attempt 6)).toNat)

theorem classify_assign {reason : String} {observed : Option Account} {candidate : Account}
    {completed most : Int}
    (h : classifySubmitFailure reason observed candidate completed most = .assign) :
    observed = some candidate ∨ contains reason alreadyRegistered = true := by
  unfold classifySubmitFailure at h
  split at h
  · next hc => simpa using hc
  · split_ifs at h

/-- A charged retry is never about the signer. -/
theorem classify_retry {reason : String} {observed : Option Account} {candidate : Account}
    {completed most : Int}
    (h : classifySubmitFailure reason observed candidate completed most = .retry) :
    contains reason unfundedSigner = false ∧ isSignerContention reason = false := by
  unfold classifySubmitFailure at h
  split_ifs at h
  simp_all

/-! ### The size of a lane's batches -/

def saturatingAdd16 (a b : Nat) : Nat := min (a + b) 65535

def settleBatchSize (current most : Nat) (succeeded : Bool) : Nat :=
  if succeeded then min (saturatingAdd16 current 1) most else max (current / 2) 1

def ceilingProbeRun : Nat := 20

/-- A lane's adaptive size and failure run. -/
structure BatchLane where
  size : Nat
  max : Nat
  failures : Nat
  ceiling : Option Nat
  clean : Nat
  deriving DecidableEq, Repr

namespace BatchLane

def new (most : Nat) : BatchLane where
  size := Nat.max most 1
  max := Nat.max most 1
  failures := 0
  ceiling := none
  clean := 0

def growLimit (lane : BatchLane) : Nat :=
  match lane.ceiling with
  | some c => Nat.max (min lane.max (c - 1)) 1
  | none => lane.max

def succeeded (lane : BatchLane) : BatchLane :=
  let clean := saturatingAdd16 lane.clean 1
  let probed : BatchLane :=
    if ceilingProbeRun ≤ clean then
      { lane with
        failures := 0
        clean := 0
        ceiling := lane.ceiling.bind fun c => if c < lane.max then some (c + 1) else none }
    else { lane with failures := 0, clean := clean }
  { probed with size := settleBatchSize probed.size probed.growLimit true }

/-- The lane after a failed batch, and how long the batch waits. -/
def failed (lane : BatchLane) : Time × BatchLane :=
  let size := settleBatchSize lane.size lane.max false
  let failures := saturatingAdd16 lane.failures 1
  (seconds (2 ^ Nat.max 1 (min failures 6)),
    { lane with
      size := size
      ceiling :=
        if size < lane.size then some ((lane.ceiling.map (min · lane.size)).getD lane.size)
        else lane.ceiling
      clean := 0
      failures := failures })

end BatchLane

end DeviceUniqueness
