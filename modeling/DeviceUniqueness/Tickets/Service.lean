import DeviceUniqueness.Tickets.World

/-! The claim of an invitation ticket.

    The body is checked, the pool is counted, the oldest ticket is claimed in one transaction, and
    the account of the request is signed with the ticket's key. Every conversation with the database
    is tried up to four times. -/

namespace DeviceUniqueness.Tickets

open Schemes

/-- The libraries of the claim: the JSON parser, SS58, the rendering of a time, and sr25519 under the
    context of the chain's signatures. -/
structure TicketExt where
  parseJson : Bytes → Option Json
  accountFromStr : String → Option Account
  toIsoMillis : Time → String
  Keypair : Type
  expandMini : FixedBytes 32 → Except String Keypair
  fromEd25519 : FixedBytes 64 → Except String Keypair
  publicBytes : Keypair → FixedBytes 32
  sign : Keypair → FixedBytes 32 → Bytes → FixedBytes 64
  verify : FixedBytes 32 → Bytes → FixedBytes 64 → Bool

variable (ext : TicketExt)

/-! ### The body -/

/-- `type_name`. -/
def typeName : Json → String
  | .null => "null"
  | .bool _ => "boolean"
  | .num _ => "number"
  | .str _ => "string"
  | .arr _ => "array"
  | .obj _ => "object"

/-- `received_name`. -/
def receivedName (value : Option Json) : String := value.elim "nothing" typeName

def expected (wanted received : String) : String := s!"expected {wanted}, received {received}"

def mustNotBeEmpty : String := "must not be empty"

structure ClaimRequest where
  who : String
  whoAccount : Account
  dim : Dim

/-- The address and its account, with what is wrong with it. -/
def checkWho : Option Json → Option (String × Account) × List FieldError
  | some (.str s) =>
      let empty := if s.isEmpty then [⟨mustNotBeEmpty, "who"⟩] else []
      match ext.accountFromStr s with
      | some account => (some (s, account), empty)
      | none => (none, empty ++ [⟨"Invalid SS58 address format", "who"⟩])
  | other => (none, [⟨expected "string" (receivedName other), "who"⟩])

def checkDim : Option Json → Option Dim × List FieldError
  | some (.str s) =>
      match Dim.fromStr s with
      | some dim => (some dim, [])
      | none => (none, [⟨badDim, "dim"⟩])
  | _ => (none, [⟨badDim, "dim"⟩])
where
  badDim : String := "expected one of \"Game\"|\"ProofOfInk\""

def validateBody (body : Json) : Except (List FieldError) ClaimRequest :=
  match body with
  | .obj _ =>
      let (who, whoErrors) := checkWho ext (body.get "who")
      let (dim, dimErrors) := checkDim (body.get "dim")
      match who, dim, whoErrors ++ dimErrors with
      | some (who, whoAccount), some dim, [] => .ok ⟨who, whoAccount, dim⟩
      | _, _, errors => .error errors
  | body => .error [⟨expected "object" (typeName body), ""⟩]

/-- The request of a body, if it is one. -/
def requestOf (body : Bytes) : Except AppError ClaimRequest :=
  match ext.parseJson body with
  | none => .error .malformedJson
  | some json =>
      match validateBody ext json with
      | .ok request => .ok request
      | .error fields => .error (.invalidBody fields)

/-! ### Keys -/

/-- A seed of 32 bytes, or an expanded secret of 64. -/
def fromStoredSecret (secret : Bytes) : Except String ext.Keypair :=
  if h : secret.length = 32 then
    (ext.expandMini ⟨secret, h⟩).mapError fun e => s!"stored ticket secret is not a valid sr25519 key: {e}"
  else if h : secret.length = 64 then
    (ext.fromEd25519 ⟨secret, h⟩).mapError fun e => s!"stored ticket secret is not a valid sr25519 key: {e}"
  else .error s!"stored ticket secret has invalid length {secret.length} (expected 32 or 64)"

/-! ### The claim -/

abbrev Serving := Act TicketWorld Unit AppError

/-- What the database refuses is an internal error. -/
def answered {α : Type} : Except String α → Except AppError α
  | .ok x => .ok x
  | .error err => .error (.internal err)

def dbRetries : Nat := 3

/-- Try again, so many times, as long as it fails. -/
def retryDb {α : Type} (m : Serving α) : Nat → Serving α
  | 0 => m
  | attempts + 1 => do
      match ← (Act.attempt m : Serving (Except AppError α)) with
      | .ok value => pure value
      | .error _ => retryDb m attempts

def checkRateLimit (subject : String) : Serving Unit := do
  match ← ticketAsk (.allow subject) with
  | .ok () => pure ()
  | .error wait => Act.fail (.rateLimited wait)

def countAvailable (dim : Dim) (network : Network) : Serving Nat := do
  let reply ← ticketAsk (.count dim network)
  Act.ofExcept (answered reply)

def claimOldest (dim : Dim) (network : Network) (who : String) (now : Time) :
    Serving (Option ClaimedTicket) := do
  let begun ← ticketAsk .begin
  Act.ofExcept (answered begun)
  let row ← ticketAsk (.selectOldest dim network)
  match ← Act.ofExcept (answered row) with
  | none =>
      let done ← ticketAsk .rollback
      Act.ofExcept (answered done)
      pure none
  | some ticket =>
      let set ← ticketAsk (.setClaimed ⟨ticket.publicKey, who, now⟩)
      let _ ← Act.ofExcept (answered set)
      let done ← ticketAsk .commit
      Act.ofExcept (answered (reported done))
      pure (some ticket)

def claimResponse (ticket : ClaimedTicket) (signature : FixedBytes 64) (dim : Dim) (network : Network)
    (claimedBy : String) (claimedAt : Time) (remaining : Nat) : ClaimResponse where
  publicKey := hexEncode ticket.publicKey
  inviter := ticket.inviter
  dim := dim.asStr
  network := network.asStr
  claimedBy := claimedBy
  createdAt := ext.toIsoMillis ticket.createdAt
  claimedAt := ext.toIsoMillis claimedAt
  signature := hexEncode signature.1
  remaining := remaining

def claimTicket (network : Network) (subject : String) (body : Bytes) : Serving ClaimResponse := do
  let request ← Act.ofExcept (requestOf ext body)
  checkRateLimit subject
  let now ← ticketAsk .nowUtc
  let available ← retryDb (countAvailable request.dim network) dbRetries
  if available = 0 then Act.fail .poolExhausted
  else
    match ← retryDb (claimOldest request.dim network request.who now) dbRetries with
    | none => Act.fail .ticketRaceLost
    | some ticket =>
        let keypair ← Act.ofExcept (answered (fromStoredSecret ext ticket.privateKey))
        let nonce ← ticketAsk .nonce
        let signature := ext.sign keypair nonce request.whoAccount.1
        let remaining ← retryDb (countAvailable request.dim network) dbRetries
        pure (claimResponse ext ticket signature request.dim network request.who now remaining)

/-- The request, and what it is answered with. -/
def serveClaim (network : Network) (subject : String) (body : Bytes) :
    Act TicketWorld Unit String Unit := do
  let result ← Act.attempt (claimTicket ext network subject body)
  ticketAsk (.answer body result)

end DeviceUniqueness.Tickets
