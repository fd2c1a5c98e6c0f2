import DeviceUniqueness.Chain.Messages

/-! The extrinsics a writer builds from its rows.

    A single row becomes a bare call, several rows one `force_batch` of their calls in claim order;
    a signer that is not the attester itself wraps either in a proxy call. -/

namespace DeviceUniqueness

/-- A dynamically typed call argument. -/
inductive Value where
  | bytes (bs : Bytes)
  | u128 (n : Nat)
  | variant (name : String) (args : List Value)
  | composite (items : List Value)
  | named (fields : List (String × Value))

/-- A call by pallet and name. -/
structure Payload where
  pallet : String
  call : String
  args : List Value

def sr25519Signature (bytes : Bytes) : Value := .variant "Sr25519" [.bytes bytes]

def reservedLabel : Option String → Value
  | some name => .variant "Some" [.bytes (utf8 name)]
  | none => .variant "None" []

/-- The consumer part of `attest`. -/
def consumerOf (r : Reservation) (candidate : Account) : Value :=
  .named [
    ("signature", sr25519Signature r.consumerRegistrationSignature),
    ("account", .bytes candidate.1),
    ("identifier_key", .bytes r.identifierKey),
    ("username", .bytes (utf8 r.fullUsername)),
    ("reserved_username", reservedLabel r.reservedUsername)]

def attestArgs (r : Reservation) (candidate : Account) : List Value :=
  [ .bytes candidate.1,
    sr25519Signature r.candidateSignature,
    .bytes r.ringVrfKey,
    .bytes r.proofOfOwnership,
    .variant "Some" [consumerOf r candidate] ]

def attestCall (r : Reservation) (candidate : Account) : Value :=
  .variant "PeopleLite" [.variant "attest" (attestArgs r candidate)]

def reserveNameArgs (r : Reservation) (candidate : Account) : List Value :=
  [ .bytes candidate.1,
    sr25519Signature (r.dotnsSignature.getD []),
    .bytes (utf8 r.fullUsername),
    .bytes r.identifierKey,
    reservedLabel r.reservedUsername,
    .u128 (r.dotnsSignedAt.getD 0).natAbs ]

def reserveNameCall (r : Reservation) (candidate : Account) : Value :=
  .variant "DotnsGateway" [.variant "reserve_name" (reserveNameArgs r candidate)]

def forceBatchCall (calls : Value) : Value := .variant "Utility" [.variant "force_batch" [calls]]

/-- `call` on behalf of `real`. -/
def proxied (real : Account) (call : Value) : Payload :=
  ⟨"Proxy", "proxy", [.variant "Id" [.bytes real.1], .variant "None" [], call]⟩

def buildRegistrationTx (r : Reservation) (candidate : Account) (proxyFor : Option Account) :
    Payload :=
  match proxyFor with
  | some real => proxied real (attestCall r candidate)
  | none => ⟨"PeopleLite", "attest", attestArgs r candidate⟩

def buildReserveNameTx (r : Reservation) (candidate : Account) (proxyFor : Option Account) :
    Payload :=
  match proxyFor with
  | some real => proxied real (reserveNameCall r candidate)
  | none => ⟨"DotnsGateway", "reserve_name", reserveNameArgs r candidate⟩

/-- One `force_batch` of the rows' calls, in claim order. -/
def buildBatchTx (call : Reservation → Account → Value) (rows : List (Reservation × Account))
    (proxyFor : Option Account) : Payload :=
  let calls := Value.composite (rows.map fun row => call row.1 row.2)
  match proxyFor with
  | some real => proxied real (forceBatchCall calls)
  | none => ⟨"Utility", "force_batch", [calls]⟩

def buildRegistrationBatchTx (rows : List (Reservation × Account)) (proxyFor : Option Account) :
    Payload :=
  buildBatchTx attestCall rows proxyFor

def buildReserveNameBatchTx (rows : List (Reservation × Account)) (proxyFor : Option Account) :
    Payload :=
  buildBatchTx reserveNameCall rows proxyFor

end DeviceUniqueness
