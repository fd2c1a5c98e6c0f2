import DeviceUniqueness.Outbox.Schema

/-! The messages an account signs outside a transaction, and how a signature over one is checked.

    A runtime accepts a signature over the plain message, or over the message behind its 32-byte
    signing context. The candidate's message for a registration is a prefix followed by fixed-width
    fields; the message for a dotNS reservation is SCALE encoded. Address parsing and the sr25519
    check are the libraries' and stay parameters (`Ext`). -/

namespace DeviceUniqueness

/-- What the libraries decide: `AccountId32::from_str`, and `verify` of sr25519. -/
structure Ext where
  accountFromStr : String → Option Account
  verify : FixedBytes 64 → Bytes → Account → Bool

/-- The message form a runtime accepts for an account signature. -/
inductive AccountSignatureForm where
  | plain
  | inContext (context : FixedBytes 32)
  deriving DecidableEq

def popRegisterPrefix : Bytes := utf8 "pop:people-lite:register using"

def verifyAccountSignature (ext : Ext) (signature message : Bytes) (signer : Account)
    (form : AccountSignatureForm) : Bool :=
  if h : signature.length = 64 then
    let context : Bytes := match form with
      | .plain => []
      | .inContext context => context.1
    ext.verify ⟨signature, h⟩ (context ++ message) signer
  else false

def candidateMessage (candidatePubkey : Account) (ringVrfKey : Bytes) : Bytes :=
  popRegisterPrefix ++ candidatePubkey.1 ++ ringVrfKey

def verifyCandidateSignature (ext : Ext) (candidatePubkey : Account)
    (candidateSignature ringVrfKey : Bytes) (form : AccountSignatureForm) : Bool :=
  verifyAccountSignature ext candidateSignature (candidateMessage candidatePubkey ringVrfKey)
    candidatePubkey form

/-! ### The dotNS reservation -/

/-- The label without its digit suffix: what precedes the first dot. -/
def liteBase (liteLabel : String) : String :=
  String.ofList (liteLabel.toList.takeWhile (· ≠ '.'))

/-- A base without a dot is what precedes the dot put after it. -/
theorem liteBase_append {base : String} (rest : String) (h : 46 ∉ utf8 base) :
    liteBase (base ++ "." ++ rest) = base := by
  have hdot : ∀ c ∈ base.toList, c ≠ '.' := by
    rintro _ hc rfl
    refine h ?_
    rw [utf8_eq, List.mem_flatMap]
    exact ⟨'.', hc, by decide⟩
  rw [liteBase, String.toList_append, String.toList_append, List.append_assoc,
    List.takeWhile_append_of_pos (by simpa using hdot)]
  simp

/-- Little-endian bytes of `n`. -/
def littleEndian : Nat → Nat → Bytes
  | 0, _ => []
  | width + 1, n => UInt8.ofNat n :: littleEndian width (n / 256)

/-- SCALE `Compact<u32>`. -/
def scaleCompact (n : Nat) : Bytes :=
  if n < 2 ^ 6 then littleEndian 1 (4 * n)
  else if n < 2 ^ 14 then littleEndian 2 (4 * n + 1)
  else if n < 2 ^ 30 then littleEndian 4 (4 * n + 2)
  else 3 :: littleEndian 4 n

/-- SCALE encoding of a byte string. -/
def scaleBytes (bs : Bytes) : Bytes := scaleCompact bs.length ++ bs

def scaleOption : Option Bytes → Bytes
  | none => [0]
  | some bs => 1 :: scaleBytes bs

def reserveMsgPrefix : Bytes := utf8 "pop:dotns-gateway:reserve"

def reservationMessage (candidate attester : Account) (usernameBase chatKey : Bytes)
    (reservedBaseLabel : Option Bytes) (signedAt : Nat) : Bytes :=
  scaleBytes reserveMsgPrefix ++ candidate.1 ++ attester.1 ++ scaleBytes usernameBase ++
    scaleBytes chatKey ++ scaleOption reservedBaseLabel ++ littleEndian 8 signedAt

def verifyReservationSignature (ext : Ext) (signature : Bytes) (candidate attester : Account)
    (usernameBase chatKey : Bytes) (reservedBaseLabel : Option Bytes) (signedAt : Nat)
    (form : AccountSignatureForm) : Bool :=
  verifyAccountSignature ext signature
    (reservationMessage candidate attester usernameBase chatKey reservedBaseLabel signedAt)
    candidate form

/-- `i64` arithmetic that stops at the ends of the range. -/
def saturate64 (n : Int) : Int := max (-2 ^ 63) (min n (2 ^ 63 - 1))

def reservationExpired (signedAt : Int) (maxValiditySecs : Nat) (now : Int) : Bool :=
  saturate64 (signedAt + maxValiditySecs) < now

/-! ### The development accounts -/

def aliceSs58 : String := "5GrwvaEF5zXb26Fz9rcQpDWS57CtERHpNehXCPcNoHGKutQY"

def alice : Account :=
  ⟨[212, 53, 147, 199, 21, 253, 211, 28, 97, 20, 26, 189, 4, 169, 159, 214, 130, 44, 133, 88, 133,
    76, 205, 227, 154, 86, 132, 231, 165, 109, 162, 125], rfl⟩

def bob : Account :=
  ⟨[142, 175, 4, 21, 22, 135, 115, 99, 38, 201, 254, 161, 126, 37, 252, 82, 135, 97, 54, 147, 201,
    18, 144, 156, 178, 38, 170, 71, 148, 242, 106, 72], rfl⟩

/-- A ring key and an identifier key for `alice` to claim `wonderland` with. -/
def aliceRingKey : Bytes := List.replicate 32 7

def aliceIdentifierKey : Bytes := 4 :: List.replicate 64 9

/-- The signature of `alice` over her registration. -/
def aliceSignature : FixedBytes 64 :=
  ⟨[40, 39, 94, 56, 106, 12, 243, 3, 3, 230, 189, 211, 35, 166, 134, 215, 219, 222, 51, 93, 30,
    238, 205, 55, 242, 155, 32, 166, 99, 50, 209, 51, 87, 105, 200, 127, 134, 78, 13, 188, 90, 29,
    45, 121, 146, 64, 221, 120, 224, 24, 254, 252, 13, 4, 222, 183, 118, 40, 8, 108, 61, 200, 61,
    132], rfl⟩

/-- The signature of `alice` over her reservation of `wonderland` with `bob` as the attester. -/
def aliceDotnsSignature : FixedBytes 64 :=
  ⟨[22, 85, 228, 17, 124, 98, 239, 124, 238, 38, 30, 91, 161, 61, 217, 233, 106, 112, 103, 74,
    190, 82, 30, 224, 251, 39, 221, 116, 246, 216, 184, 70, 182, 237, 63, 25, 218, 52, 211, 176,
    70, 207, 41, 213, 235, 61, 8, 94, 213, 139, 163, 92, 5, 117, 248, 64, 20, 21, 182, 158, 135,
    183, 126, 143], rfl⟩

def aliceReservation : Bytes :=
  reservationMessage alice bob (utf8 "wonderland") aliceIdentifierKey (some (utf8 "wonderland"))
    1760000000

/-- The libraries' answers on the one address and the two signatures above. -/
def devExt : Ext where
  accountFromStr s := if s = aliceSs58 then some alice else none
  verify signature message signer :=
    signer = alice &&
      ((signature = aliceSignature && message = candidateMessage alice aliceRingKey) ||
        (signature = aliceDotnsSignature && message = aliceReservation))

end DeviceUniqueness
