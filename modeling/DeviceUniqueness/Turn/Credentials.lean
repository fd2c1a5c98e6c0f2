import DeviceUniqueness.Schemes.Delimited
import DeviceUniqueness.Text.Base64
import DeviceUniqueness.Text.Strings

/-! TURN credentials from the shared secret of the relay.

    A username says until when it is good and whom it is for, and its password is the HMAC of it. For
    a bearer the id is drawn at random. For a proof it is made from the product, the alias and the
    expiry, so that the same proof has the same id and two proofs never share one by the way their
    fields are put together. -/

namespace DeviceUniqueness.Turn

open Schemes

/-- The hash under the HMAC. -/
inductive Algorithm where
  | sha1
  | sha256
  | sha384
  | sha512
  deriving DecidableEq

/-- The bytes of a digest. -/
def Algorithm.width : Algorithm → Nat
  | sha1 => 20
  | sha256 => 32
  | sha384 => 48
  | sha512 => 64

/-- HMAC with the hash, of a key and a message. -/
structure HmacExt where
  hmac : (algorithm : Algorithm) → Bytes → Bytes → FixedBytes algorithm.width

structure Credentials where
  username : String
  password : String
  deriving DecidableEq

structure Issuer where
  secret : Bytes
  algorithm : Algorithm
  ttlSecs : UInt64

namespace Issuer

variable (ext : HmacExt) (issuer : Issuer)

def passwordFor (username : String) : String :=
  ofAscii (base64Encode (ext.hmac issuer.algorithm issuer.secret (utf8 username)).1)

def usernameFor (expiry : UInt64) (id : Bytes) : String :=
  toString expiry.toNat ++ ":" ++ hexLower id

def issueUntil (expiry : UInt64) (id : Bytes) : Credentials :=
  let username := usernameFor expiry id
  ⟨username, issuer.passwordFor ext username⟩

/-- The sum is one of machine integers. -/
def issue (nowUnix : UInt64) (id : FixedBytes 8) : Credentials :=
  issuer.issueUntil ext (nowUnix + issuer.ttlSecs) id.1

/-- `u64::try_from` and `to_be_bytes`. -/
def lengthBytes (bytes : Bytes) : Option Bytes :=
  if bytes.length < 2 ^ 64 then some (beBytes64 bytes.length) else none

/-- What the id of a proof authenticates. There is none for lengths that do not fit a `u64`, which is
    where the code would panic. -/
def proofMessage (productId : String) (proofAlias : Bytes) (expiry : UInt64) : Option Bytes := do
  let productLen ← lengthBytes (utf8 productId)
  let aliasLen ← lengthBytes proofAlias
  return utf8 "dub/turn-proof-credential-id/v1\x00" ++ productLen ++ utf8 productId ++ aliasLen ++
    proofAlias ++ beBytes64 expiry.toNat

def issueForProof (nowUnix : UInt64) (productId : String) (proofAlias : Bytes) : Option Credentials := do
  let expiry := nowUnix + issuer.ttlSecs
  let message ← proofMessage productId proofAlias expiry
  let digest := ext.hmac .sha256 issuer.secret message
  return issuer.issueUntil ext expiry (digest.1.take 16)

end Issuer

/-! ### What the message determines -/

open Issuer

theorem delimited_beBytes64 : Delimited {n | n < 2 ^ 64} beBytes64 :=
  .of_width (fun n _ => length_beBytes64 n) beBytes64_injOn

theorem lengthBytes_eq_some {bytes framed : Bytes} (h : lengthBytes bytes = some framed) :
    bytes.length < 2 ^ 64 ∧ framed = beBytes64 bytes.length := by
  obtain ⟨hlt, h⟩ := Option.ite_none_right_eq_some.mp h
  exact ⟨hlt, (Option.some.inj h).symm⟩

theorem proofMessage_eq_some {productId : String} {proofAlias message : Bytes} {expiry : UInt64}
    (h : proofMessage productId proofAlias expiry = some message) :
    (utf8 productId).length < 2 ^ 64 ∧ proofAlias.length < 2 ^ 64 ∧
      message = utf8 "dub/turn-proof-credential-id/v1\x00" ++
        ((beBytes64 (utf8 productId).length ++ utf8 productId) ++
          ((beBytes64 proofAlias.length ++ proofAlias) ++ (beBytes64 expiry.toNat ++ []))) := by
  obtain ⟨productLen, hproduct, h⟩ := Option.bind_eq_some_iff.mp h
  obtain ⟨aliasLen, halias, h⟩ := Option.bind_eq_some_iff.mp h
  obtain ⟨hproductLen, rfl⟩ := lengthBytes_eq_some hproduct
  obtain ⟨haliasLen, rfl⟩ := lengthBytes_eq_some halias
  obtain rfl := Option.some.inj h
  refine ⟨hproductLen, haliasLen, ?_⟩
  simp only [List.append_assoc, List.append_nil]

/-- The lengths in front say where the product id and the alias end. -/
theorem proofMessage_inj {productId productId' : String} {proofAlias proofAlias' message : Bytes}
    {expiry expiry' : UInt64} (h : proofMessage productId proofAlias expiry = some message)
    (h' : proofMessage productId' proofAlias' expiry' = some message) :
    productId = productId' ∧ proofAlias = proofAlias' ∧ expiry = expiry' := by
  obtain ⟨hproduct, halias, rfl⟩ := proofMessage_eq_some h
  obtain ⟨hproduct', halias', hmessage⟩ := proofMessage_eq_some h'
  have hmessage := List.append_cancel_left hmessage
  obtain ⟨hid, hmessage⟩ := delimited_beBytes64.counted hproduct hproduct' hmessage
  obtain ⟨hal, hmessage⟩ := delimited_beBytes64.counted halias halias' hmessage
  have hexpiry := delimited_beBytes64 expiry.toNat_lt expiry'.toNat_lt hmessage
  exact ⟨utf8_injective hid, hal, UInt64.toNat_inj.mp hexpiry.1⟩

/-! ### What the username determines -/

/-- A colon is no digit, so the first one ends the expiry. -/
theorem usernameFor_inj {expiry expiry' : UInt64} {id id' : Bytes}
    (h : usernameFor expiry id = usernameFor expiry' id') : expiry = expiry' ∧ id = id' := by
  have hbytes := congrArg utf8 h
  simp only [usernameFor, utf8_append, List.append_assoc] at hbytes
  have hdigits : (58 : UInt8) ∉ utf8 (toString expiry.toNat) := fun hmem =>
    absurd (isAsciiDigit_toString _ _ hmem) (by decide)
  have hhex : (58 : UInt8) ∉ utf8 (hexLower id) := fun hmem =>
    absurd (isSome_hexValue (hexDecode_hexLower id) _ hmem) (by decide)
  obtain ⟨hexpiry, -, hid⟩ := (List.append_cons_inj_of_notMem hdigits hhex).mp hbytes
  have hread := readDigits_toString expiry.toNat
  rw [hexpiry, readDigits_toString] at hread
  exact ⟨UInt64.toNat_inj.mp (Option.some.inj hread).symm, hexLower_inj (utf8_injective hid)⟩

theorem isSome_proofMessage {productId : String} {proofAlias : Bytes} {expiry : UInt64} :
    (proofMessage productId proofAlias expiry).isSome ↔
      (utf8 productId).length < 2 ^ 64 ∧ proofAlias.length < 2 ^ 64 := by
  rw [proofMessage, lengthBytes, lengthBytes]
  split_ifs <;> simp_all

/-- There is a message whenever the lengths fit. The fields of a proof are read off the message, and
    the expiry and the id off the username. A bearer's id has eight bytes and a proof's has sixteen,
    so no username is both. -/
theorem credentials_identified (ext : HmacExt) :
    (∀ (productId : String) (proofAlias : Bytes) (expiry : UInt64),
      (proofMessage productId proofAlias expiry).isSome ↔
        (utf8 productId).length < 2 ^ 64 ∧ proofAlias.length < 2 ^ 64) ∧
    (∀ (productId productId' : String) (proofAlias proofAlias' : Bytes) (expiry expiry' : UInt64)
      (message : Bytes), proofMessage productId proofAlias expiry = some message →
      proofMessage productId' proofAlias' expiry' = some message →
      productId = productId' ∧ proofAlias = proofAlias' ∧ expiry = expiry') ∧
    (∀ (issuer issuer' : Issuer) (expiry expiry' : UInt64) (id id' : Bytes),
      (issuer.issueUntil ext expiry id).username = (issuer'.issueUntil ext expiry' id').username →
      expiry = expiry' ∧ id = id') ∧
    ∀ (issuer issuer' : Issuer) (now now' : UInt64) (id : FixedBytes 8) (productId : String)
      (proofAlias : Bytes) (credentials : Credentials),
      issuer'.issueForProof ext now' productId proofAlias = some credentials →
      (issuer.issue ext now id).username ≠ credentials.username := by
  refine ⟨fun _ _ _ => isSome_proofMessage, fun _ _ _ _ _ _ _ h h' => proofMessage_inj h h',
    fun _ _ _ _ _ _ h => usernameFor_inj h, ?_⟩
  intro issuer issuer' now now' id productId proofAlias credentials hproof husername
  obtain ⟨message, -, hproof⟩ := Option.bind_eq_some_iff.mp hproof
  obtain rfl := Option.some.inj hproof
  obtain ⟨-, hid⟩ := usernameFor_inj husername
  have hwidth := congrArg List.length hid
  rw [List.length_take, (ext.hmac .sha256 issuer'.secret message).2, id.2] at hwidth
  exact absurd hwidth (by decide)

theorem credentials_identified_apart :
    let ext : HmacExt := ⟨fun algorithm _ _ => ⟨List.replicate algorithm.width 0,
      List.length_replicate⟩⟩
    let issuer : Issuer := ⟨utf8 "secret", .sha1, 600⟩
    ∃ message credentials, proofMessage "product" [1, 2] 1000 = some message ∧
      issuer.issueForProof ext 400 "product" [1, 2] = some credentials ∧
      (issuer.issue ext 400 ⟨List.replicate 8 0, rfl⟩).username ≠ credentials.username := by
  intro ext issuer
  have hsome := ((credentials_identified ext).1 "product" [1, 2] 1000).mpr (by decide)
  obtain ⟨message, hmessage⟩ := Option.isSome_iff_exists.mp hsome
  have hproof : issuer.issueForProof ext 400 "product" [1, 2] =
      some (issuer.issueUntil ext 1000 ((ext.hmac .sha256 issuer.secret message).1.take 16)) := by
    have hexpiry : 400 + issuer.ttlSecs = 1000 := rfl
    simp only [issueForProof, hexpiry, hmessage]
    rfl
  exact ⟨message, _, hmessage, hproof, (credentials_identified ext).2.2.2 _ _ _ _ _ _ _ _ hproof⟩

end DeviceUniqueness.Turn
