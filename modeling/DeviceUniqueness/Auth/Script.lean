import DeviceUniqueness.Auth.Machine
import DeviceUniqueness.Intake.Script

/-! Runs of the auth routes that can be evaluated.

    A script says which request goes on, what comes in and what is drawn at random, and where an
    operation does not go smoothly what comes back instead. The clock of the replicas is the clock of
    the database. -/

namespace DeviceUniqueness

open Schemes

/-- How an operation of a scripted run comes back. -/
inductive AuthHint (Served : AuthConfig → AuthRequest → Prop) where
  | reply (hint : IntakeHint)
  | takes (config : AuthConfig) (req : AuthRequest) (served : Served config req)
  | draws (bytes : FixedBytes 32)

namespace AuthHint

variable {Served : AuthConfig → AuthRequest → Prop}

/-- The answer to a statement. -/
def statement (p : Nat) (st : AuthState) (hint : IntakeHint) :
    (o : AuthAsk) → Option { x : o.Ans × AuthState // AuthAsk.Does Served p st o x.1 x.2 }
  | .accept | .random => none
  | .nowUtc => some ⟨(st.now, st), rfl⟩
  | .insertChallenge challenge expiresAt =>
      if hfree : st.challenges challenge.1 = none then
        some ⟨hint.reply st () { st with
          challenges := Function.update st.challenges challenge.1 (some ⟨expiresAt, false⟩) },
          IntakeHint.reply_did fun hst => ⟨hfree, hst⟩⟩
      else none
  | .consumeChallenge challenge =>
      some ⟨hint.reply st (st.challengeUsable challenge) (st.consume challenge),
        IntakeHint.reply_did fun hst => ⟨rfl, hst⟩⟩
  | .findKey keyId =>
      some ⟨hint.reply st (st.keys keyId) st, IntakeHint.reply_did fun hst => ⟨rfl, hst⟩⟩
  | .commitSignCount keyId n =>
      some ⟨hint.reply st (st.signCountBelow keyId n)
        (if st.signCountBelow keyId n then st.setSignCount keyId n else st),
        IntakeHint.reply_did fun hst => ⟨rfl, hst⟩⟩
  | .upsertKey keyId publicKey _ =>
      some ⟨hint.reply st ()
        { st with keys := Function.update st.keys keyId (some ⟨publicKey, 0⟩) },
        IntakeHint.reply_did fun hst => hst⟩
  | .revokedSerials => some ⟨(hint.told [], st), rfl⟩
  | .googleDecode .. => some ⟨((.error "no credentials" : Except String TokenPayload), st), rfl⟩
  | .signToken .. => some ⟨("jwt", st), rfl⟩
  | .insertToken new =>
      if hfree : st.tokenFree p new.token then
        (st.tokens.insert new).attach.map fun tokens =>
          ⟨hint.reply st () { st with tokens := tokens.1 },
            IntakeHint.reply_did fun hst => ⟨hfree, tokens.1, tokens.2, hst⟩⟩
      else none
  | .begin =>
      match hint, htx : st.tx? p with
      | .smooth, none => some ⟨((.ok () : Reply Unit), st.opened p), htx, rfl⟩
      | .smooth, some _ => none
      | .lost err, _ => some ⟨((.lost () err : Reply Unit), st), rfl⟩
      | .fails err, _ => some ⟨((.refused err : Reply Unit), st), rfl⟩
  | .txSelect token =>
      match htx : st.tx? p with
      | none => none
      | some tx =>
          (tx.view st.tokens).attach.bind fun ⟨view, hview⟩ =>
            if hsome : (view.find? token).isSome then
              if hfree : st.rowFree p token then
                some ⟨hint.reply st (view.find? token)
                  (st.inTx p fun tx => { tx with locked := token :: tx.locked }),
                  IntakeHint.reply_did fun hst =>
                    ⟨tx, view, htx, hview, rfl, (if_pos hsome).mpr ⟨hfree, hst⟩⟩⟩
              else none
            else some ⟨hint.reply st (view.find? token) st, IntakeHint.reply_did fun hst =>
              ⟨tx, view, htx, hview, rfl, (if_neg hsome).mpr hst⟩⟩
  | .txMarkUsed token replacedBy =>
      match htx : st.tx? p with
      | none => none
      | some tx =>
          (tx.view st.tokens).attach.bind fun ⟨view, hview⟩ =>
            if hsome : (view.find? token).isSome then
              if hfree : st.rowFree p token then
                some ⟨hint.reply st () (st.inTx p fun tx =>
                  { tx with
                    locked := token :: tx.locked
                    writes := tx.writes ++ [.markUsed token replacedBy] }),
                  IntakeHint.reply_did fun hst =>
                    ⟨tx, view, htx, hview, (if_pos hsome).mpr ⟨hfree, hst⟩⟩⟩
              else none
            else some ⟨hint.reply st () st, IntakeHint.reply_did fun hst =>
              ⟨tx, view, htx, hview, (if_neg hsome).mpr hst⟩⟩
  | .txInsertToken new =>
      match htx : st.tx? p with
      | none => none
      | some tx =>
          (tx.view st.tokens).attach.bind fun ⟨view, hview⟩ =>
            if hfree : st.tokenFree p new.token ∧ (view.insert new).isSome then
              some ⟨hint.reply st ()
                (st.inTx p fun tx => { tx with writes := tx.writes ++ [.insert new] }),
                IntakeHint.reply_did fun hst => ⟨tx, view, htx, hview, hfree.1, hfree.2, hst⟩⟩
            else none
  | .commit =>
      match hint, htx : st.tx? p with
      | .fails err, _ => some ⟨((.refused err : Reply Unit), st.close p), rfl⟩
      | _, none => none
      | .smooth, some tx => (tx.view st.tokens).attach.map fun t =>
          ⟨((.ok () : Reply Unit), st.committed p tx t.1), tx, t.1, htx, t.2, rfl⟩
      | .lost err, some tx => (tx.view st.tokens).attach.map fun t =>
          ⟨((.lost () err : Reply Unit), st.committed p tx t.1), tx, t.1, htx, t.2, rfl⟩
  | .rollback => some ⟨((.ok () : Reply Unit), st.close p), rfl⟩

def answer (p : Nat) (o : AuthAsk) (st : AuthState) :
    AuthHint Served → Option { x : o.Ans × AuthState // AuthAsk.Does Served p st o x.1 x.2 }
  | .reply hint => statement p st hint o
  | .takes config req served =>
      match o with
      | .accept => some ⟨((config, req), st), served, rfl⟩
      | _ => none
  | .draws bytes =>
      match o with
      | .random => some ⟨(bytes, st), rfl⟩
      | _ => none

end AuthHint

/-- The auth routes, played. -/
def authPlayer (ext : AuthExt) (Served : AuthConfig → AuthRequest → Prop) :
    Player (Auth ext Served) (AuthHint Served) Unit where
  answer p o st hint := hint.answer p o st
  act e st := some ⟨e.act st, rfl⟩
  image _ := ⟨serve ext (), fun _ => rfl⟩
  lose p st := ⟨st.close p, rfl⟩

/-- The request goes on smoothly for some operations. -/
def proceeds {Served : AuthConfig → AuthRequest → Prop} (p n : Nat) :
    List (Move (AuthHint Served) AuthEvent Unit) :=
  List.replicate n (.op p (.reply .smooth))

/-! ### A token for `alice`, from an iOS device -/

def authChallenge : FixedBytes 32 := ⟨List.replicate 32 9, rfl⟩

def emptyBodyHash : FixedBytes 32 :=
  ⟨[68, 19, 111, 163, 85, 179, 103, 138, 17, 70, 173, 22, 247, 232, 100, 158, 148, 251, 79, 194, 31,
    231, 126, 131, 16, 192, 96, 246, 28, 170, 255, 138], rfl⟩

def aliceDataHash : FixedBytes 32 :=
  ⟨[238, 83, 139, 88, 194, 129, 90, 71, 215, 38, 13, 192, 20, 219, 175, 26, 156, 177, 233, 78, 142,
    12, 2, 140, 141, 229, 18, 26, 172, 43, 119, 56], rfl⟩

def appIdHash : FixedBytes 32 :=
  ⟨[218, 21, 120, 219, 99, 190, 125, 155, 73, 145, 18, 147, 92, 78, 32, 105, 62, 79, 248, 121, 180,
    62, 75, 186, 111, 146, 104, 175, 214, 49, 226, 151], rfl⟩

def firstNonce : FixedBytes 32 :=
  ⟨[91, 55, 225, 0, 70, 169, 30, 68, 41, 26, 125, 72, 57, 97, 231, 15, 236, 0, 174, 175, 194, 88,
    141, 1, 235, 106, 3, 108, 97, 103, 210, 12], rfl⟩

/-- The authenticator data of the first assertion: the app, the flags, the counter. -/
def firstAuthData : Bytes := appIdHash.1 ++ [64, 0, 0, 0, 1]

/-- The CBOR map of a signature and the authenticator data. -/
def firstAssertion : Bytes :=
  [162, 105] ++ utf8 "signature" ++ [65, 3] ++ [113] ++ utf8 "authenticatorData" ++ [88, 37] ++
    firstAuthData

/-- The libraries on the requests below. The digests are SHA-256; the proof of 64 fives stands for
    the account's signature, and the bytes 4 and 3 for the key and its signature of the assertion. -/
def aliceExt : AuthExt where
  accountFromStr := devExt.accountFromStr
  verify signature message signer :=
    signature.1 = List.replicate 64 5 && message = aliceDataHash.1 && signer = alice
  describe _ := ""
  sha256 m :=
    if m = utf8 "\x7b\x7d" then emptyBodyHash
    else if m = authChallenge.1 ++ alice.1 ++ emptyBodyHash.1 then aliceDataHash
    else if m = utf8 "27CAKE44.io.pcf.polkadotapp" then appIdHash
    else if m = firstAuthData ++ aliceDataHash.1 then firstNonce
    else ⟨List.replicate 32 0, length_zeros⟩
  hmacSha256 _ _ := ⟨List.replicate 32 0, length_zeros⟩
  verifyChain _ _ := .error "no chain"
  jsonFromSlice _ := .error "no JSON"
  cborFromReader bytes :=
    if bytes = firstAssertion then
      .ok (.map [(.text "signature", .bytes [3]), (.text "authenticatorData", .bytes firstAuthData)])
    else .error "unexpected byte"
  certFromDer _ := .error "no certificate"
  checkValidity _ _ := .error "expired"
  verifySignedBy _ _ := .error "bad signature"
  p256Key key := if key = [4] then .ok () else .error "crypto error"
  p256Signature signature := signature = [3]
  p256Verify key message signature := key = [4] && message = firstNonce.1 && signature = [3]
  decryptAndVerify _ _ _ := .error .signature
  appleRootCa := []

/-- Attestation is enabled and enforced. -/
def hardConfig : AuthConfig where
  authEnabled := true
  enforceAuth := true
  accessTtl := 3600
  refreshTtl := 86400
  challengeTtl := 300
  iosPackageNames := ["io.pcf.polkadotapp"]
  appleAppAttestAppIds := ["27CAKE44.io.pcf.polkadotapp"]
  androidPackageNames := []
  androidSigningDigestPlaystore := none
  androidSigningDigestWebsite := none
  playIntegrityMode := .strict
  playIntegrityDecryptionKey := none
  playIntegrityVerificationKey := none
  playIntegrityGoogle := false

/-- A request for a token with the first assertion of key `AQ==`. -/
def aliceTokenRequest : AuthRequest :=
  .token ⟨[
    ("auth-clientid", base64Encode alice.1),
    ("auth-clientproof", base64Encode (List.replicate 64 5)),
    ("auth-challenge", base64Encode authChallenge.1),
    ("auth-ios-package", utf8 "io.pcf.polkadotapp"),
    ("auth-ios-keyid", utf8 "AQ=="),
    ("auth-payload", base64Encode firstAssertion)]⟩ (utf8 "\x7b\x7d")

/-- A challenge is out and the key is registered; nothing else is in the tables. -/
def AuthState.fresh : AuthState where
  now := seconds 1760000100
  challenges c := if c = authChallenge.1 then some ⟨seconds 1760000400, false⟩ else none
  keys k := if k = [1] then some ⟨[4], 0⟩ else none
  tokens := .empty
  txs := []
  rotations := []

def freshTokenBytes (n : UInt8) : FixedBytes 32 := ⟨List.replicate 32 n, rfl⟩

/-- The text of a token drawn. -/
def drawnToken (n : UInt8) : String := ofAscii (base64Encode (freshTokenBytes n).1)

/-- Alice's request is served by process 0 up to its refresh token. -/
def aliceScript {Served : AuthConfig → AuthRequest → Prop}
    (h : Served hardConfig aliceTokenRequest) : List (Move (AuthHint Served) AuthEvent Unit) :=
  [.start 0 (), .op 0 (.takes _ _ h)] ++ proceeds 0 4 ++ [.op 0 (.draws (freshTokenBytes 1))] ++
    proceeds 0 2

/-- A refresh of the token by process 1, up to its commit. -/
def refreshScript {Served : AuthConfig → AuthRequest → Prop}
    (h : Served hardConfig (.refresh (drawnToken 1))) :
    List (Move (AuthHint Served) AuthEvent Unit) :=
  [.start 1 (), .op 1 (.takes _ _ h)] ++ proceeds 1 3 ++ [.op 1 (.draws (freshTokenBytes 2))] ++
    proceeds 1 4

end DeviceUniqueness
