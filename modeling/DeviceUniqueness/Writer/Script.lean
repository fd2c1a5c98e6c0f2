import DeviceUniqueness.Writer.Fleet

/-! Runs of a fleet that can be evaluated.

    A script says who goes on, and where an operation does not go smoothly what comes back instead.
    `player` plays it against the tables; a script played to its end is a run of the fleet. -/

namespace DeviceUniqueness

open Schemes

/-- How an operation of a scripted run comes back. Smoothly means: done, on a chain that knows no
    name yet and finalizes whatever it is given. -/
inductive Hint where
  | smooth
  | lost (err : String)
  | fails (err : String)
  | owned (account : Account)
  | finalized (fin : Finalized)

namespace Hint

def reply (s : Stmt) (db : Db) :
    Hint → Option { x : Reply s.Out × Db // Ask.Does db (.stmt s) x.1 x.2 }
  | .smooth => some ⟨(.ok (s.run db).1, (s.run db).2), s.run_does db⟩
  | .lost err => some ⟨(.lost (s.run db).1 err, (s.run db).2), s.run_does db⟩
  | .fails err => some ⟨(.refused err, db), rfl⟩
  | _ => none

/-- A chain's answer that is `out` when all goes smoothly. -/
def told {α : Type} (out : α) : Hint → Except String α
  | .fails err => .error err
  | _ => .ok out

def answer (db : Db) (hint : Hint) : (o : Ask) → Option { x : o.Ans × Db // o.Does db x.1 x.2 }
  | .stmt s => hint.reply s db
  | .nowUtc | .instantNow => some ⟨(db.now, db), rfl⟩
  | .connectAssetHub _ => some ⟨(hint.told ⟨86400, 60⟩, db), rfl⟩
  | .signatureForm _ => some ⟨(hint.told .plain, db), rfl⟩
  | .owners _ names =>
      match hint with
      | .owned account => some ⟨(.ok (names.map fun name => (name, account)), db), rfl⟩
      | hint => some ⟨(hint.told [], db), rfl⟩
  | .owner _ _ =>
      match hint with
      | .owned account => some ⟨(.ok (some account), db), rfl⟩
      | hint => some ⟨(hint.told none, db), rfl⟩
  | .accountNonce .. => some ⟨(hint.told 5, db), rfl⟩
  | .sign .. => some ⟨(hint.told "0x01", db), rfl⟩
  | .submitAndWatch .. => some ⟨(hint.told (), db), rfl⟩
  | .awaitFinalized .. =>
      match hint with
      | .finalized fin => some ⟨(.done (.ok fin), db), rfl⟩
      | hint => some ⟨(.done (hint.told ⟨[], fun _ => ""⟩), db), rfl⟩
  | .attesterResources => some ⟨(hint.told (), db), rfl⟩
  | .startupReconcileFailed .. => some ⟨((), db), rfl⟩

end Hint

def FleetEvent.act (db : Db) : (e : FleetEvent) → Option { db' : Db // e.Does db db' }
  | .tick d => some ⟨db.tick d, rfl⟩
  | .commitClaim id r queueGroup device =>
      match hc : db.commitClaim r queueGroup device with
      | some (id', db') => if hid : id' = id then some ⟨db', hid ▸ hc⟩ else none
      | none => none
  | .promote minGroup => some ⟨(db.promote minGroup).2, rfl⟩
  | .refreshGroup accountId group =>
      if hg : group ∈ [1, 2, 3, 4] then some ⟨db.refreshGroup accountId group hg, hg, rfl⟩ else none
  | .acquire name holderId ttl => some ⟨(db.tryAcquire name holderId ttl).2, rfl⟩
  | .renew g ttl => some ⟨(db.renew g ttl).2, rfl⟩

/-- The fleet, played. Writers are started by their configuration and the turns they are given. -/
def player (N : String) :
    Player (Fleet N) Hint ({ config : WriterConfig // config.leaseName = N } × Nat) where
  answer _ o db hint := hint.answer db o
  act e db := e.act db
  image k := ⟨Writer.run k.1.1 k.2, fun _ => ⟨k.1.1, k.2, k.1.2, rfl⟩⟩
  lose _ db := ⟨db, rfl⟩

/-! ### Two writers and a claim of `alice` -/

def testWriter (holderId : String) : { config : WriterConfig // config.leaseName = "chain-writer" } :=
  ⟨{ ext := devExt
     attester := bob
     signerAccount := bob
     proxyFor := some bob
     holderId := holderId
     leaseName := "chain-writer"
     leaseTtl := 30
     batchSize := 1
     dotnsBatchSize := 1
     finalizeTicks := 3
     maxAttempts := 8
     queueEnabled := true
     queueFallbackAfter := 60
     resourcePollInterval := 60
     assetHubRpcUrl := "wss://asset-hub" }, rfl⟩

def aliceClaim : NewReservation where
  accountId := aliceSs58
  candidateAccountId := aliceSs58
  base := "wonderland"
  digits := "07"
  fullUsername := "wonderland.07"
  candidateSignature := aliceSignature.1
  ringVrfKey := aliceRingKey
  proofOfOwnership := List.replicate 64 3
  consumerRegistrationSignature := List.replicate 64 5
  identifierKey := aliceIdentifierKey
  dotnsSignature := some aliceDotnsSignature.1
  dotnsSignedAt := some 1760000000
  reservedUsername := some "wonderland"
  payloadVersion := 1

abbrev Script := List (Move Hint FleetEvent
  ({ config : WriterConfig // config.leaseName = "chain-writer" } × Nat))

/-- The process goes on smoothly for some operations. -/
def goes (p n : Nat) : Script := List.replicate n (.op p .smooth)

/-- When the claim of `alice` comes in. -/
def claimedAt : Time := seconds 1760000100

end DeviceUniqueness
