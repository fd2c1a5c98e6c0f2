import DeviceUniqueness.Intake.Script
import DeviceUniqueness.Tickets.Maintainer

/-! Runs of the claim service and the maintainer that can be evaluated.

    A script says which process goes on, what it draws at random and what the chain reports, and
    where an operation does not go smoothly what comes back instead. -/

namespace DeviceUniqueness.Tickets

open Schemes

/-- How an operation of a scripted run comes back. -/
inductive TicketHint where
  | reply (hint : IntakeHint)
  | draws (bytes : FixedBytes 32)
  | reports (status : Option TxStatus)
  | finds (events : List (Except String Event))

namespace TicketHint

/-- The oldest row nobody has locked. -/
def oldest (table : TicketTable) (dim : Dim) (network : Network) : Option ClaimedTicket :=
  -- the order is given by name so that the script can be evaluated
  (@List.argmin _ _ Int.instLinearOrder.toPreorder _ (fun row : Ticket => row.createdAt)
    (table.claimable dim network)).map Ticket.toClaimedTicket

theorem oldest_oldest (table : TicketTable) (dim : Dim) (network : Network) :
    Oldest (table.claimable dim network) (oldest table dim network) := by
  rw [oldest]
  cases h : @List.argmin _ _ Int.instLinearOrder.toPreorder _ (fun row : Ticket => row.createdAt)
      (table.claimable dim network) with
  | none => exact List.argmin_eq_none.mp h
  | some row =>
    refine ⟨row, List.argmin_mem h, rfl, fun row' hrow' => ?_⟩
    exact List.le_of_mem_argmin (f := fun row : Ticket => row.createdAt) hrow' h

/-- A step of the submission. -/
def waited (hint : IntakeHint) : Awaited Unit := .ready (hint.told ())

/-- The answer to what needs no more than that it is done. -/
def statement (p : Nat) (st : PoolState) (hint : IntakeHint) :
    (o : TicketAsk) → Option { x : o.Ans × PoolState // TicketAsk.Does p st o x.1 x.2 }
  | .nonce | .seed | .nextStatus | .waitForSuccess => none
  | .allow _ => some ⟨(match hint with | .smooth => .ok () | _ => .error 1, st), rfl⟩
  | .nowUtc => some ⟨(st.now, st), rfl⟩
  | .count dim network =>
      some ⟨(hint.told (st.table.countAvailable dim network), st), rfl,
        fun _ => IntakeHint.told_eq_ok⟩
  | .availableInvites .. | .freeBalance _ => some ⟨(hint.told 100, st), rfl⟩
  | .begin => some ⟨(hint.told (), st), rfl⟩
  | .rollback => some ⟨(hint.told (), st.abort p), rfl⟩
  | .selectOldest dim network =>
      match hint with
      | .smooth =>
          some ⟨((.ok (oldest st.table dim network) : Except String _),
            match oldest st.table dim network with
            | some ticket => { st with table := st.table.lockRow p ticket.publicKey }
            | none => st), oldest_oldest st.table dim network, rfl⟩
      | .lost err | .fails err => some ⟨((.error err : Except String _), st.abort p), rfl⟩
  | .setClaimed flip =>
      match hint with
      | .smooth =>
          some ⟨((.ok 1 : Except String Nat),
            { st with flips := Function.update st.flips p (some flip) }), rfl⟩
      | .lost err | .fails err => some ⟨((.error err : Except String Nat), st.abort p), rfl⟩
  | .commit =>
      match hint with
      | .smooth => some ⟨((.ok () : Reply Unit), st.commit p), rfl⟩
      | .lost err => some ⟨((.lost () err : Reply Unit), st.commit p), rfl⟩
      | .fails err => some ⟨((.refused err : Reply Unit), st.abort p), rfl⟩
  | .insertAvailable new =>
      some ⟨hint.reply st () { st with table := st.table.insertAvailable new st.now },
        IntakeHint.reply_did fun hst => hst⟩
  | .tryLock =>
      if hfree : st.lock = none ∨ st.lock = some p then
        some ⟨((.ok true : Except String Bool), { st with lock := some p }), hfree, rfl⟩
      else some ⟨((.ok false : Except String Bool), st), fun hnone => hfree (.inl hnone), rfl⟩
  | .unlock =>
      if hown : st.lock = some p then some ⟨((), { st with lock := none }), .inr ⟨hown, rfl⟩⟩
      else none
  | .txClient | .createSigned _ | .submitAndWatch _ => some ⟨(waited hint, st), rfl⟩
  | .answer .. | .resize .. => some ⟨((), st), rfl⟩

def answer (p : Nat) (o : TicketAsk) (st : PoolState) :
    TicketHint → Option { x : o.Ans × PoolState // TicketAsk.Does p st o x.1 x.2 }
  | .reply hint => statement p st hint o
  | .draws bytes =>
      match o with
      | .nonce | .seed => some ⟨(bytes, st), rfl⟩
      | _ => none
  | .reports status =>
      match o with
      | .nextStatus => some ⟨((.ready (.ok status) : Awaited _), st), rfl⟩
      | _ => none
  | .finds events =>
      match o with
      | .waitForSuccess => some ⟨((.ready (.ok events) : Awaited _), st), rfl⟩
      | _ => none

end TicketHint

/-- What a process of a script runs. -/
inductive TicketImage where
  | claim (network : Network) (subject : String) (body : Bytes)
  | maintain (identity : InviterIdentity) (network : Network) (patience : Nat) (dims : List Dim)
      (turns : Nat)

def ticketPlayer (ext : TicketExt) (tuning : PoolTuning) :
    Player (Invites ext tuning) TicketHint TicketImage where
  answer := TicketHint.answer
  act d st := some ⟨{ st with now := st.now + d }, rfl⟩
  image
    | .claim network subject body =>
        ⟨serveClaim ext network subject body (), fun _ => .inl ⟨network, subject, body, rfl⟩⟩
    | .maintain identity network patience dims turns =>
        ⟨runLoop ext identity network tuning patience dims turns (),
          fun _ => .inr ⟨identity, network, patience, dims, turns, rfl⟩⟩
  lose p st := ⟨st.lose p, rfl⟩

/-- The process goes on smoothly for some operations. -/
def goesOn (p n : Nat) : List (Move TicketHint Nat TicketImage) :=
  List.replicate n (.op p (.reply .smooth))

/-! ### Two tickets, and an invitation for `alice` -/

/-- The key pairs of two seeds. -/
inductive DevKey where
  | fives
  | nines
  deriving DecidableEq

namespace DevKey

def seed : DevKey → FixedBytes 32
  | .fives => ⟨List.replicate 32 5, rfl⟩
  | .nines => ⟨List.replicate 32 9, List.length_replicate⟩

def publicKey : DevKey → FixedBytes 32
  | .fives =>
      ⟨[70, 13, 78, 164, 202, 146, 95, 159, 238, 213, 227, 197, 165, 70, 203, 11, 11, 148, 71, 196,
        229, 52, 104, 184, 209, 113, 97, 39, 100, 7, 131, 13], rfl⟩
  | .nines =>
      ⟨[106, 16, 190, 2, 157, 30, 210, 131, 68, 101, 135, 20, 90, 79, 136, 82, 37, 72, 155, 73, 4,
        36, 160, 50, 141, 204, 226, 164, 138, 230, 254, 97], rfl⟩

/-- The signature of the key over the account of `alice`. -/
def signature : DevKey → FixedBytes 64
  | .fives =>
      ⟨[20, 156, 105, 16, 206, 174, 194, 201, 49, 240, 57, 157, 86, 41, 180, 240, 42, 75, 129, 129,
        54, 37, 111, 3, 181, 13, 56, 59, 72, 98, 58, 88, 129, 165, 35, 125, 123, 219, 143, 70, 119,
        20, 25, 38, 137, 46, 52, 213, 164, 46, 249, 105, 1, 98, 174, 155, 16, 129, 29, 156, 180,
        228, 107, 136], rfl⟩
  | .nines =>
      ⟨[114, 152, 153, 58, 30, 203, 13, 178, 116, 17, 168, 157, 58, 158, 62, 36, 20, 132, 31, 172,
        192, 142, 177, 30, 73, 166, 82, 195, 228, 108, 216, 88, 87, 226, 129, 175, 221, 164, 7, 129,
        62, 251, 39, 47, 151, 231, 106, 17, 184, 0, 16, 137, 123, 148, 120, 186, 230, 150, 69, 54,
        91, 60, 79, 132], rfl⟩

end DevKey

def inviteBody : Bytes :=
  utf8 ("\x7b\"who\":\"5GrwvaEF5zXb26Fz9rcQpDWS57CtERHpNehXCPcNoHGKutQY\",\"dim\":\"Game\"\x7d")

/-- The libraries' answers on the one body, the two seeds and the account of `alice`. -/
def devTickets : TicketExt where
  parseJson body :=
    if body = inviteBody then some (.obj [("who", .str aliceSs58), ("dim", .str "Game")]) else none
  accountFromStr s := if s = aliceSs58 then some alice else none
  toIsoMillis _ := "1970-01-01T00:00:00.000Z"
  Keypair := DevKey
  expandMini seed :=
    if seed = DevKey.fives.seed then .ok .fives
    else if seed = DevKey.nines.seed then .ok .nines
    else .error "Verification equation failed"
  fromEd25519 _ := .error "Verification equation failed"
  publicBytes := DevKey.publicKey
  sign key _ _ := key.signature
  verify publicKey _ signature :=
    (publicKey = DevKey.fives.publicKey && signature = DevKey.fives.signature) ||
      (publicKey = DevKey.nines.publicKey && signature = DevKey.nines.signature)

theorem devTickets_sign (keypair : devTickets.Keypair) (nonce : FixedBytes 32) (payload : Bytes) :
    devTickets.verify (devTickets.publicBytes keypair) payload
      (devTickets.sign keypair nonce payload) = true := by
  have hverify : ∀ key : DevKey, devTickets.verify key.publicKey [] key.signature = true := by
    intro key
    cases key <;> decide +kernel
  exact hverify keypair

def devTicket (key : DevKey) (createdAt : Time) : Ticket :=
  NewTicket.row ⟨key.publicKey.1, key.seed.1, .game, .westend2, aliceSs58⟩ createdAt

def devIdentity : InviterIdentity := ⟨alice, alice, aliceSs58⟩

def emptyPool : PoolState := ⟨⟨[], List.nodup_nil⟩, 0, fun _ => none, none⟩

/-- A pool with the two tickets. -/
def devPool : PoolState where
  table := ⟨[devTicket .fives 0, devTicket .nines 0], by decide +kernel⟩
  now := 0
  flips _ := none
  lock := none

theorem devPool_kept : ∀ row ∈ devPool.table.rows,
    (∀ keypair, fromStoredSecret devTickets row.privateKey = .ok keypair →
      (devTickets.publicBytes keypair).1 = row.publicKey) ∧ row.lock = none := by
  intro row hrow
  have hsecret : ∀ key : DevKey, fromStoredSecret devTickets key.seed.1 = .ok key := by
    intro key
    cases key <;> rfl
  rcases List.mem_pair.mp hrow with rfl | rfl
  · refine ⟨fun keypair hkeypair => ?_, rfl⟩
    obtain rfl := Except.ok.inj ((hsecret .fives).symm.trans hkeypair)
    rfl
  · refine ⟨fun keypair hkeypair => ?_, rfl⟩
    obtain rfl := Except.ok.inj ((hsecret .nines).symm.trans hkeypair)
    rfl

end DeviceUniqueness.Tickets
