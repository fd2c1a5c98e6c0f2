import DeviceUniqueness.Tickets.Script

/-! What becomes of claimed tickets.

    A ticket moves when the transaction of a claim takes effect. A request whose commit was confirmed
    goes on with the ticket, and answers with it unless the stored secret does not load or the pool
    cannot be counted; a commit that took effect unreported is tried again, with another ticket. So
    every ticket that moved is one of those: the accounting here follows each from its commit on. -/

namespace DeviceUniqueness.Tickets

open Function Schemes

variable {ext : TicketExt}

/-- The stored secret, if it is one, is that of the key. -/
def Kept (ext : TicketExt) (ticket : ClaimedTicket) : Prop :=
  ∀ keypair, fromStoredSecret ext ticket.privateKey = .ok keypair →
    (ext.publicBytes keypair).1 = ticket.publicKey

/-! ### Where a request stands -/

/-- A count that failed. -/
def failedCount (dim : Dim) (network : Network) (err : String) : Ev TicketWorld :=
  ⟨.count dim network, .error err⟩

/-- Why a request that has its ticket may fail: the secret does not load, or after the signature four
    counts failed. -/
def Spoilt (ext : TicketExt) (ticket : ClaimedTicket) (since : List (Ev TicketWorld)) : Prop :=
  (∃ err, fromStoredSecret ext ticket.privateKey = .error err) ∨
    ∃ (nonce : FixedBytes 32) (dim : Dim) (network : Network) (errs : List String), errs.length = 4 ∧
      since = ⟨.nonce, nonce⟩ :: errs.map (failedCount dim network)

/-- `confirmed` has what the request did since its commit was confirmed; `served` and `spoiled` are
    the answers it can give then, `refused` the one it can give before. -/
inductive ClaimStage where
  | idle
  | took (ticket : ClaimedTicket)
  | flipped (ticket : ClaimedTicket)
  | confirmed (ticket : ClaimedTicket) (since : List (Ev TicketWorld))
  | served (ticket : ClaimedTicket)
  | spoiled (ticket : ClaimedTicket)
  | refused

/-- The response is signed with the key of the ticket, over the account of the body. -/
def SignedFor (ext : TicketExt) (body : Bytes) (ticket : ClaimedTicket) (response : ClaimResponse) :
    Prop :=
  ∃ request keypair nonce, requestOf ext body = .ok request ∧
    fromStoredSecret ext ticket.privateKey = .ok keypair ∧
    response.publicKey = hexEncode ticket.publicKey ∧
    response.signature = hexEncode (ext.sign keypair nonce request.whoAccount.1).1

def claimNext : ClaimStage → Ev TicketWorld → ClaimStage
  | .idle, ⟨.selectOldest .., .ok (some ticket)⟩ => .took ticket
  | .took ticket, ⟨.setClaimed _, .ok _⟩ => .flipped ticket
  | .took _, ⟨.setClaimed _, .error _⟩ => .idle
  | .flipped ticket, ⟨.commit, .ok _⟩ => .confirmed ticket []
  | .flipped _, ⟨.commit, _⟩ => .idle
  | .confirmed ticket _, ⟨.answer _ (.ok _), _⟩ => .served ticket
  | .confirmed ticket _, ⟨.answer _ (.error _), _⟩ => .spoiled ticket
  | .confirmed ticket since, e => .confirmed ticket (since ++ [e])
  | .idle, ⟨.answer .., _⟩ => .refused
  | stage, _ => stage

/-- A claim selects, sets and commits, one after the other, and answers with what it has. Whoever
    inserts a ticket has its secret. -/
def claimMonitor (ext : TicketExt) : Monitor TicketWorld ClaimStage where
  next := claimNext
  ok
    | .idle, .setClaimed _ | .idle, .commit => False
    | .idle, .insertAvailable new => Kept ext ⟨new.publicKey, new.privateKey, new.inviter, 0⟩
    | .idle, .answer _ result => ∃ e, result = .error e
    | .idle, _ => True
    | .took ticket, .setClaimed flip => flip.publicKey = ticket.publicKey
    | .flipped _, .commit => True
    | .confirmed .., .nonce | .confirmed .., .count .. => True
    | .confirmed ticket _, .answer body (.ok response) => SignedFor ext body ticket response
    | .confirmed ticket since, .answer _ (.error _) => Spoilt ext ticket since
    | _, _ => False
  adm _ _ := True

/-! ### The programs -/

variable {α : Type} {o : TicketAsk} {ticket : ClaimedTicket} {a : o.Ans}

section Programs

/-- What a process without a ticket may ask, and still has none. -/
def Passing : TicketAsk → Prop
  | .selectOldest .. | .setClaimed _ | .commit | .answer .. | .insertAvailable _ => False
  | _ => True

theorem passing_then {ε : Type} {f : o.Ans → Act TicketWorld Unit ε α} (ho : Passing o)
    (hf : ∀ a, Act.Rests (claimMonitor ext) .idle (f a)) :
    Act.Rests (claimMonitor ext) .idle (ticketAsk o >>= f) := by
  refine Act.Rests.bind (Act.rests_op ?_ fun a => ?_) hf
  · cases o <;> first | exact trivial | exact ho.elim
  · cases o <;> first | rfl | exact ho.elim

theorem countAvailable_rests (dim : Dim) (network : Network) :
    Act.Rests (claimMonitor ext) .idle (countAvailable dim network) :=
  passing_then trivial fun _ => Act.rests_ofExcept _

/-- The stage in which a claim has come to its end. -/
def Claimed (stage : ClaimStage) : Option ClaimedTicket → Prop
  | none => stage = .idle
  | some ticket => stage = .confirmed ticket []

theorem claimOldest_sat (dim : Dim) (network : Network) (who : String) (now : Time) :
    (claimOldest dim network who now).Sat (claimMonitor ext) () .idle
      (fun stage ticket _ => Claimed stage ticket) fun stage _ _ => stage = .idle := by
  refine Act.sat_bind.mpr ⟨trivial, fun (begun : Except String Unit) _ => ?_⟩
  refine (Act.rests_ofExcept _).sat_bind (fun _ _ => ?_) fun _ _ => rfl
  refine Act.sat_bind.mpr ⟨trivial, fun (row : Except String (Option ClaimedTicket)) _ => ?_⟩
  match row with
  | .error _ => exact rfl
  | .ok none =>
    refine Act.sat_bind.mpr ⟨trivial, fun (done : Except String Unit) _ => ?_⟩
    exact (Act.rests_ofExcept _).sat_bind (fun _ _ => rfl) fun _ _ => rfl
  | .ok (some ticket) =>
    refine Act.sat_bind.mpr ⟨rfl, fun (set : Except String Nat) _ => ?_⟩
    match set with
    | .error _ => exact rfl
    | .ok _ =>
      refine Act.sat_bind.mpr ⟨trivial, fun (done : Reply Unit) _ => ?_⟩
      cases done <;> exact rfl

theorem retryDb_sat {m : Serving α} {post : ClaimStage → α → Unit → Prop}
    (hm : m.Sat (claimMonitor ext) () .idle post fun stage _ _ => stage = .idle) :
    ∀ attempts, (retryDb m attempts).Sat (claimMonitor ext) () .idle post
      fun stage _ _ => stage = .idle
  | 0 => hm
  | attempts + 1 => by
      rw [retryDb, Act.sat_bind, Act.sat_attempt]
      refine hm.mono (fun _ _ _ h => h) ?_
      rintro _ _ _ rfl
      exact retryDb_sat hm attempts

/-- The count of a request that has its ticket: it fails only if every attempt does. -/
theorem recount_sat (dim : Dim) (network : Network) (ticket : ClaimedTicket) :
    ∀ (attempts : Nat) (since : List (Ev TicketWorld)),
      (retryDb (countAvailable dim network) attempts).Sat (claimMonitor ext) ()
        (.confirmed ticket since) (fun stage _ _ => ∃ since', stage = .confirmed ticket since')
        fun stage _ _ => ∃ errs : List String, errs.length = attempts + 1 ∧
          stage = .confirmed ticket (since ++ errs.map (failedCount dim network))
  | 0, since => by
      refine Act.sat_bind.mpr ⟨trivial, fun (reply : Except String Nat) _ => ?_⟩
      match reply with
      | .ok n => exact ⟨_, rfl⟩
      | .error err => exact ⟨[err], rfl, rfl⟩
  | attempts + 1, since => by
      rw [retryDb, Act.sat_bind, Act.sat_attempt]
      refine Act.sat_bind.mpr ⟨trivial, fun (reply : Except String Nat) _ => ?_⟩
      match reply with
      | .ok n => exact ⟨_, rfl⟩
      | .error err =>
        have hagain := recount_sat dim network ticket attempts
          (since ++ [failedCount dim network err])
        refine Act.sat_ofExcept.mpr ⟨nofun, ?_⟩
        rintro _ ⟨⟩
        refine hagain.mono (fun _ _ _ h => h) ?_
        rintro _ _ _ ⟨errs, hlen, rfl⟩
        exact ⟨err :: errs, by rw [List.length_cons, hlen], by simp [failedCount]⟩

/-- What the answer of a request says of it. -/
def Answers (ext : TicketExt) (body : Bytes) (stage : ClaimStage) :
    Except AppError ClaimResponse → Prop
  | .ok response => ∃ ticket since, stage = .confirmed ticket since ∧
      SignedFor ext body ticket response
  | .error _ => stage = .idle ∨ ∃ ticket since, stage = .confirmed ticket since ∧
      Spoilt ext ticket since

theorem claimTicket_sat (network : Network) (subject : String) (body : Bytes) :
    (claimTicket ext network subject body).Sat (claimMonitor ext) () .idle
      (fun stage response _ => Answers ext body stage (.ok response))
      fun stage e _ => Answers ext body stage (.error e) := by
  refine Act.sat_bind.mpr (Act.sat_ofExcept.mpr ⟨fun request hrequest => ?_, fun _ _ => .inl rfl⟩)
  refine Act.Rests.sat_bind ?_ (fun _ _ => ?_) fun _ _ => .inl rfl
  · refine passing_then trivial fun allowed => ?_
    cases (allowed : Except Nat Unit) with
    | ok _ => exact Act.rests_pure _
    | error wait => exact Act.rests_fail _
  refine Act.sat_bind.mpr ⟨trivial, fun now _ => ?_⟩
  refine Act.sat_bind.mpr ((retryDb_sat (countAvailable_rests _ _ ()) _).mono ?_ fun _ _ _ => .inl)
  rintro _ available _ rfl
  split
  · exact .inl rfl
  refine Act.sat_bind.mpr ((retryDb_sat (claimOldest_sat _ _ _ _) _).mono ?_ fun _ _ _ => .inl)
  rintro stage ticket _ hstage
  cases ticket with
  | none => exact .inl hstage
  | some ticket =>
    obtain rfl : stage = .confirmed ticket [] := hstage
    refine Act.sat_bind.mpr (Act.sat_ofExcept.mpr ⟨fun keypair hkeypair => ?_, fun e he => ?_⟩)
    · have hloads : fromStoredSecret ext ticket.privateKey = .ok keypair := by
        cases hsecret : fromStoredSecret ext ticket.privateKey with
        | ok keypair' =>
          rw [hsecret] at hkeypair
          exact congrArg _ (Except.ok.inj hkeypair)
        | error err =>
          rw [hsecret] at hkeypair
          cases hkeypair
      refine Act.sat_bind.mpr ⟨trivial, fun nonce _ => ?_⟩
      refine Act.sat_bind.mpr ((recount_sat _ _ ticket _ _).mono ?_ ?_)
      · rintro _ remaining _ ⟨since, rfl⟩
        exact ⟨ticket, since, rfl, request, keypair, nonce, hrequest, hloads, rfl, rfl⟩
      · rintro _ _ _ ⟨errs, hlen, rfl⟩
        exact .inr ⟨ticket, _, rfl, .inr ⟨nonce, _, _, errs, hlen, rfl⟩⟩
    · refine .inr ⟨ticket, [], rfl, .inl ?_⟩
      cases hsecret : fromStoredSecret ext ticket.privateKey with
      | ok keypair =>
        rw [hsecret] at he
        cases he
      | error err => exact ⟨err, rfl⟩

theorem serveClaim_sat (network : Network) (subject : String) (body : Bytes) :
    (serveClaim ext network subject body).Sat (claimMonitor ext) () .idle Anyhow Anyhow := by
  refine Act.sat_bind.mpr (Act.sat_attempt.mpr ((claimTicket_sat network subject body).mono ?_ ?_))
  · rintro _ response _ ⟨ticket, since, rfl, hsigned⟩
    exact ⟨hsigned, fun _ _ => trivial⟩
  · rintro _ e _ (rfl | ⟨ticket, since, rfl, hspoilt⟩)
    · exact ⟨⟨e, rfl⟩, fun _ _ => trivial⟩
    · exact ⟨hspoilt, fun _ _ => trivial⟩

/-! A maintainer never has a ticket of its own to answer with. -/

variable {identity : InviterIdentity} {network : Network} {tuning : PoolTuning} {patience : Nat}

theorem insertAccepted_rests (dim : Dim) (items : List Bool) (generated : List (Generated ext)) :
    Act.Rests (claimMonitor ext) .idle
      (insertAccepted ext identity network dim items generated) := by
  refine Act.rests_fold (fun inserted x => ?_) _ _
  split
  · refine Act.Rests.bind (Act.rests_op ?_ fun _ => rfl) fun _ =>
      (Act.rests_ofExcept _).bind fun _ => Act.rests_pure _
    intro keypair hkeypair
    rw [Except.ok.inj (hkeypair.symm.trans x.1.made)]
    rfl
  · exact Act.rests_pure _

theorem tickPool_passes (dim : Dim) (batchSize : Nat) :
    Act.Rests (claimMonitor ext) .idle
      (tickPool ext identity network tuning patience dim batchSize) := by
  refine passing_then trivial fun _ => (Act.rests_ofExcept _).bind fun available => ?_
  refine passing_then trivial fun _ => ?_
  dsimp only
  split
  · exact Act.rests_pure _
  refine Act.Rests.bind (Act.rests_collect (fun _ => Act.Rests.bind ?_ fun _ => Act.rests_pure _) _)
    fun generated => ?_
  · refine passing_then trivial fun seed => ?_
    split
    · exact Act.rests_pure _
    · exact Act.rests_fail _
  refine Act.Rests.bind ?_ fun items => (insertAccepted_rests _ _ _).bind fun _ => Act.rests_pure _
  refine passing_then trivial fun _ => (Act.rests_ofExcept _).bind fun _ => ?_
  refine passing_then trivial fun _ => (Act.rests_ofExcept _).bind fun _ => ?_
  refine passing_then trivial fun _ => (Act.rests_ofExcept _).bind fun _ => ?_
  exact watch_rests (Act.rests_op trivial fun _ => rfl) (Act.rests_op trivial fun _ => rfl) patience

theorem turn_passes (pools : List (Dim × Nat)) :
    Act.Rests (claimMonitor ext) .idle (turn ext identity network tuning patience pools) := by
  refine passing_then trivial fun locked => ?_
  match (locked : Except String Bool) with
  | .ok true =>
    refine Act.Rests.bind (Act.rests_collect (fun pool => ?_) _) fun _ =>
      passing_then trivial fun _ => Act.rests_pure _
    refine Act.Rests.bind ?_ fun _ => Act.rests_pure _
    exact (Act.rests_attempt (tickPool_passes _ _)).bind fun _ =>
      passing_then trivial fun _ => Act.rests_pure _
  | .ok false | .error _ => exact Act.rests_pure _

theorem turns_pass : ∀ (n : Nat) (pools : List (Dim × Nat)),
    Act.Rests (claimMonitor ext) .idle (turns ext identity network tuning patience pools n)
  | 0, _ => Act.rests_pure _
  | n + 1, pools => (turn_passes pools).bind fun pools =>
      passing_then trivial fun _ => turns_pass n pools

theorem claims_bound (ext : TicketExt) (tuning : PoolTuning) (st₀ : PoolState) :
    Bound (Invites ext tuning) st₀ (claimMonitor ext) .idle where
  boot := by
    rintro p _ (⟨network, subject, body, rfl⟩ | ⟨identity, network, patience, dims, n, rfl⟩)
    · exact Prog.Sat.mono (fun _ _ _ => trivial) (serveClaim_sat network subject body)
    · exact Prog.Sat.mono (fun _ _ _ => trivial) (turns_pass n _ ())
  adm _ _ _ _ _ _ _ _ := trivial

end Programs

/-! ### What a run shows of the claims -/

/-- A commit that was confirmed, one that took effect unreported, and an answer. -/
inductive ClaimEvent where
  | confirmed (p : Nat)
  | unreported (p : Nat)
  | answered (p : Nat) (body : Bytes) (result : Except AppError ClaimResponse)

def claimEvent : TicketLabel → Option ClaimEvent
  | .op p ⟨.commit, .ok _⟩ => some (.confirmed p)
  | .op p ⟨.commit, .lost ..⟩ => some (.unreported p)
  | .op p ⟨.answer body result, _⟩ => some (.answered p body result)
  | _ => none

def claimEvents (ls : List TicketLabel) : List ClaimEvent := ls.filterMap claimEvent

theorem claimEvents_snoc (ls : List TicketLabel) (l : TicketLabel) :
    claimEvents (ls ++ [l]) = claimEvents ls ++ (claimEvent l).toList := by
  rw [claimEvents, List.filterMap_append, ← claimEvents]
  cases h : claimEvent l <;> simp [h]

/-- The requests whose commit was confirmed. -/
def confirms (es : List ClaimEvent) : List Nat :=
  es.filterMap fun e => match e with
    | .confirmed p => some p
    | _ => none

/-- The commits that took effect and were reported as failed. -/
def unreported (es : List ClaimEvent) : Nat :=
  es.countP fun e => match e with
    | .unreported _ => true
    | _ => false

/-- A successful answer, of the request of the body. -/
structure Success where
  p : Nat
  body : Bytes
  response : ClaimResponse

def successes (es : List ClaimEvent) : List Success :=
  es.filterMap fun e => match e with
    | .answered p body (.ok response) => some ⟨p, body, response⟩
    | _ => none

/-- The requests that were answered with an error. -/
def failures (es : List ClaimEvent) : List Nat :=
  es.filterMap fun e => match e with
    | .answered p _ (.error _) => some p
    | _ => none

namespace ClaimStage

/-- The ticket the process has locked, and whether it has set it. -/
def holding : Option ClaimStage → Option (ClaimedTicket × Bool)
  | some (.took ticket) => some (ticket, false)
  | some (.flipped ticket) => some (ticket, true)
  | _ => none

/-- The ticket that is the request's own. -/
def mine : Option ClaimStage → Option ClaimedTicket
  | some (.confirmed ticket _) | some (.served ticket) | some (.spoiled ticket) => some ticket
  | _ => none

end ClaimStage

/-! ### The table -/

/-- A claimed row of the ticket. -/
def Taken (table : TicketTable) (ticket : ClaimedTicket) : Prop :=
  ∃ row, table.row? ticket.publicKey = some row ∧ row.toClaimedTicket = ticket ∧ row.state = .claimed

/-- A row is locked by the process that is to claim it, and is available until then. A row that was
    claimed is one request's own. -/
structure TableInv (ext : TicketExt) (st : PoolState)
    (holding : Nat → Option (ClaimedTicket × Bool)) (mine : Nat → Option ClaimedTicket) : Prop where
  kept : ∀ key row, st.table.row? key = some row → Kept ext row.toClaimedTicket
  locked : ∀ key row p, st.table.row? key = some row → row.lock = some p →
    ∃ ticket set, holding p = some (ticket, set) ∧ ticket.publicKey = key
  holds : ∀ p ticket set, holding p = some (ticket, set) →
    ∃ row, st.table.row? ticket.publicKey = some row ∧ row.toClaimedTicket = ticket ∧
      row.state = .available ∧ row.lock = some p
  flips : ∀ p ticket, holding p = some (ticket, true) →
    ∃ flip, st.flips p = some flip ∧ flip.publicKey = ticket.publicKey
  owns : ∀ p ticket, mine p = some ticket → Taken st.table ticket
  apart : ∀ p q ticket ticket', mine p = some ticket → mine q = some ticket' →
    ticket.publicKey = ticket'.publicKey → p = q

section Tables

variable {st : PoolState} {holding : Nat → Option (ClaimedTicket × Bool)}
  {mine : Nat → Option ClaimedTicket} {p : Nat}

theorem TableInv.insert (h : TableInv ext st holding mine) {new : NewTicket}
    (hnew : Kept ext ⟨new.publicKey, new.privateKey, new.inviter, 0⟩) :
    TableInv ext { st with table := st.table.insertAvailable new st.now } holding mine := by
  -- what was found before is found still
  have hold : ∀ key row, st.table.row? key = some row →
      (st.table.insertAvailable new st.now).row? key = some row := by
    intro key row hrow
    rw [TicketTable.row?_insertAvailable, hrow, if_neg (fun hnone => nomatch hnone.1)]
  have hcases : ∀ key row, (st.table.insertAvailable new st.now).row? key = some row →
      row = new.row st.now ∨ st.table.row? key = some row := by
    intro key row hrow
    rw [TicketTable.row?_insertAvailable] at hrow
    split at hrow
    · exact .inl (Option.some.inj hrow).symm
    · exact .inr hrow
  constructor
  · intro key row hrow
    rcases hcases key row hrow with rfl | hrow
    · exact hnew
    · exact h.kept key row hrow
  · intro key row q hrow hlock
    rcases hcases key row hrow with rfl | hrow
    · cases hlock
    · exact h.locked key row q hrow hlock
  · intro q ticket set hq
    obtain ⟨row, hrow, hrest⟩ := h.holds q ticket set hq
    exact ⟨row, hold _ row hrow, hrest⟩
  · exact h.flips
  · intro q ticket hq
    obtain ⟨row, hrow, hrest⟩ := h.owns q ticket hq
    exact ⟨row, hold _ row hrow, hrest⟩
  · exact h.apart

/-- The transaction of a process is over: what it had locked is free, and may have been claimed. -/
theorem TableInv.release (h : TableInv ext st holding mine) {st' : PoolState} {f : Ticket → Ticket}
    (hrow? : ∀ key, st'.table.row? key = (st.table.row? key).map fun row => (f row).unlockedBy p)
    (hflips : st'.flips = update st.flips p none)
    (hticket : ∀ row, (f row).toClaimedTicket = row.toClaimedTicket)
    (hlock : ∀ row, (f row).lock = row.lock)
    (hstate : ∀ row, row.state = .claimed → (f row).state = .claimed)
    (hother : ∀ key row, st.table.row? key = some row → row.lock ≠ some p → f row = row) :
    TableInv ext st' (update holding p none) mine := by
  refine ⟨fun key row hrow => ?_, fun key row q hrow hq => ?_, fun q ticket set hq => ?_,
    fun q ticket hq => ?_, fun q ticket hq => ?_, h.apart⟩
  · rw [hrow?, Option.map_eq_some_iff] at hrow
    obtain ⟨row, hrow, rfl⟩ := hrow
    rw [Ticket.toClaimedTicket_unlockedBy, hticket]
    exact h.kept key row hrow
  · rw [hrow?, Option.map_eq_some_iff] at hrow
    obtain ⟨row, hrow, rfl⟩ := hrow
    rw [Ticket.unlockedBy] at hq
    split at hq
    · cases hq
    · next hfree =>
      have hne : q ≠ p := by
        rintro rfl
        exact hfree hq
      rw [update_of_ne hne]
      exact h.locked key row q hrow ((hlock row).symm.trans hq)
  · obtain ⟨hne, hq⟩ := of_update_none hq
    obtain ⟨row, hrow, hticket', hstate', hq'⟩ := h.holds q ticket set hq
    have hnot : row.lock ≠ some p := hq' ▸ fun heq => hne (Option.some.inj heq)
    refine ⟨row, ?_, hticket', hstate', hq'⟩
    rw [hrow?, hrow, Option.map_some, hother _ row hrow hnot, Ticket.unlockedBy, if_neg hnot]
  · obtain ⟨hne, hq⟩ := of_update_none hq
    obtain ⟨flip, hflip, hkey⟩ := h.flips q ticket hq
    exact ⟨flip, by rw [hflips, update_of_ne hne, hflip], hkey⟩
  · obtain ⟨row, hrow, hticket', hstate'⟩ := h.owns q ticket hq
    refine ⟨(f row).unlockedBy p, by rw [hrow?, hrow, Option.map_some], ?_, ?_⟩
    · rw [Ticket.toClaimedTicket_unlockedBy, hticket, hticket']
    · rw [Ticket.state_unlockedBy, hstate row hstate']

theorem TableInv.abort (h : TableInv ext st holding mine) :
    TableInv ext (st.abort p) (update holding p none) mine :=
  h.release (fun _ => TicketTable.row?_unlockRows) rfl (fun _ => rfl) (fun _ => rfl)
    (fun _ hstate => hstate) fun _ _ _ _ => rfl

/-- A process without a ticket locks one that was free. -/
theorem TableInv.select (h : TableInv ext st holding mine) {row : Ticket}
    (hrow : st.table.row? ticket.publicKey = some row) (hticket : row.toClaimedTicket = ticket)
    (hstate : row.state = .available) (hfree : row.lock = none) (hp : holding p = none) :
    TableInv ext { st with table := st.table.lockRow p ticket.publicKey }
      (update holding p (some (ticket, false))) mine := by
  have hrow? : ∀ key, (st.table.lockRow p ticket.publicKey).row? key =
      (st.table.row? key).map (Ticket.lockedBy p ticket.publicKey) :=
    fun key => TicketTable.row?_lockRow
  have hkey : row.publicKey = ticket.publicKey := (TicketTable.row?_eq_some.mp hrow).2
  constructor
  · intro key row hrow
    rw [hrow?, Option.map_eq_some_iff] at hrow
    obtain ⟨row, hrow, rfl⟩ := hrow
    rw [Ticket.toClaimedTicket_lockedBy]
    exact h.kept key row hrow
  · intro key row' q hrow' hlock
    rw [hrow?, Option.map_eq_some_iff] at hrow'
    obtain ⟨row', hrow', rfl⟩ := hrow'
    have hkey' : row'.publicKey = key := (TicketTable.row?_eq_some.mp hrow').2
    rw [Ticket.lockedBy] at hlock
    split at hlock
    · next hthis =>
      obtain rfl := Option.some.inj hlock
      exact ⟨ticket, false, update_self .., hthis.symm.trans hkey'⟩
    · obtain ⟨ticket', set, hq, hkey''⟩ := h.locked key row' q hrow' hlock
      have hne : q ≠ p := by
        rintro rfl
        rw [hp] at hq
        cases hq
      exact ⟨ticket', set, (update_of_ne hne _ _).trans hq, hkey''⟩
  · intro q ticket' set hq
    rcases of_update hq with ⟨rfl, ⟨⟩⟩ | ⟨hne, hq⟩
    · refine ⟨{ row with lock := some q }, ?_, hticket, hstate, rfl⟩
      rw [hrow?, hrow, Option.map_some, Ticket.lockedBy, if_pos hkey]
    · obtain ⟨row', hrow', hticket', hstate', hlock'⟩ := h.holds q ticket' set hq
      refine ⟨row', ?_, hticket', hstate', hlock'⟩
      -- the row that was free is not the one another process has locked
      rw [hrow?, hrow', Option.map_some, Ticket.lockedBy, if_neg]
      intro hsame
      have hkey' : row'.publicKey = ticket'.publicKey := (TicketTable.row?_eq_some.mp hrow').2
      rw [← hkey', hsame, hrow] at hrow'
      obtain rfl := Option.some.inj hrow'
      rw [hfree] at hlock'
      cases hlock'
  · intro q ticket' hq
    rcases of_update hq with ⟨-, ⟨⟩⟩ | ⟨-, hq⟩
    exact h.flips q ticket' hq
  · intro q ticket' hq
    obtain ⟨row', hrow', hticket', hstate'⟩ := h.owns q ticket' hq
    exact ⟨row'.lockedBy p ticket.publicKey, by rw [hrow?, hrow', Option.map_some],
      by simpa using hticket', by simpa using hstate'⟩
  · exact h.apart

theorem TableInv.set (h : TableInv ext st holding mine) {flip : Flip}
    (hp : holding p = some (ticket, false)) (hflip : flip.publicKey = ticket.publicKey) :
    TableInv ext { st with flips := update st.flips p (some flip) }
      (update holding p (some (ticket, true))) mine := by
  -- who holds which ticket is unchanged
  have hsame : ∀ q ticket' set, update holding p (some (ticket, true)) q = some (ticket', set) →
      ∃ set', holding q = some (ticket', set') := by
    intro q ticket' set hq
    rcases of_update hq with ⟨rfl, ⟨⟩⟩ | ⟨-, hq⟩
    · exact ⟨false, hp⟩
    · exact ⟨set, hq⟩
  refine ⟨h.kept, ?_, ?_, ?_, h.owns, h.apart⟩
  · intro key row q hrow hlock
    obtain ⟨ticket', set, hq, hkey⟩ := h.locked key row q hrow hlock
    rcases eq_or_ne q p with rfl | hne
    · rw [hp, Option.some.injEq, Prod.mk.injEq] at hq
      exact ⟨ticket, true, update_self .., hq.1 ▸ hkey⟩
    · exact ⟨ticket', set, (update_of_ne hne _ _).trans hq, hkey⟩
  · intro q ticket' set hq
    obtain ⟨set', hq⟩ := hsame q ticket' set hq
    exact h.holds q ticket' set' hq
  · intro q ticket' hq
    rcases of_update hq with ⟨rfl, ⟨⟩⟩ | ⟨hne, hq⟩
    · exact ⟨flip, update_self .., hflip⟩
    · obtain ⟨flip', hflip', hkey⟩ := h.flips q ticket' hq
      exact ⟨flip', (update_of_ne hne _ _).trans hflip', hkey⟩

/-- What a process committed: its ticket is taken, it was nobody's own before, and it is one more. -/
theorem TableInv.commit (h : TableInv ext st holding mine) (hp : holding p = some (ticket, true)) :
    TableInv ext (st.commit p) (update holding p none) mine ∧
      Taken (st.commit p).table ticket ∧
      (∀ q ticket', mine q = some ticket' → ticket'.publicKey ≠ ticket.publicKey) ∧
      (st.commit p).table.claimedCount = st.table.claimedCount + 1 := by
  obtain ⟨flip, hflip, hkey⟩ := h.flips p ticket hp
  obtain ⟨row, hrow, hticket, hstate, hlock⟩ := h.holds p ticket true hp
  have hrowkey : row.publicKey = flip.publicKey :=
    (TicketTable.row?_eq_some.mp hrow).2.trans hkey.symm
  have hcommit : st.commit p = { st with table := st.table.apply flip }.abort p := by
    rw [PoolState.commit, hflip]
  have hrow? : ∀ key, (st.commit p).table.row? key =
      (st.table.row? key).map fun row => (flip.row row).unlockedBy p := by
    intro key
    rw [hcommit, ← comp_def, ← Option.map_map, ← TicketTable.row?_apply]
    exact TicketTable.row?_unlockRows
  refine ⟨h.release hrow? (by rw [hcommit]; rfl) (by simp) (by simp) (fun row' hstate' => ?_)
    (fun key row' hrow' hfree => ?_), ?_, ?_, ?_⟩
  · rw [Flip.row]
    split
    · rfl
    · exact hstate'
  · -- the row that is set is the one the process has locked
    refine if_neg fun hsame => hfree ?_
    rw [← (TicketTable.row?_eq_some.mp hrow').2, hsame, hkey, hrow] at hrow'
    exact Option.some.inj hrow' ▸ hlock
  · refine ⟨(flip.row row).unlockedBy p, by rw [hrow?, hrow, Option.map_some],
      by simpa using hticket, ?_⟩
    rw [Ticket.state_unlockedBy, Flip.row, if_pos hrowkey]
  · intro q ticket' hq hsame
    obtain ⟨row', hrow', -, hstate'⟩ := h.owns q ticket' hq
    rw [hsame, hrow] at hrow'
    obtain rfl := Option.some.inj hrow'
    rw [hstate] at hstate'
    cases hstate'
  · rw [hcommit]
    change (List.map _ (List.map _ _)).countP _ = _
    rw [List.countP_map]
    simp only [comp_def, Ticket.state_unlockedBy]
    refine countP_change (k := flip.publicKey) st.table.keys_nodup (x := row) ?_ ?_ ?_ ?_
    · rw [hkey]
      exact hrow
    · exact fun row' hother => if_neg hother
    · simp [hstate]
    · rw [Flip.row, if_pos hrowkey]
      rfl

/-- A ticket that is taken and nobody's own becomes the process's. -/
theorem TableInv.own (h : TableInv ext st holding mine) (htaken : Taken st.table ticket)
    (hfree : ∀ q ticket', mine q = some ticket' → ticket'.publicKey ≠ ticket.publicKey) :
    TableInv ext st holding (update mine p (some ticket)) := by
  refine ⟨h.kept, h.locked, h.holds, h.flips, ?_, ?_⟩
  · intro q ticket' hq
    rcases of_update hq with ⟨rfl, ⟨⟩⟩ | ⟨-, hq⟩
    · exact htaken
    · exact h.owns q ticket' hq
  · intro q q' ticket₁ ticket₂ hq hq' hsame
    rcases of_update hq with ⟨rfl, ⟨⟩⟩ | ⟨-, hold⟩
    · rcases of_update hq' with ⟨rfl, -⟩ | ⟨-, hold'⟩
      · rfl
      · exact absurd hsame.symm (hfree q' ticket₂ hold')
    · rcases of_update hq' with ⟨rfl, ⟨⟩⟩ | ⟨-, hold'⟩
      · exact absurd hsame (hfree q ticket₁ hold)
      · exact h.apart q q' ticket₁ ticket₂ hold hold' hsame

end Tables

/-! ### The accounts -/

/-- The requests by what they came to, and the events that show it. -/
structure Ledger (ext : TicketExt) (es : List ClaimEvent) (watch : Nat → Option ClaimStage) :
    Prop where
  signed : ∀ x ∈ successes es, ∃ ticket, watch x.p = some (.served ticket) ∧
    SignedFor ext x.body ticket x.response
  served_once : ((successes es).map Success.p).Nodup
  served : ∀ p ticket, watch p = some (.served ticket) → p ∈ (successes es).map Success.p
  confirmed_once : (confirms es).Nodup
  confirmed : ∀ p, p ∈ confirms es ↔ (ClaimStage.mine (watch p)).isSome
  failed : ∀ p, p ∈ failures es ↔ (∃ ticket, watch p = some (.spoiled ticket)) ∨
    watch p = some .refused

/-- The request has not answered yet. -/
def Open : Option ClaimStage → Prop
  | some (.served _) | some (.spoiled _) | some .refused => False
  | _ => True

section Ledgers

variable {es : List ClaimEvent} {watch : Nat → Option ClaimStage} {p : Nat}
  {stage : Option ClaimStage} {e : Option ClaimEvent}

/-- Whose event it is. -/
def ClaimEvent.process : ClaimEvent → Nat
  | .confirmed p | .unreported p | .answered p _ _ => p

theorem confirms_append (es es' : List ClaimEvent) :
    confirms (es ++ es') = confirms es ++ confirms es' :=
  List.filterMap_append

theorem mem_confirms {q : Nat} (h : q ∈ confirms es) : ∃ e ∈ es, e.process = q := by
  obtain ⟨e, he, hq⟩ := List.mem_filterMap.mp h
  refine ⟨e, he, ?_⟩
  cases e <;> cases hq
  rfl

theorem mem_failures {q : Nat} (h : q ∈ failures es) : ∃ e ∈ es, e.process = q := by
  obtain ⟨e, he, hq⟩ := List.mem_filterMap.mp h
  refine ⟨e, he, ?_⟩
  match e, hq with
  | .answered _ _ (.error _), rfl => rfl

theorem mem_successes {x : Success} (h : x ∈ successes es) : ∃ e ∈ es, e.process = x.p := by
  obtain ⟨e, he, hq⟩ := List.mem_filterMap.mp h
  refine ⟨e, he, ?_⟩
  match e, hq with
  | .answered _ _ (.ok _), rfl => rfl

/-- What a step of a request that has not answered shows, for the stage it takes the request to. -/
structure Shows (ext : TicketExt) (p : Nat) (before stage : Option ClaimStage)
    (e : Option ClaimEvent) : Prop where
  own : ∀ e' ∈ e, e'.process = p
  unanswered : Open before
  signed : ∀ x ∈ successes e.toList, ∃ ticket, stage = some (.served ticket) ∧
    SignedFor ext x.body ticket x.response
  served : ∀ ticket, stage = some (.served ticket) → p ∈ (successes e.toList).map Success.p
  confirmed : (ClaimStage.mine stage).isSome ↔
    (ClaimStage.mine before).isSome ∨ p ∈ confirms e.toList
  once : p ∈ confirms e.toList → ClaimStage.mine before = none
  failed : p ∈ failures e.toList ↔ (∃ ticket, stage = some (.spoiled ticket)) ∨
    stage = some .refused

theorem Ledger.step (h : Ledger ext es watch) (hs : Shows ext p (watch p) stage e) :
    Ledger ext (es ++ e.toList) (update watch p stage) := by
  obtain ⟨he, hbefore, hsigned, hserved, hconfirmed, honce, hfailed⟩ := hs
  have hsuccesses : successes (es ++ e.toList) = successes es ++ successes e.toList :=
    List.filterMap_append
  have hfailures : failures (es ++ e.toList) = failures es ++ failures e.toList :=
    List.filterMap_append
  -- what the step shows is about the one request
  have hp : ∀ {q}, (∃ e' ∈ e.toList, e'.process = q) → q = p :=
    fun ⟨e', hmem, hq⟩ => hq.symm.trans (he e' (Option.mem_toList.mp hmem))
  have hunanswered : ∀ ticket, watch p ≠ some (.served ticket) := by
    intro ticket hp
    rw [hp] at hbefore
    exact hbefore
  constructor
  · intro x hx
    rw [hsuccesses, List.mem_append] at hx
    rcases hx with hx | hx
    · obtain ⟨ticket, hticket, hsign⟩ := h.signed x hx
      have hne : x.p ≠ p := by
        rintro heq
        exact hunanswered ticket (heq ▸ hticket)
      exact ⟨ticket, (update_of_ne hne _ _).trans hticket, hsign⟩
    · rw [hp (mem_successes hx), update_self]
      exact hsigned x hx
  · rw [hsuccesses, List.map_append]
    refine List.Nodup.append h.served_once ?_ ?_
    · cases e with
      | none => exact List.nodup_nil
      | some e => cases e with
        | answered q body result => cases result <;> simp [successes]
        | _ => simp [successes]
    · intro q hold hnew
      obtain ⟨x, hx, rfl⟩ := List.mem_map.mp hold
      obtain ⟨ticket, hticket, -⟩ := h.signed x hx
      obtain ⟨y, hy, heq⟩ := List.mem_map.mp hnew
      rw [← heq, hp (mem_successes hy)] at hticket
      exact hunanswered ticket hticket
  · intro q ticket hq
    rw [hsuccesses, List.map_append, List.mem_append]
    rcases of_update hq with ⟨rfl, hstage⟩ | ⟨-, hold⟩
    · exact .inr (hserved ticket hstage)
    · exact .inl (h.served q ticket hold)
  · rw [confirms_append]
    refine List.Nodup.append h.confirmed_once ?_ ?_
    · cases e with
      | none => exact List.nodup_nil
      | some e => cases e <;> simp [confirms]
    · intro q hold hnew
      obtain rfl := hp (mem_confirms hnew)
      have hmine := (h.confirmed q).mp hold
      rw [honce hnew] at hmine
      cases hmine
  · intro q
    rw [confirms_append, List.mem_append, h.confirmed q]
    rcases eq_or_ne q p with rfl | hne
    · rw [update_self]
      exact hconfirmed.symm
    · rw [update_of_ne hne]
      exact or_iff_left fun hnew => hne (hp (mem_confirms hnew))
  · intro q
    rw [hfailures, List.mem_append, h.failed q]
    rcases eq_or_ne q p with rfl | hne
    · rw [update_self, ← hfailed]
      refine or_iff_right ?_
      rintro (⟨ticket, hq⟩ | hq) <;> rw [hq] at hbefore <;> exact hbefore
    · rw [update_of_ne hne]
      exact or_iff_left fun hnew => hne (hp (mem_failures hnew))

end Ledgers

/-- The table, the accounts, and that every ticket that moved is in them. -/
structure Accounted (ext : TicketExt) (st₀ : PoolState) (ls : List TicketLabel)
    (st : PoolState) (watch : Nat → Option ClaimStage) : Prop where
  table : TableInv ext st (fun p => ClaimStage.holding (watch p)) fun p => ClaimStage.mine (watch p)
  ledger : Ledger ext (claimEvents ls) watch
  moved : st.table.claimedCount = st₀.table.claimedCount + (confirms (claimEvents ls)).length +
    unreported (claimEvents ls)

section Steps

variable {st₀ st st' : PoolState} {ls : List TicketLabel} {l : TicketLabel}
  {watch : Nat → Option ClaimStage} {p : Nat} {stage : Option ClaimStage}

theorem update_comp {β : Type} (f : α → β) (watch : Nat → α) (p : Nat) (x : α) :
    (fun q => f (update watch p x q)) =
      update (fun q => f (watch q)) p (f x) := by
  funext q
  rcases eq_or_ne q p with rfl | hne
  · simp
  · simp [update_of_ne hne]

/-- What the process has is what it had. -/
theorem TableInv.same {holding : Nat → Option (ClaimedTicket × Bool)}
    (h : TableInv ext st holding fun q => ClaimStage.mine (watch q))
    (hmine : ClaimStage.mine stage = ClaimStage.mine (watch p)) : TableInv ext st holding
      (update (fun q => ClaimStage.mine (watch q)) p (ClaimStage.mine stage)) := by
  rwa [hmine, update_eq_self p fun q => ClaimStage.mine (watch q)]

/-- What the process holds is what it held. -/
theorem Accounted.still (h : Accounted ext st₀ ls st watch)
    (hholding : ClaimStage.holding stage = ClaimStage.holding (watch p)) : TableInv ext st
      (update (fun q => ClaimStage.holding (watch q)) p (ClaimStage.holding stage))
      fun q => ClaimStage.mine (watch q) := by
  rw [hholding, update_eq_self p fun q => ClaimStage.holding (watch q)]
  exact h.table

theorem Accounted.step (h : Accounted ext st₀ ls st watch)
    (hs : Shows ext p (watch p) stage (claimEvent l))
    (htable : TableInv ext st'
      (update (fun q => ClaimStage.holding (watch q)) p (ClaimStage.holding stage))
      (update (fun q => ClaimStage.mine (watch q)) p (ClaimStage.mine stage)))
    (hcount : st'.table.claimedCount = st.table.claimedCount +
      ((confirms (claimEvent l).toList).length + unreported (claimEvent l).toList)) :
    Accounted ext st₀ (ls ++ [l]) st' (update watch p stage) := by
  refine ⟨?_, ?_, ?_⟩
  · rwa [update_comp ClaimStage.holding, update_comp ClaimStage.mine]
  · rw [claimEvents_snoc]
    exact h.ledger.step hs
  · have hunreported : unreported (claimEvents ls ++ (claimEvent l).toList) =
        unreported (claimEvents ls) + unreported (claimEvent l).toList := List.countP_append
    rw [claimEvents_snoc, hcount, h.moved, hunreported, confirms_append, List.length_append]
    omega

/-- A step that shows nothing and moves nothing. -/
theorem Accounted.quiet (h : Accounted ext st₀ ls st watch) (hl : claimEvent l = none)
    (hbefore : Open (watch p)) (hafter : Open stage)
    (hmine : ClaimStage.mine stage = ClaimStage.mine (watch p))
    (htable : TableInv ext st'
      (update (fun q => ClaimStage.holding (watch q)) p (ClaimStage.holding stage))
      fun q => ClaimStage.mine (watch q))
    (hcount : st'.table.claimedCount = st.table.claimedCount) :
    Accounted ext st₀ (ls ++ [l]) st' (update watch p stage) := by
  refine h.step ?_ (htable.same hmine) (by rw [hl]; exact hcount)
  rw [hl]
  refine ⟨nofun, hbefore, nofun, ?_, ?_, nofun, ?_⟩
  · rintro ticket rfl
    exact hafter.elim
  · rw [hmine]
    exact (or_iff_left nofun).symm
  · refine iff_of_false nofun ?_
    rintro (⟨ticket, rfl⟩ | rfl) <;> exact hafter

/-- A step after which the process holds what it held, and nothing is different. -/
theorem Accounted.same (h : Accounted ext st₀ ls st watch) (hl : claimEvent l = none)
    (hbefore : Open (watch p)) (hafter : Open stage)
    (hmine : ClaimStage.mine stage = ClaimStage.mine (watch p))
    (hholding : ClaimStage.holding stage = ClaimStage.holding (watch p)) :
    Accounted ext st₀ (ls ++ [l]) st (update watch p stage) :=
  h.quiet hl hbefore hafter hmine (h.still hholding) rfl

theorem claimedCount_abort (st : PoolState) (p : Nat) :
    (st.abort p).table.claimedCount = st.table.claimedCount := by
  change (List.map _ _).countP _ = _
  rw [List.countP_map]
  simp only [comp_def, Ticket.state_unlockedBy]
  rfl

theorem claimedCount_lockRow (table : TicketTable) (p : Nat) (key : Bytes) :
    (table.lockRow p key).claimedCount = table.claimedCount := by
  change (List.map _ _).countP _ = _
  rw [List.countP_map]
  simp only [comp_def, Ticket.state_lockedBy]
  rfl

theorem claimedCount_insert (table : TicketTable) (new : NewTicket) (now : Time) :
    (table.insertAvailable new now).claimedCount = table.claimedCount := by
  rw [TicketTable.insertAvailable]
  split
  · rfl
  · rw [TicketTable.claimedCount, List.countP_append, List.countP_singleton]
    rfl

/-- The transaction of the process is over, and it has nothing. -/
theorem Accounted.aborts (h : Accounted ext st₀ ls st watch) (hl : claimEvent l = none)
    (hbefore : Open (watch p)) (hmine : ClaimStage.mine (watch p) = none) :
    Accounted ext st₀ (ls ++ [l]) (st.abort p) (update watch p (some .idle)) :=
  h.quiet hl hbefore trivial hmine.symm h.table.abort (claimedCount_abort st p)

/-- A commit that took effect, reported or not. -/
theorem Accounted.commits (h : Accounted ext st₀ ls st watch)
    (hp : watch p = some (.flipped ticket)) :
    Accounted ext st₀ (ls ++ [.op p ⟨.commit, .ok ()⟩]) (st.commit p)
        (update watch p (some (.confirmed ticket []))) ∧
      ∀ err, Accounted ext st₀ (ls ++ [.op p ⟨.commit, .lost () err⟩]) (st.commit p)
        (update watch p (some .idle)) := by
  have hmine : ClaimStage.mine (watch p) = none := by
    rw [hp]
    rfl
  obtain ⟨htable, htaken, hfree, hcount⟩ := h.table.commit (congrArg ClaimStage.holding hp)
  refine ⟨h.step ?_ (htable.own htaken hfree) hcount,
    fun err => h.step ?_ (htable.same hmine.symm) hcount⟩
  · refine ⟨by rintro _ ⟨⟩; rfl, hp ▸ trivial, nofun, nofun, ?_, fun _ => hmine, ?_⟩
    · exact iff_of_true rfl (.inr (List.mem_singleton.mpr rfl))
    · exact iff_of_false nofun (by simp)
  · refine ⟨by rintro _ ⟨⟩; rfl, hp ▸ trivial, nofun, nofun, ?_, nofun, ?_⟩
    · rw [hmine]
      exact iff_of_false nofun nofun
    · exact iff_of_false nofun (by simp)

/-- A request that has its ticket answers. -/
theorem Accounted.answers (h : Accounted ext st₀ ls st watch) {since : List (Ev TicketWorld)}
    (hp : watch p = some (.confirmed ticket since)) (body : Bytes) :
    (∀ response, SignedFor ext body ticket response →
      Accounted ext st₀ (ls ++ [.op p ⟨.answer body (.ok response), ()⟩]) st
        (update watch p (some (.served ticket)))) ∧
      ∀ e, Accounted ext st₀ (ls ++ [.op p ⟨.answer body (.error e), ()⟩]) st
        (update watch p (some (.spoiled ticket))) := by
  refine ⟨fun response hsigned => h.step ?_ ((h.still (hp ▸ rfl)).same (hp ▸ rfl)) rfl,
    fun e => h.step ?_ ((h.still (hp ▸ rfl)).same (hp ▸ rfl)) rfl⟩ <;> rw [hp]
  · refine ⟨by rintro _ ⟨⟩; rfl, trivial, fun x hx => ?_,
      fun _ _ => List.mem_singleton.mpr rfl, iff_of_true rfl (.inl rfl), nofun, ?_⟩
    · obtain rfl := List.mem_singleton.mp hx
      exact ⟨ticket, rfl, hsigned⟩
    · exact iff_of_false nofun (by simp)
  · exact ⟨by rintro _ ⟨⟩; rfl, trivial, nofun, nofun, iff_of_true rfl (.inl rfl), nofun,
      iff_of_true (List.mem_singleton.mpr rfl) (.inl ⟨ticket, rfl⟩)⟩

/-- A request that never had a ticket answers. -/
theorem Accounted.refuses (h : Accounted ext st₀ ls st watch) (hp : watch p = some .idle)
    (body : Bytes) (e : AppError) :
    Accounted ext st₀ (ls ++ [.op p ⟨.answer body (.error e), ()⟩]) st
      (update watch p (some .refused)) := by
  refine h.step ?_ ((h.still (hp ▸ rfl)).same (hp ▸ rfl)) rfl
  rw [hp]
  exact ⟨by rintro _ ⟨⟩; rfl, trivial, nofun, nofun, iff_of_false nofun nofun, nofun,
    iff_of_true (List.mem_singleton.mpr rfl) (.inr rfl)⟩

/-- The oldest row of those a claim may take. -/
theorem oldest_spec {table : TicketTable} {dim : Dim} {network : Network}
    (h : Oldest (table.claimable dim network) (some ticket)) :
    ∃ row, table.row? ticket.publicKey = some row ∧ row.toClaimedTicket = ticket ∧
      row.state = .available ∧ row.lock = none := by
  obtain ⟨row, hmem, rfl, -⟩ := h
  rw [TicketTable.claimable, List.mem_filter] at hmem
  obtain ⟨hmem, hclaimable⟩ := hmem
  simp only [Ticket.inPool, Bool.and_eq_true, decide_eq_true_eq, Option.isNone_iff_eq_none] at hclaimable
  exact ⟨row, TicketTable.row?_eq_some.mpr ⟨hmem, rfl⟩, rfl, hclaimable.1.1.1, hclaimable.2⟩

/-- What a process without a ticket does. -/
theorem Accounted.idle (h : Accounted ext st₀ ls st watch) (hp : watch p = some .idle)
    (hok : (claimMonitor ext).ok .idle o) (hexec : TicketAsk.Does p st o a st') :
    Accounted ext st₀ (ls ++ [.op p ⟨o, a⟩]) st'
      (update watch p (some (claimNext .idle ⟨o, a⟩))) := by
  have hopen : Open (watch p) := by
    rw [hp]
    trivial
  have hmine : ClaimStage.mine (watch p) = none := by
    rw [hp]
    rfl
  have hholding : ClaimStage.holding (watch p) = none := by
    rw [hp]
    rfl
  -- the table may change, and the process has as little as before
  have hstill : ∀ {l}, claimEvent l = none → ∀ {st'},
      TableInv ext st' (fun q => ClaimStage.holding (watch q)) (fun q => ClaimStage.mine (watch q)) →
      st'.table.claimedCount = st.table.claimedCount →
      Accounted ext st₀ (ls ++ [l]) st' (update watch p (some .idle)) := by
    intro l hl st' htable hcount
    refine h.quiet hl hopen trivial hmine.symm ?_ hcount
    rw [show ClaimStage.holding (some .idle) = ClaimStage.holding (watch p) from hholding.symm,
      update_eq_self p fun q => ClaimStage.holding (watch q)]
    exact htable
  cases o with
  | count =>
    obtain ⟨rfl, -⟩ := hexec
    exact hstill rfl h.table rfl
  | selectOldest dim network =>
    match a, hexec with
    | .error _, hst =>
      obtain rfl := hst
      exact h.aborts rfl hopen hmine
    | .ok none, ⟨_, hst⟩ =>
      obtain rfl := hst
      exact hstill rfl h.table rfl
    | .ok (some ticket), ⟨holdest, hst⟩ =>
      obtain rfl := hst
      obtain ⟨row, hrow, hticket, hstate, hfree⟩ := oldest_spec holdest
      exact h.quiet rfl hopen trivial hmine.symm
        (h.table.select hrow hticket hstate hfree hholding) (claimedCount_lockRow ..)
  | setClaimed | commit => exact hok.elim
  | rollback =>
    obtain rfl := hexec
    exact h.aborts rfl hopen hmine
  | insertAvailable new =>
    rcases Reply.Did.cases hexec with ⟨_, rfl⟩ | rfl
    · exact hstill rfl (h.table.insert hok) (claimedCount_insert ..)
    · exact hstill rfl h.table rfl
  | answer body result =>
    obtain ⟨e, rfl⟩ := hok
    obtain rfl := hexec
    exact h.refuses hp body e
  | tryLock =>
    obtain ⟨lock, rfl⟩ : ∃ lock, st' = { st with lock := lock } := by
      match a, hexec with
      | .ok true, ⟨_, hst⟩ | .ok false, ⟨_, hst⟩ | .error _, hst => exact ⟨_, hst⟩
    exact hstill rfl ⟨h.table.kept, h.table.locked, h.table.holds, h.table.flips, h.table.owns,
      h.table.apart⟩ rfl
  | unlock =>
    rcases hexec with rfl | ⟨-, rfl⟩
    · exact hstill rfl h.table rfl
    · exact hstill rfl ⟨h.table.kept, h.table.locked, h.table.holds, h.table.flips, h.table.owns,
        h.table.apart⟩ rfl
  | _ =>
    obtain rfl := hexec
    exact hstill rfl h.table rfl

theorem Accounted.op (h : Accounted ext st₀ ls st watch) {stage : ClaimStage}
    (hp : watch p = some stage) (hok : (claimMonitor ext).ok stage o)
    (hexec : TicketAsk.Does p st o a st') : Accounted ext st₀ (ls ++ [.op p ⟨o, a⟩]) st'
      (update watch p (some (claimNext stage ⟨o, a⟩))) := by
  match stage, o, hok with
  | .idle, _, hok => exact h.idle hp hok hexec
  | .took ticket, .setClaimed flip, hflip =>
    have hopen : Open (watch p) := hp ▸ trivial
    match a, hexec with
    | .ok _, hst =>
      obtain rfl := hst
      exact h.quiet rfl hopen trivial (hp ▸ rfl)
        (h.table.set (congrArg ClaimStage.holding hp) hflip) rfl
    | .error _, hst =>
      obtain rfl := hst
      exact h.aborts rfl hopen (hp ▸ rfl)
  | .flipped ticket, .commit, _ =>
    match a, hexec with
    | .ok (), hst =>
      obtain rfl := hst
      exact (h.commits hp).1
    | .lost () err, hst =>
      obtain rfl := hst
      exact (h.commits hp).2 err
    | .refused _, hst =>
      obtain rfl := hst
      exact h.aborts rfl (hp ▸ trivial) (hp ▸ rfl)
  | .confirmed ticket since, .nonce, _ =>
    obtain rfl := hexec
    exact h.same rfl (hp ▸ trivial) trivial (hp ▸ rfl) (hp ▸ rfl)
  | .confirmed ticket since, .count .., _ =>
    obtain ⟨rfl, -⟩ := hexec
    exact h.same rfl (hp ▸ trivial) trivial (hp ▸ rfl) (hp ▸ rfl)
  | .confirmed ticket since, .answer body (.ok response), hsigned =>
    obtain rfl := hexec
    exact (h.answers hp body).1 response hsigned
  | .confirmed ticket since, .answer body (.error e), _ =>
    obtain rfl := hexec
    exact (h.answers hp body).2 e

end Steps

/-- What holds of every run in which no process is lost. -/
theorem reachable_accounted {tuning : PoolTuning} {st₀ : PoolState}
    (hkept : ∀ row ∈ st₀.table.rows, Kept ext row.toClaimedTicket ∧ row.lock = none)
    {ls : List TicketLabel} {s : TicketSys}
    (r : Reachable (Invites ext tuning) st₀ ls s) (hkill : ∀ p, .kill p ∉ ls) :
    Accounted ext st₀ ls s.st (s.watch (claimMonitor ext) .idle) := by
  refine Reachable.inv (claims_bound ext tuning st₀)
    (fun ls st watch => (∀ p, .kill p ∉ ls) → Accounted ext st₀ ls st watch) ?_
    ⟨?_, ?_, ?_, ?_⟩ r hkill
  · refine fun _ => ⟨⟨fun key row hrow => ?_, fun key row p hrow hlock => ?_, nofun, nofun, nofun,
      nofun⟩, ⟨nofun, List.nodup_nil, nofun, List.nodup_nil, fun p => ?_, fun p => ?_⟩, rfl⟩
    · exact (hkept row (TicketTable.row?_eq_some.mp hrow).1).1
    · rw [(hkept row (TicketTable.row?_eq_some.mp hrow).1).2] at hlock
      cases hlock
    · exact iff_of_false nofun nofun
    · refine iff_of_false nofun ?_
      rintro (⟨_, hq⟩ | hq) <;> cases hq
  · intro ls s p stage o a st' _ h hp hok hexec hkill
    exact (h fun q hq => hkill q (List.mem_append_left _ hq)).op hp hok hexec
  · rintro ls s d _ _ h rfl hkill
    obtain ⟨htable, hledger, hmoved⟩ := h fun q hq => hkill q (List.mem_append_left _ hq)
    have hes : claimEvents (ls ++ [.env d]) = claimEvents ls := by
      rw [claimEvents_snoc]
      exact List.append_nil _
    refine ⟨⟨htable.kept, htable.locked, htable.holds, htable.flips, htable.owns, htable.apart⟩, ?_, ?_⟩
    · rw [hes]
      exact hledger
    · rw [hes]
      exact hmoved
  · intro ls s p _ h hp hkill
    refine (h fun q hq => hkill q (List.mem_append_left _ hq)).same rfl ?_ trivial ?_ ?_ <;> rw [hp]
    · trivial
    · rfl
    · rfl
  · intro ls s p st' _ _ _ hkill
    exact absurd (List.mem_append_right _ (List.mem_singleton.mpr rfl)) (hkill p)

/-! ### Why a request failed -/

/-- The history of a request that had its ticket, and failed all the same. -/
def LostAfter (ext : TicketExt) (h : List (Ev TicketWorld)) : Prop :=
  ∃ h₀ dim network ticket flip n since body e,
    h = h₀ ++ [⟨.selectOldest dim network, .ok (some ticket)⟩, ⟨.setClaimed flip, .ok n⟩,
      ⟨.commit, .ok ()⟩] ++ since ++ [⟨.answer body (.error e), ()⟩] ∧ Spoilt ext ticket since

/-- What the stage of a request says of its history. -/
def Tells (ext : TicketExt) (h : List (Ev TicketWorld)) : ClaimStage → Prop
  | .took ticket => ∃ h₀ dim network, h = h₀ ++ [⟨.selectOldest dim network, .ok (some ticket)⟩]
  | .flipped ticket => ∃ h₀ dim network flip n,
      h = h₀ ++ [⟨.selectOldest dim network, .ok (some ticket)⟩, ⟨.setClaimed flip, .ok n⟩]
  | .confirmed ticket since => ∃ h₀ dim network flip n,
      h = h₀ ++ [⟨.selectOldest dim network, .ok (some ticket)⟩, ⟨.setClaimed flip, .ok n⟩,
        ⟨.commit, .ok ()⟩] ++ since
  | .spoiled _ => LostAfter ext h
  | _ => True

theorem Tells.snoc {h : List (Ev TicketWorld)} {stage : ClaimStage} (ht : Tells ext h stage)
    (hok : (claimMonitor ext).ok stage o) : Tells ext (h ++ [⟨o, a⟩]) (claimNext stage ⟨o, a⟩) := by
  match stage, o, hok with
  | .idle, .selectOldest dim network, _ =>
    match a with
    | .ok (some ticket) => exact ⟨h, dim, network, rfl⟩
    | .ok none | .error _ => trivial
  | .took ticket, .setClaimed flip, _ =>
    match a with
    | .ok n =>
      obtain ⟨h₀, dim, network, rfl⟩ := ht
      exact ⟨h₀, dim, network, flip, n, by simp⟩
    | .error _ => trivial
  | .flipped ticket, .commit, _ =>
    match a with
    | .ok () =>
      obtain ⟨h₀, dim, network, flip, n, rfl⟩ := ht
      exact ⟨h₀, dim, network, flip, n, by simp⟩
    | .lost .. | .refused _ => trivial
  | .confirmed ticket since, .nonce, _ | .confirmed ticket since, .count .., _ =>
    obtain ⟨h₀, dim, network, flip, n, rfl⟩ := ht
    exact ⟨h₀, dim, network, flip, n, by simp⟩
  | .confirmed ticket since, .answer body (.ok response), _ => trivial
  | .confirmed ticket since, .answer body (.error e), hspoilt =>
    obtain ⟨h₀, dim, network, flip, n, rfl⟩ := ht
    exact ⟨h₀, dim, network, ticket, flip, n, since, body, e, rfl, hspoilt⟩
  | .idle, .answer .., _ => trivial
  | .idle, .allow _, _ | .idle, .nowUtc, _ | .idle, .count .., _ | .idle, .begin, _
  | .idle, .rollback, _ | .idle, .nonce, _ | .idle, .tryLock, _ | .idle, .unlock, _
  | .idle, .availableInvites .., _ | .idle, .freeBalance _, _ | .idle, .seed, _
  | .idle, .txClient, _ | .idle, .createSigned _, _ | .idle, .submitAndWatch _, _
  | .idle, .nextStatus, _ | .idle, .waitForSuccess, _ | .idle, .insertAvailable _, _
  | .idle, .resize .., _ => trivial

theorem reachable_tells {tuning : PoolTuning} {st₀ : PoolState} {ls : List TicketLabel}
    {s : TicketSys}
    (r : Reachable (Invites ext tuning) st₀ ls s) {p : Nat} {h : List (Ev TicketWorld)}
    (hh : s.hist p = some h) : Tells ext h (h.foldl claimNext .idle) := by
  refine r.hist_inv (claims_bound ext tuning st₀) (fun h => Tells ext h (h.foldl claimNext .idle))
    trivial (fun h p o a _ _ ht hok _ => ?_) hh
  rw [List.foldl_append]
  exact ht.snoc hok

/-! ### The accounts of a run -/

section Accounts

variable {tuning : PoolTuning} {st₀ st : PoolState} {ls : List TicketLabel}
  {watch : Nat → Option ClaimStage}

/-- The requests whose commit was confirmed, by what they came to. -/
theorem Ledger.confirms_length {es : List ClaimEvent} (h : Ledger ext es watch) :
    (confirms es).length = (successes es).length + (confirms es).countP (· ∈ failures es) +
      (confirms es).countP fun p => p ∉ failures es ∧ p ∉ (successes es).map Success.p := by
  have hserved : ∀ p, p ∈ (successes es).map Success.p ↔ ∃ ticket, watch p = some (.served ticket) := by
    refine fun p => ⟨fun hp => ?_, fun ⟨ticket, hp⟩ => h.served p ticket hp⟩
    obtain ⟨x, hx, rfl⟩ := List.mem_map.mp hp
    exact (h.signed x hx).imp fun _ => And.left
  have hdisjoint : ∀ p ∈ (successes es).map Success.p, p ∉ failures es := by
    intro p hp hfailed
    obtain ⟨ticket, hticket⟩ := (hserved p).mp hp
    rw [h.failed p, hticket] at hfailed
    rcases hfailed with ⟨_, hq⟩ | hq <;> cases hq
  -- those that were served are as many as the successes
  have hperm : ((confirms es).filter (· ∈ (successes es).map Success.p)).Perm
      ((successes es).map Success.p) := by
    refine (List.perm_ext_iff_of_nodup (h.confirmed_once.filter _) h.served_once).mpr fun p => ?_
    rw [List.mem_filter, decide_eq_true_eq]
    refine and_iff_right_of_imp fun hp => ?_
    obtain ⟨ticket, hticket⟩ := (hserved p).mp hp
    rw [h.confirmed p, hticket]
    rfl
  have hcount : (confirms es).countP (· ∈ (successes es).map Success.p) = (successes es).length := by
    rw [List.countP_eq_length_filter, hperm.length_eq, List.length_map]
  rw [← hcount]
  clear hcount hperm
  induction confirms es with
  | nil => rfl
  | cons p rest ih =>
    simp only [List.length_cons, List.countP_cons, ih]
    by_cases hs : p ∈ (successes es).map Success.p
    · have hf := hdisjoint p hs
      simp [hs, hf]
      omega
    · by_cases hf : p ∈ failures es
      · simp [hs, hf]
        omega
      · simp [hs, hf]
        omega

/-- Every response has a key of its own. -/
theorem Accounted.distinct (h : Accounted ext st₀ ls st watch) :
    (successes (claimEvents ls)).Pairwise fun x y => x.response.publicKey ≠ y.response.publicKey := by
  have hnodup := h.ledger.served_once
  rw [List.Nodup, List.pairwise_map] at hnodup
  refine hnodup.imp_of_mem ?_
  intro x y hx hy hne hsame
  obtain ⟨ticket, hticket, _, _, _, _, _, hkey, _⟩ := h.ledger.signed x hx
  obtain ⟨ticket', hticket', _, _, _, _, _, hkey', _⟩ := h.ledger.signed y hy
  refine hne (h.table.apart x.p y.p ticket ticket' ?_ ?_ ?_)
  · exact congrArg ClaimStage.mine hticket
  · exact congrArg ClaimStage.mine hticket'
  · exact hexEncode_inj (hkey.symm.trans (hsame.trans hkey'))

/-- Every response is signed by its key. -/
theorem Accounted.verified (h : Accounted ext st₀ ls st watch)
    (hsign : ∀ keypair nonce payload,
      ext.verify (ext.publicBytes keypair) payload (ext.sign keypair nonce payload) = true)
    {x : Success} (hx : x ∈ successes (claimEvents ls)) :
    ∃ request key signature, requestOf ext x.body = .ok request ∧
      x.response.publicKey = hexEncode key.1 ∧ x.response.signature = hexEncode signature.1 ∧
      ext.verify key request.whoAccount.1 signature = true := by
  obtain ⟨ticket, hticket, request, keypair, nonce, hrequest, hsecret, hkey, hsignature⟩ :=
    h.ledger.signed x hx
  obtain ⟨row, hrow, rfl, -⟩ := h.table.owns x.p ticket (congrArg ClaimStage.mine hticket)
  refine ⟨request, ext.publicBytes keypair, _, hrequest, ?_, hsignature, hsign ..⟩
  rw [hkey, h.table.kept _ row hrow keypair hsecret]

end Accounts

/-- Every ticket that moved from available to claimed was answered with, or its commit was not
    reported, or its request failed afterwards or has not answered. The responses have keys of their
    own, each with its signature over the account of the request. A request that answers with an
    error has moved no ticket, unless a commit of it was not reported, or it had its ticket and the
    secret did not load or the pool could not be counted. -/
theorem claims_accounted (ext : TicketExt)
    (hsign : ∀ keypair nonce payload,
      ext.verify (ext.publicBytes keypair) payload (ext.sign keypair nonce payload) = true)
    {tuning : PoolTuning} {st₀ : PoolState}
    (hkept : ∀ row ∈ st₀.table.rows, Kept ext row.toClaimedTicket ∧ row.lock = none)
    {ls : List TicketLabel} {s : TicketSys}
    (r : Reachable (Invites ext tuning) st₀ ls s) (hkill : ∀ p, .kill p ∉ ls) :
    s.st.table.claimedCount = st₀.table.claimedCount + (successes (claimEvents ls)).length +
        unreported (claimEvents ls) +
        (confirms (claimEvents ls)).countP (· ∈ failures (claimEvents ls)) +
        (confirms (claimEvents ls)).countP (fun p => p ∉ failures (claimEvents ls) ∧
          p ∉ (successes (claimEvents ls)).map Success.p) ∧
      (successes (claimEvents ls)).Pairwise
        (fun x y => x.response.publicKey ≠ y.response.publicKey) ∧
      (∀ x ∈ successes (claimEvents ls), ∃ request key signature,
        requestOf ext x.body = .ok request ∧ x.response.publicKey = hexEncode key.1 ∧
        x.response.signature = hexEncode signature.1 ∧
        ext.verify key request.whoAccount.1 signature = true) ∧
      ∀ p ∈ failures (claimEvents ls),
        (∀ reply, .op p ⟨.commit, reply⟩ ∈ ls → ∃ err, reply = .refused err) ∨
        (∃ err, .op p ⟨.commit, .lost () err⟩ ∈ ls) ∨
        ∃ h, s.hist p = some h ∧ LostAfter ext h := by
  have h := reachable_accounted hkept r hkill
  refine ⟨?_, h.distinct, fun x hx => h.verified hsign hx, fun p hp => ?_⟩
  · rw [h.moved, h.ledger.confirms_length]
    omega
  · rcases (h.ledger.failed p).mp hp with ⟨ticket, hspoiled⟩ | hrefused
    · right; right
      rw [Sys.watch, Option.map_eq_some_iff] at hspoiled
      obtain ⟨hist, hhist, hstage⟩ := hspoiled
      have htells := reachable_tells r hhist
      rw [show hist.foldl claimNext .idle = .spoiled ticket from hstage] at htells
      exact ⟨hist, hhist, htells⟩
    · by_cases hlost : ∃ err, .op p ⟨.commit, .lost () err⟩ ∈ ls
      · exact .inr (.inl hlost)
      · left
        intro reply hreply
        cases reply with
        | refused err => exact ⟨err, rfl⟩
        | lost out err => exact absurd ⟨err, hreply⟩ hlost
        | ok out =>
          have hconfirmed : p ∈ confirms (claimEvents ls) :=
            List.mem_filterMap.mpr ⟨.confirmed p, List.mem_filterMap.mpr ⟨_, hreply, rfl⟩, rfl⟩
          rw [h.ledger.confirmed p, hrefused] at hconfirmed
          cases hconfirmed

/-! ### A commit that is not reported, and a count that fails -/

/-- The label is not that of a lost process. -/
def notKill : TicketLabel → Bool
  | .kill _ => false
  | _ => true

theorem no_kill {ls : List TicketLabel} (h : ls.all notKill = true) (p : Nat) :
    .kill p ∉ ls :=
  fun hl => Bool.false_ne_true (List.all_eq_true.mp h _ hl)

/-- A request whose commit takes effect unreported, and which then claims another ticket. -/
def secondTicket : List (Move TicketHint Nat TicketImage) :=
  [.start 1 (.claim .westend2 "alice" inviteBody)] ++ goesOn 1 6 ++
    [.op 1 (.reply (.lost "connection closed"))] ++ goesOn 1 4 ++
    [.op 1 (.draws ⟨List.replicate 32 0, length_zeros⟩)] ++ goesOn 1 2

/-- A request that has its ticket when the pool cannot be counted. -/
def countFails : List (Move TicketHint Nat TicketImage) :=
  [.start 1 (.claim .westend2 "alice" inviteBody)] ++ goesOn 1 7 ++
    [.op 1 (.draws ⟨List.replicate 32 0, length_zeros⟩)] ++
    List.replicate 4 (.op 1 (.reply (.fails "connection closed"))) ++ goesOn 1 1

/-- Two tickets move and one is answered with; and a ticket moves for a request that answers with an
    error. -/
theorem claims_unaccounted :
    (∃ ls s, Reachable (Invites devTickets ⟨1, 1⟩) devPool ls s ∧ (∀ p, .kill p ∉ ls) ∧
      s.st.table.claimedCount ≠ devPool.table.claimedCount + (successes (claimEvents ls)).length) ∧
    ∃ ls s, Reachable (Invites devTickets ⟨1, 1⟩) devPool ls s ∧ (∀ p, .kill p ∉ ls) ∧
      failures (claimEvents ls) = [1] ∧ confirms (claimEvents ls) = [1] ∧
      s.st.table.claimedCount = devPool.table.claimedCount + 1 := by
  constructor
  · obtain ⟨ls, s, r, htest⟩ := (ticketPlayer devTickets ⟨1, 1⟩).reaches devPool secondTicket
      (fun ls s => ls.all notKill && (s.st.table.claimedCount == 2) &&
        ((successes (claimEvents ls)).length == 1)) (by decide +kernel)
    simp only [Bool.and_eq_true, beq_iff_eq] at htest
    obtain ⟨⟨hkill, hclaimed⟩, hanswered⟩ := htest
    refine ⟨ls, s, r, no_kill hkill, ?_⟩
    rw [hclaimed, hanswered]
    decide +kernel
  · obtain ⟨ls, s, r, htest⟩ := (ticketPlayer devTickets ⟨1, 1⟩).reaches devPool countFails
      (fun ls s => ls.all notKill && (failures (claimEvents ls) == [1]) &&
        (s.st.table.claimedCount == 1) && (confirms (claimEvents ls) == [1])) (by decide +kernel)
    simp only [Bool.and_eq_true, beq_iff_eq] at htest
    obtain ⟨⟨⟨hkill, hfailed⟩, hclaimed⟩, hconfirmed⟩ := htest
    exact ⟨ls, s, r, no_kill hkill, hfailed, hconfirmed, hclaimed⟩

theorem claims_accounted_second :
    ∃ ls s x, Reachable (Invites devTickets ⟨1, 1⟩) devPool ls s ∧
      successes (claimEvents ls) = [x] ∧ unreported (claimEvents ls) = 1 ∧
      s.st.table.claimedCount = 2 ∧
      ∃ request key signature, requestOf devTickets x.body = .ok request ∧
        x.response.publicKey = hexEncode key.1 ∧ x.response.signature = hexEncode signature.1 ∧
        devTickets.verify key request.whoAccount.1 signature = true := by
  obtain ⟨ls, s, r, htest⟩ := (ticketPlayer devTickets ⟨1, 1⟩).reaches devPool secondTicket
    (fun ls _ => ls.all notKill && (unreported (claimEvents ls) == 1) &&
      ((successes (claimEvents ls)).map Success.p == [1]) && (confirms (claimEvents ls) == [1]) &&
      (failures (claimEvents ls) == [])) (by decide +kernel)
  simp only [Bool.and_eq_true, beq_iff_eq] at htest
  obtain ⟨⟨⟨⟨hkill, hunreported⟩, hanswered⟩, hconfirmed⟩, hfailed⟩ := htest
  obtain ⟨hcount, -, hverified, -⟩ :=
    claims_accounted devTickets devTickets_sign devPool_kept r (no_kill hkill)
  rw [hunreported, hanswered, hconfirmed, hfailed] at hcount
  obtain ⟨x, hx, -⟩ := List.map_eq_singleton_iff.mp hanswered
  refine ⟨ls, s, x, r, hx, hunreported, ?_, hverified x (by simp [hx])⟩
  rw [hcount, hx, List.length_singleton]
  decide +kernel

end DeviceUniqueness.Tickets
