import DeviceUniqueness.Outbox.Schema

/-! The statements the services run against the tables, each as one function on `Db`.

    Updates of a reservation by a writer are guarded: they go through only while the writer's lease
    is held (`Db.guarded`). None of them looks at the row's current status. A transaction of several
    statements is one function too; a step that fails rolls the whole of it back. -/

namespace DeviceUniqueness

open Function Schemes

namespace Db

variable (db : Db)

/-! ### Leases

`ttl` is in seconds, bound as an `i64`. -/

/-- The lease check of `lease::fence`, `lease::renew` and every guarded update. -/
def held (g : Guard) : Bool := Lease.holds db.now (db.leases g.leaseName) g.holderId g.epoch

def tryAcquire (name holderId : String) (ttl : Nat) : Option Nat × Db :=
  let taken := Lease.acquire db.now (db.now + seconds (asI64 ttl)) holderId (db.leases name)
  (taken.1, { db with leases := update db.leases name taken.2 })

def renew (g : Guard) (ttl : Nat) : Bool × Db :=
  let kept := Lease.renew db.now (db.now + seconds (asI64 ttl)) g.holderId g.epoch
    (db.leases g.leaseName)
  (kept.1, { db with leases := update db.leases g.leaseName kept.2 })

/-- The clock moves on. -/
def tick (d : Nat) : Db := { db with now := db.now + d }

/-! ### Guarded updates of one row -/

/-- `UPDATE … SET f WHERE id = … AND` the lease is held; whether exactly one row was affected. -/
def guarded (g : Guard) (id : Nat) (f : Row → Row) (hf : Keeps f) : Bool × Db :=
  let hit : Row → Bool := fun row => row.id = id && db.held g
  (db.affected hit == 1, db.updateWhere hit f hf)

def setSubmitting (now : Time) (txHash : String) (nonce : Nat) (attempt : Int) (row : Row) : Row :=
  { row with
    status := .submitting, txHash := some txHash, nonce := some nonce, attempt := attempt,
    submittedAt := some now, updatedAt := now }

def dotnsAbandonedReason : String :=
  "People registration failed terminally; dotNS reservation never attempted"

/-- A People row that fails terminally closes a dotNS half that is still open. -/
def closesDotns (status : Status) (row : Row) : Bool :=
  status = .failedTerminal &&
    (row.dotnsStatus = some .pending || row.dotnsStatus = some .retryAfter)

def setStatus (now : Time) (status : Status) (retry : Option (Time × Int)) (err : Option String)
    (row : Row) : Row :=
  { row with
    status := status
    notBefore := if status = .retryAfter then retry.map Prod.fst else row.notBefore
    attempt := (retry.map Prod.snd).getD row.attempt
    lastError := err.or row.lastError
    dotnsStatus := if closesDotns status row then some .abandoned else row.dotnsStatus
    dotnsLastError :=
      if closesDotns status row then some dotnsAbandonedReason else row.dotnsLastError
    dotnsNotBefore := if closesDotns status row then none else row.dotnsNotBefore
    updatedAt := now }

def setDotnsSubmitting (now : Time) (txHash : String) (attempt : Int) (row : Row) : Row :=
  { row with
    dotnsStatus := some .submitting, dotnsTxHash := some txHash, dotnsAttempt := attempt,
    dotnsNotBefore := none, updatedAt := now }

def setDotnsStatus (now : Time) (status : DotnsStatus) (retry : Option (Time × Int))
    (err : Option String) (row : Row) : Row :=
  { row with
    dotnsStatus := some status
    dotnsNotBefore := if status = .retryAfter then retry.map Prod.fst else row.dotnsNotBefore
    dotnsAttempt := (retry.map Prod.snd).getD row.dotnsAttempt
    dotnsLastError := err.or row.dotnsLastError
    updatedAt := now }

theorem keeps_setSubmitting (now : Time) (txHash : String) (nonce : Nat) (attempt : Int) :
    Keeps (setSubmitting now txHash nonce attempt) :=
  ⟨fun _ => rfl, fun _ => rfl, fun _ h => h⟩

theorem keeps_setStatus (now : Time) (status : Status) (retry : Option (Time × Int))
    (err : Option String) : Keeps (setStatus now status retry err) :=
  ⟨fun _ => rfl, fun _ => rfl, fun _ h => h⟩

theorem keeps_setDotnsSubmitting (now : Time) (txHash : String) (attempt : Int) :
    Keeps (setDotnsSubmitting now txHash attempt) :=
  ⟨fun _ => rfl, fun _ => rfl, fun _ h => h⟩

theorem keeps_setDotnsStatus (now : Time) (status : DotnsStatus) (retry : Option (Time × Int))
    (err : Option String) : Keeps (setDotnsStatus now status retry err) :=
  ⟨fun _ => rfl, fun _ => rfl, fun _ h => h⟩

def markSubmitting (g : Guard) (id : Nat) (txHash : String) (nonce : Nat) (attempt : Int) :
    Bool × Db :=
  db.guarded g id (setSubmitting db.now txHash nonce attempt) (keeps_setSubmitting ..)

def guardedStatus (g : Guard) (id : Nat) (status : Status) (retry : Option (Time × Int))
    (err : Option String) : Bool × Db :=
  db.guarded g id (setStatus db.now status retry err) (keeps_setStatus ..)

def markAssigned (g : Guard) (id : Nat) : Bool × Db := db.guardedStatus g id .assigned none none

def markRetry (g : Guard) (id : Nat) (notBefore : Time) (attempt : Int) (err : String) :
    Bool × Db :=
  db.guardedStatus g id .retryAfter (some (notBefore, attempt)) (some err)

def markFailed (g : Guard) (id : Nat) (err : String) : Bool × Db :=
  db.guardedStatus g id .failedTerminal none (some err)

def markDotnsSubmitting (g : Guard) (id : Nat) (txHash : String) (attempt : Int) : Bool × Db :=
  db.guarded g id (setDotnsSubmitting db.now txHash attempt) (keeps_setDotnsSubmitting ..)

def guardedDotnsStatus (g : Guard) (id : Nat) (status : DotnsStatus)
    (retry : Option (Time × Int)) (err : Option String) : Bool × Db :=
  db.guarded g id (setDotnsStatus db.now status retry err) (keeps_setDotnsStatus ..)

def markDotnsReserved (g : Guard) (id : Nat) : Bool × Db :=
  db.guardedDotnsStatus g id .reserved none none

def markDotnsRetry (g : Guard) (id : Nat) (notBefore : Time) (attempt : Int) (err : String) :
    Bool × Db :=
  db.guardedDotnsStatus g id .retryAfter (some (notBefore, attempt)) (some err)

def markDotnsFailed (g : Guard) (id : Nat) (err : String) : Bool × Db :=
  db.guardedDotnsStatus g id .failedTerminal none (some err)

def markDotnsExpired (g : Guard) (id : Nat) (err : String) : Bool × Db :=
  db.guardedDotnsStatus g id .expired none (some err)

/-! ### Device records -/

inductive InsertDeviceError where
  | seen
  deriving DecidableEq

/-- Insert the `PENDING` record of a device, unless the device is already recorded. -/
def insertPending (hmac : FixedBytes 32) (reservationId : Nat) : Except InsertDeviceError Db :=
  if h : hmac ∈ db.devices.map Device.hmac then .error .seen
  else .ok { db with
    devices := db.devices ++ [⟨hmac, .pending, some reservationId⟩]
    hmacs_nodup := by
      rw [List.map_append, List.nodup_append]
      refine ⟨db.hmacs_nodup, by simp, ?_⟩
      rintro a ha b hb rfl
      simp only [List.map_cons, List.map_nil, List.mem_singleton] at hb
      exact h (hb ▸ ha) }

/-- The records a claim's outcome is about. -/
def pendingFor (reservationId : Nat) (d : Device) : Bool :=
  d.reservationId = some reservationId && d.status = .pending

def consume (d : Device) : Device := { d with status := .consumed, reservationId := none }

def consumeForReservation (reservationId : Nat) : Db :=
  { db with
    devices := db.devices.map fun d => if pendingFor reservationId d then consume d else d
    hmacs_nodup := by
      have hkeep : ∀ d, (if pendingFor reservationId d then consume d else d).hmac = d.hmac := by
        intro d
        split <;> rfl
      simpa [comp_def, hkeep] using db.hmacs_nodup }

def releaseForReservation (reservationId : Nat) : Bool × Db :=
  (db.devices.any (pendingFor reservationId),
    { db with
      devices := db.devices.filter fun d => !pendingFor reservationId d
      hmacs_nodup := db.hmacs_nodup.sublist (List.filter_sublist.map _) })

/-! ### Inserts -/

inductive InsertError where
  | conflict
  | db
  deriving DecidableEq

/-- The row an insert writes. -/
def newRow (r : NewReservation) (status : Status) (queueGroup : Nat) : Row where
  id := db.nextId
  intake := r
  createdAt := db.now
  status := status
  queueGroup := queueGroup
  txHash := none
  nonce := none
  attempt := 0
  notBefore := none
  lastError := none
  submittedAt := none
  updatedAt := db.now
  dotnsStatus := if r.dotnsSignature.isSome then some .pending else none
  dotnsTxHash := none
  dotnsAttempt := 0
  dotnsNotBefore := none
  dotnsLastError := none

def insertWith (r : NewReservation) (status : Status) (queueGroup : Nat) :
    Except InsertError (Nat × Db) :=
  -- the payload version is bound as an `i16`, and the table checks it and the group
  if 32767 < r.payloadVersion ∨ r.payloadVersion < 1 then .error .db
  else if hg : queueGroup ∈ [1, 2, 3, 4] then
    if hn : r.fullUsername ∈ db.rows.map fun row => row.intake.fullUsername then .error .conflict
    else .ok (db.nextId, { db with
      nextId := db.nextId + 1
      rows := db.rows ++ [db.newRow r status queueGroup]
      ids_nodup := by
        rw [List.map_append, List.nodup_append]
        refine ⟨db.ids_nodup, by simp, ?_⟩
        rintro a ha b hb rfl
        obtain ⟨row, hrow, rfl⟩ := List.mem_map.mp ha
        have := db.ids_lt row hrow
        simp only [newRow, List.map_cons, List.map_nil, List.mem_singleton] at hb
        omega
      ids_lt := by
        intro row hrow
        rcases List.mem_append.mp hrow with h | h
        · have := db.ids_lt row h
          omega
        · rw [List.mem_singleton.mp h]
          exact Nat.lt_succ_self _
      names_nodup := by
        rw [List.map_append, List.nodup_append]
        refine ⟨db.names_nodup, by simp, ?_⟩
        rintro a ha b hb rfl
        simp only [newRow, List.map_cons, List.map_nil, List.mem_singleton] at hb
        exact hn (hb ▸ ha)
      group_range := by
        intro row hrow
        rcases List.mem_append.mp hrow with h | h
        · exact db.group_range row h
        · rw [List.mem_singleton.mp h]
          exact hg })
  else .error .db

def insert (r : NewReservation) : Except InsertError (Nat × Db) := db.insertWith r .reserved 1

def insertQueued (r : NewReservation) (queueGroup : Nat) : Except InsertError (Nat × Db) :=
  db.insertWith r .queued queueGroup

def insertReservation (r : NewReservation) (queueGroup : Option Nat) :
    Except InsertError (Nat × Db) :=
  match queueGroup with
  | some group => db.insertQueued r group
  | none => db.insert r

/-- The transaction of a claim: its row, and with it the record of the device it was made with. If
    either cannot be inserted nothing is. -/
def commitClaim (r : NewReservation) (queueGroup : Option Nat) (device : Option (FixedBytes 32)) :
    Option (Nat × Db) :=
  match db.insertReservation r queueGroup with
  | .error _ => none
  | .ok (id, db') =>
      match device with
      | none => some (id, db')
      | some hmac =>
          match db'.insertPending hmac id with
          | .ok db'' => some (id, db'')
          | .error _ => none

/-! ### The registration queue -/

theorem keeps_reserve (now : Time) :
    Keeps fun row => { row with status := .reserved, updatedAt := now } :=
  ⟨fun _ => rfl, fun _ => rfl, fun _ h => h⟩

/-- The earliest queued row of at least the group, by `(created_at, id)`. -/
def nextQueued (minGroup : Nat) : Option Row :=
  (db.rows.filter fun row => row.status = .queued && minGroup ≤ row.queueGroup).foldl earlier none
where
  earlier (best : Option Row) (row : Row) : Option Row :=
    match best with
    | none => some row
    | some b =>
        if row.createdAt < b.createdAt ∨ row.createdAt = b.createdAt ∧ row.id < b.id then some row
        else some b

theorem nextQueued_mem {db : Db} {minGroup : Nat} {row : Row}
    (h : db.nextQueued minGroup = some row) : row ∈ db.rows ∧ row.status = .queued := by
  have hfold : ∀ (rows : List Row) (best : Option Row), rows.foldl nextQueued.earlier best = some row →
      best = some row ∨ row ∈ rows := by
    intro rows
    induction rows with
    | nil => exact fun best h => Or.inl h
    | cons r rows ih =>
      intro best hr
      rcases ih _ hr with heq | hmem
      · unfold nextQueued.earlier at heq
        split at heq
        · exact Or.inr (Option.some.inj heq ▸ List.mem_cons_self ..)
        · split at heq
          · exact Or.inr (Option.some.inj heq ▸ List.mem_cons_self ..)
          · exact Or.inl heq
      · exact Or.inr (List.mem_cons_of_mem _ hmem)
  rcases hfold _ none h with heq | hmem
  · cases heq
  · obtain ⟨hrow, hp⟩ := List.mem_filter.mp hmem
    simp only [Bool.and_eq_true, decide_eq_true_eq] at hp
    exact ⟨hrow, hp.1⟩

/-- One promotion of `advance_iteration`. -/
def promote (minGroup : Nat) : Option Nat × Db :=
  match db.nextQueued minGroup with
  | some row =>
      (some row.id, db.updateWhere (fun r => r.id = row.id) _ (keeps_reserve db.now))
  | none => (none, db)

/-- One account's update of `refresh_groups`. -/
def refreshGroup (accountId : String) (group : Nat) (hg : group ∈ [1, 2, 3, 4]) : Db :=
  db.updateWhere
    (fun row => row.status = .queued && row.intake.accountId = accountId && row.queueGroup ≠ group)
    (fun row => { row with queueGroup := group, updatedAt := db.now })
    ⟨fun _ => rfl, fun _ => rfl, fun _ _ => hg⟩

def advancerLeaseName : String := "registration-queue-advancer"

/-- Whether the advancer's lease is still fresh, or has not been expired for longer than `grace`. -/
def advancerFresh (grace : Nat) : Bool :=
  match db.leases advancerLeaseName with
  | some l => db.now - seconds grace < l.expires
  | none => false

def strandedQueued : Nat :=
  db.affected fun row => row.status = .queued && !db.advancerFresh 0

def fallbackDrain (grace : Nat) : Nat × Db :=
  let hit : Row → Bool := fun row => row.status = .queued && !db.advancerFresh grace
  (db.affected hit, db.updateWhere hit _ (keeps_reserve db.now))

end Db

end DeviceUniqueness
