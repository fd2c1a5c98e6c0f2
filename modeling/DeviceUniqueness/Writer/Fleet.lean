import DeviceUniqueness.Outbox.Leasing
import DeviceUniqueness.Schemes.System
import DeviceUniqueness.Writer.DisciplinedLoop

/-! Any number of writers over one database, with everything else that writes to it.

    Each statement and each transaction is one atomic step. Writers may be started, lost and
    restarted at any point, under any configuration that names the one lease they share; equal
    holder ids are allowed. Around them the clock moves on, claims are committed, the queue's
    advancer promotes and regroups rows, and anyone may take and renew leases.

    `Fenced` is the invariant all results about whole runs rest on. No statement of a writer looks
    at a row's status; what protects a settled row is that a guard that passes the lease check now
    has passed it ever since the row was read (`Lease.holds_of_evolves`), and that nobody else's
    guard passed it meanwhile (`Lease.holds_unique`). -/

namespace DeviceUniqueness

open Schemes

/-! ### The machine -/

/-- What the world does to the database for an operation of a writer. The chains do nothing. -/
def Ask.Does (db : Db) : (o : Ask) → o.Ans → Db → Prop
  | .stmt s, reply, db' =>
      match (reply : Reply s.Out) with
      | .ok out | .lost out _ => s.Does db out db'
      | .refused _ => db' = db
  | _, _, db' => db' = db

/-- What else happens to the database. -/
inductive FleetEvent where
  | tick (d : Nat)
  | commitClaim (id : Nat) (r : NewReservation) (queueGroup : Option Nat)
      (device : Option (FixedBytes 32))
  | promote (minGroup : Nat)
  | refreshGroup (accountId : String) (group : Nat)
  | acquire (name holderId : String) (ttl : Nat)
  | renew (g : Guard) (ttl : Nat)

def FleetEvent.Does (db : Db) : FleetEvent → Db → Prop
  | .tick d, db' => db' = db.tick d
  | .commitClaim id r queueGroup device, db' => db.commitClaim r queueGroup device = some (id, db')
  | .promote minGroup, db' => db' = (db.promote minGroup).2
  | .refreshGroup accountId group, db' => ∃ hg, db' = db.refreshGroup accountId group hg
  | .acquire name holderId ttl, db' => db' = (db.tryAcquire name holderId ttl).2
  | .renew g ttl, db' => db' = (db.renew g ttl).2

/-- The writers that share the lease `leaseName`. -/
def Fleet (leaseName : String) :
    Machine Outside Db FleetEvent (Except WriterError Unit × Writer) where
  exec _ o db a db' := o.Does db a db'
  env e db db' := e.Does db db'
  boot _ prog := ∃ config fuel, config.leaseName = leaseName ∧ prog = Writer.run config fuel
  die _ db db' := db' = db

abbrev FleetSys := Sys Outside Db (Except WriterError Unit × Writer)

abbrev FleetLabel := Label Outside FleetEvent

/-! ### What a step does to the tables -/

/-- Neither half of the row moved, but a queued row may have been promoted. -/
structure Shifted (row row' : Row) : Prop where
  intake : row'.intake = row.intake
  attempt : row'.attempt = row.attempt
  dotnsStatus : row'.dotnsStatus = row.dotnsStatus
  dotnsAttempt : row'.dotnsAttempt = row.dotnsAttempt
  status : row'.status = row.status ∨ row.status = .queued ∧ row'.status = .reserved

theorem Shifted.refl (row : Row) : Shifted row row := ⟨rfl, rfl, rfl, rfl, Or.inl rfl⟩

/-- Rows were at most shifted. -/
structure Admin (db db' : Db) : Prop where
  devices : db'.devices = db.devices
  none_of : ∀ id, db.row? id = none → db'.row? id = none
  some_of : ∀ id row, db.row? id = some row → ∃ row', db'.row? id = some row' ∧ Shifted row row'

variable {db db' : Db} {s : Stmt}

theorem Admin.of_eq (hrows : db'.rows = db.rows) (hdev : db'.devices = db.devices) :
    Admin db db' := by
  have hrow : ∀ id, db'.row? id = db.row? id := fun id => by simp [Db.row?, hrows]
  exact ⟨hdev, fun id h => (hrow id).trans h, fun id row h => ⟨row, (hrow id).trans h, .refl row⟩⟩

theorem Admin.of_updateWhere {p : Row → Bool} {f : Row → Row} (hf : Db.Keeps f)
    (h : ∀ row ∈ db.rows, p row = true → Shifted row (f row)) :
    Admin db (db.updateWhere p f hf) where
  devices := rfl
  none_of id hid := by simp [Db.row?_updateWhere, hid]
  some_of id row hid := by
    refine ⟨if p row then f row else row, by simp [Db.row?_updateWhere, hid], ?_⟩
    split
    · next hp => exact h row (Db.row?_eq_some.mp hid).1 hp
    · exact .refl row

/-- A row that is there was there. -/
theorem Admin.back (ha : Admin db db') {id : Nat} {row' : Row} (h : db'.row? id = some row') :
    ∃ row, db.row? id = some row ∧ Shifted row row' := by
  cases hid : db.row? id with
  | none => simp [ha.none_of id hid] at h
  | some row =>
    obtain ⟨row'', hrow'', hs⟩ := ha.some_of id row hid
    rw [h, Option.some.injEq] at hrow''
    exact ⟨row, rfl, hrow'' ▸ hs⟩

/-- A claim was committed: its row is new, and so is the record of its device. -/
structure Added (id : Nat) (r : NewReservation) (device : Option (FixedBytes 32)) (db db' : Db) :
    Prop where
  fresh : db.row? id = none
  row : ∃ row, db'.row? id = some row ∧ row.intake = r ∧ row.attempt = 0 ∧ row.dotnsAttempt = 0 ∧
    row.status ∈ [Status.reserved, .queued] ∧
    row.dotnsStatus = if r.dotnsSignature.isSome then some .pending else none
  others : ∀ i, i ≠ id → db'.row? i = db.row? i
  devices : db'.devices = db.devices ++ (device.map fun hmac => ⟨hmac, .pending, some id⟩).toList
  unseen : ∀ hmac ∈ device, hmac ∉ db.devices.map Device.hmac

theorem insertWith_added {r : NewReservation} {status : Status} {group id : Nat}
    (hs : status ∈ [Status.reserved, .queued]) (h : db.insertWith r status group = .ok (id, db')) :
    Added id r none db db' ∧ db'.now = db.now ∧ db'.leases = db.leases := by
  unfold Db.insertWith at h
  split_ifs at h
  cases h
  have hfresh : db.row? db.nextId = none := by
    rw [Db.row?, List.find?_eq_none]
    intro row hrow
    have := db.ids_lt row hrow
    simp
    omega
  have hrow : ∀ i, ((db.rows ++ [db.newRow r status group]).find? fun row => row.id = i) =
      if i = db.nextId then some (db.newRow r status group) else db.row? i := by
    intro i
    rw [List.find?_append, List.find?_singleton]
    by_cases hi : i = db.nextId
    · subst hi
      rw [show (db.rows.find? fun row => row.id = db.nextId) = none from hfresh]
      simp [Db.newRow]
    · have hi' : db.nextId ≠ i := fun h => hi h.symm
      simp [Db.newRow, hi, hi', Db.row?]
  refine ⟨⟨hfresh, ⟨db.newRow r status group, ?_, rfl, rfl, rfl, hs, rfl⟩, fun i hi => ?_, ?_, ?_⟩,
    rfl, rfl⟩
  · exact (hrow db.nextId).trans (if_pos rfl)
  · exact (hrow i).trans (if_neg hi)
  · simp
  · simp

theorem commitClaim_added {r : NewReservation} {group : Option Nat}
    {device : Option (FixedBytes 32)} {id : Nat}
    (h : db.commitClaim r group device = some (id, db')) :
    Added id r device db db' ∧ db'.now = db.now ∧ db'.leases = db.leases := by
  have hinsert : ∀ {x : Nat × Db}, db.insertReservation r group = .ok x →
      Added x.1 r none db x.2 ∧ x.2.now = db.now ∧ x.2.leases = db.leases := by
    intro x hx
    unfold Db.insertReservation at hx
    split at hx
    · exact insertWith_added (by simp) hx
    · exact insertWith_added (by simp) hx
  unfold Db.commitClaim at h
  split at h
  · cases h
  · next i db₁ hi =>
    obtain ⟨hadd, hnow, hleases⟩ := hinsert hi
    split at h
    · cases h
      exact ⟨hadd, hnow, hleases⟩
    · next hmac =>
      split at h
      · next db₂ hdev =>
        cases h
        unfold Db.insertPending at hdev
        split at hdev
        · cases hdev
        · next hunseen =>
          cases hdev
          have hdevices : db₁.devices = db.devices := by simpa using hadd.devices
          rw [hdevices] at hunseen
          refine ⟨⟨hadd.fresh, hadd.row, hadd.others, ?_, ?_⟩, hnow, hleases⟩
          · simp [hdevices]
          · rintro _ ⟨⟩
            exact hunseen
      · cases h

theorem promote_admin (db : Db) (minGroup : Nat) : Admin db (db.promote minGroup).2 := by
  unfold Db.promote
  split
  · next row hrow =>
    obtain ⟨hmem, hqueued⟩ := Db.nextQueued_mem hrow
    refine Admin.of_updateWhere (Db.keeps_reserve db.now) fun r hr hid => ?_
    obtain rfl : r = row :=
      List.inj_on_of_nodup_map db.ids_nodup hr hmem (by simpa using hid)
    exact ⟨rfl, rfl, rfl, rfl, Or.inr ⟨hqueued, rfl⟩⟩
  · exact .of_eq rfl rfl

theorem refreshGroup_admin (db : Db) (accountId : String) (group : Nat) (hg : group ∈ [1, 2, 3, 4]) :
    Admin db (db.refreshGroup accountId group hg) := by
  unfold Db.refreshGroup
  exact Admin.of_updateWhere _ fun _ _ _ => ⟨rfl, rfl, rfl, rfl, Or.inl rfl⟩

theorem fallbackDrain_admin (db : Db) (grace : Nat) : Admin db (db.fallbackDrain grace).2 := by
  refine Admin.of_updateWhere (Db.keeps_reserve db.now) fun row _ hp => ?_
  simp only [Bool.and_eq_true, decide_eq_true_eq] at hp
  exact ⟨rfl, rfl, rfl, rfl, Or.inr ⟨hp.1, rfl⟩⟩

/-- All that the environment does to rows. -/
theorem FleetEvent.Does.cases {ev : FleetEvent} (h : ev.Does db db') :
    Admin db db' ∧ (∀ id r group device, ev ≠ .commitClaim id r group device) ∨
      ∃ id r group device, ev = .commitClaim id r group device ∧ Added id r device db db' := by
  cases ev with
  | commitClaim id r group device => exact .inr ⟨id, r, group, device, rfl, (commitClaim_added h).1⟩
  | promote minGroup => exact .inl ⟨h ▸ promote_admin db minGroup, nofun⟩
  | refreshGroup accountId group =>
    obtain ⟨hg, rfl⟩ := h
    exact .inl ⟨refreshGroup_admin db accountId group hg, nofun⟩
  | tick | acquire | renew => exact .inl ⟨h ▸ .of_eq rfl rfl, nofun⟩

/-- The statement updates a row under a guard. -/
def Stmt.writes : Stmt → Bool
  | .mark .. | .settle .. => true
  | _ => false

/-- Every other statement of a writer leaves all rows where they are, or promotes queued ones. -/
theorem Stmt.Does.admin {out : s.Out} (h : s.Does db out db') (hs : s.writes = false) :
    Admin db db' := by
  cases s with
  | tryAcquire name holderId ttl | renew g ttl => exact (Prod.mk.inj h).2 ▸ .of_eq rfl rfl
  | claim l limit | submitting l => exact h.1 ▸ .of_eq rfl rfl
  | mark l g r tx attempt | settle l g r w => cases hs
  | strandedQueued => exact h.2 ▸ .of_eq rfl rfl
  | fallbackDrain grace => exact (Prod.mk.inj h).2 ▸ fallbackDrain_admin db grace

/-- A statement was done or had no effect, whatever its writer was told. -/
theorem Ask.Does.done {reply : Reply s.Out} (h : Ask.Does db (.stmt s) reply db') :
    (∃ out, s.Does db out db') ∨ db' = db := by
  match reply, h with
  | .ok out, h | .lost out _, h => exact Or.inl ⟨out, h⟩
  | .refused _, h => exact Or.inr h

theorem Ask.Does.admin {reply : Reply s.Out} (h : Ask.Does db (.stmt s) reply db')
    (hs : s.writes = false) : Admin db db' := by
  rcases h.done with ⟨out, h⟩ | rfl
  · exact Stmt.Does.admin h hs
  · exact .of_eq rfl rfl

/-! ### What a step does to the leases -/

theorem Ask.Does.evolves {o : Ask} {a : o.Ans} (h : o.Does db a db') : LeasesEvolve db db' := by
  cases o with
  | stmt s =>
    rcases Ask.Does.done h with ⟨out, h⟩ | rfl
    · exact Stmt.Does.evolves h
    · exact .of_eq rfl rfl
  | _ => exact h ▸ .of_eq rfl rfl

theorem FleetEvent.Does.evolves {e : FleetEvent} (h : e.Does db db') : LeasesEvolve db db' := by
  cases e with
  | tick d => exact h ▸ tick_evolves db d
  | commitClaim id r group device =>
    obtain ⟨_, hnow, hleases⟩ := commitClaim_added h
    exact .of_eq hnow hleases
  | promote minGroup =>
    rw [show db' = (db.promote minGroup).2 from h]
    unfold Db.promote
    split <;> exact .of_eq rfl rfl
  | refreshGroup accountId group =>
    obtain ⟨hg, rfl⟩ := h
    exact .of_eq rfl rfl
  | acquire name holderId ttl => exact h ▸ tryAcquire_evolves db name holderId ttl
  | renew g ttl => exact h ▸ renew_evolves db g ttl

end DeviceUniqueness
