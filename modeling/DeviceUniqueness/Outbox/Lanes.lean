import DeviceUniqueness.Outbox.Statements

/-! The two lanes of the outbox: the People registration and the dotNS reservation.

    Each lane reads the rows that are due (`claim`) or in flight (`submitting`), marks a row as it
    submits it, and settles it with what became of it. `Stmt` is the list of statements a writer
    runs, `Stmt.Does` what each of them does to the tables. Where the source's query leaves the
    order of equal timestamps open, `Stmt.Does` leaves it open too; `Stmt.run` is one admissible
    reading that can be evaluated.

    All later reasoning about a write goes through `Db.Wrote`: it went through exactly when the
    lease was held and the row exists, and then it changed that one row and nothing else but the
    device records of that row. -/

namespace DeviceUniqueness

open Schemes

inductive Lane where
  | people
  | dotns
  deriving DecidableEq, Repr

/-- The lane's attempt counter, in the row as the writer read it. -/
def Lane.attempt : Lane → Reservation → Int
  | .people, r => r.attempt
  | .dotns, r => r.dotnsAttempt

/-- The lane's attempt counter, in the table. -/
def Lane.attemptOf : Lane → Row → Int
  | .people, row => row.attempt
  | .dotns, row => row.dotnsAttempt

/-- The row is `SUBMITTING` in the lane. -/
def Lane.inFlight : Lane → Row → Bool
  | .people, row => row.status = .submitting
  | .dotns, row => row.dotnsStatus = some .submitting

@[simp] theorem Lane.attempt_rowToReservation (l : Lane) (row : Row) :
    l.attempt (rowToReservation row) = l.attemptOf row := by
  cases l <;> rfl

/-- A signed extrinsic: what the outbox keeps of it, and the rows whose calls it carries. -/
structure Tx where
  hash : String
  nonce : Nat
  rows : List Reservation
  deriving DecidableEq

/-- What a lane writes when it settles a row. -/
inductive Write where
  | landed
  | retry (notBefore : Time) (attempt : Int) (err : String)
  | failed (err : String)
  | expired (err : String)
  deriving DecidableEq

namespace Db

variable (db : Db)

/-! ### Reading -/

/-- The claim scan's condition. -/
def due : Lane → Row → Bool
  | .people, row =>
      row.status = .reserved || (row.status = .retryAfter && row.notBefore.all (· ≤ db.now))
  | .dotns, row =>
      row.status = .assigned &&
        (row.dotnsStatus = some .pending ||
          (row.dotnsStatus = some .retryAfter && row.dotnsNotBefore.all (· ≤ db.now)))

/-- `SELECT … WHERE p ORDER BY created_at LIMIT limit`: rows of equal age in any order. -/
structure Selects (p : Row → Bool) (limit : Option Nat) (rows : List Row) : Prop where
  sub : rows.Subperm (db.rows.filter p)
  sorted : rows.Pairwise fun a b => a.createdAt ≤ b.createdAt
  length : rows.length = (limit.map fun n => min n (db.affected p)).getD (db.affected p)
  oldest : ∀ row ∈ db.rows.filter p, row ∉ rows → ∀ r ∈ rows, r.createdAt ≤ row.createdAt

/-- Rows of equal age in the order they were inserted. -/
def select (p : Row → Bool) (limit : Option Nat) : List Row :=
  let sorted := (db.rows.filter p).insertionSort fun a b => a.createdAt ≤ b.createdAt
  sorted.take (limit.getD sorted.length)

theorem selects_select (p : Row → Bool) (limit : Option Nat) :
    db.Selects p limit (db.select p limit) := by
  have hperm := List.perm_insertionSort (fun a b : Row => a.createdAt ≤ b.createdAt)
    (db.rows.filter p)
  have hsorted : (List.insertionSort (fun a b : Row => a.createdAt ≤ b.createdAt)
      (db.rows.filter p)).Pairwise fun a b => a.createdAt ≤ b.createdAt := by
    have : Std.Total fun a b : Row => a.createdAt ≤ b.createdAt :=
      ⟨fun a b => Int.le_total a.createdAt b.createdAt⟩
    have : IsTrans Row fun a b => a.createdAt ≤ b.createdAt := ⟨fun _ _ _ => Int.le_trans⟩
    exact List.pairwise_insertionSort _ _
  refine ⟨(List.take_sublist _ _).subperm.trans hperm.subperm,
    hsorted.sublist (List.take_sublist _ _), ?_, ?_⟩
  · have hlen := hperm.length_eq
    cases limit <;> simp [select, affected, List.countP_eq_length_filter, hlen]
  · intro row hrow hnot r hr
    have hmem := hperm.mem_iff.mpr hrow
    rw [← List.take_append_drop (limit.getD _) (List.insertionSort _ _)] at hmem hsorted
    rcases List.mem_append.mp hmem with h | h
    · exact absurd h hnot
    · exact (List.pairwise_append.mp hsorted).2.2 r hr row h

variable {p : Row → Bool} {rows : List Row}

theorem Selects.mem {db : Db} {limit : Option Nat} (h : db.Selects p limit rows) {row : Row}
    (hrow : row ∈ rows) : db.row? row.id = some row ∧ p row = true := by
  obtain ⟨hmem, hp⟩ := List.mem_filter.mp (h.sub.subset hrow)
  exact ⟨row?_eq_some.mpr ⟨hmem, rfl⟩, hp⟩

theorem Selects.nodup {db : Db} {limit : Option Nat} (h : db.Selects p limit rows) :
    (rows.map Row.id).Nodup := by
  obtain ⟨l, hperm, hsub⟩ := h.sub
  exact (hperm.map _).nodup_iff.mp (db.ids_nodup.sublist ((hsub.trans List.filter_sublist).map _))

/-- Without a limit, every row that meets the condition is read. -/
theorem Selects.all {db : Db} (h : db.Selects p none rows) {row : Row} {id : Nat}
    (hrow : db.row? id = some row) (hp : p row = true) : row ∈ rows := by
  have hlen : (db.rows.filter p).length ≤ rows.length := by
    simp [h.length, affected, List.countP_eq_length_filter]
  exact (h.sub.perm_of_length_le hlen).mem_iff.mpr
    (List.mem_filter.mpr ⟨(row?_eq_some.mp hrow).1, hp⟩)

/-! ### Writing -/

/-- Mark a row `SUBMITTING` as it is about to be submitted. -/
def mark (l : Lane) (g : Guard) (r : Reservation) (tx : Tx) (attempt : Int) : Bool × Db :=
  match l with
  | .people => db.markSubmitting g r.id tx.hash tx.nonce attempt
  | .dotns => db.markDotnsSubmitting g r.id tx.hash attempt

/-- A transaction that fences the lease, writes the row under the guard and then does `after`; a
    fence or a write that does not go through rolls it back. -/
def fenced (g : Guard) (marked : Bool × Db) (after : Db → Db) : Bool × Db :=
  if db.held g then if marked.1 then (true, after marked.2) else (false, db) else (false, db)

/-- The transaction that records a People row as landed. -/
def landPeople (g : Guard) (id : Nat) : Bool × Db :=
  db.fenced g (db.markAssigned g id) fun db => db.consumeForReservation id

/-- The transaction that records a People row as failed. -/
def failPeople (g : Guard) (id : Nat) (err : String) : Bool × Db :=
  db.fenced g (db.markFailed g id err) fun db => (db.releaseForReservation id).2

/-- Record what became of a row. -/
def settle (l : Lane) (g : Guard) (r : Reservation) (w : Write) : Bool × Db :=
  match l, w with
  | .people, .landed => db.landPeople g r.id
  | .people, .retry notBefore attempt err => db.markRetry g r.id notBefore attempt err
  | .people, .failed err | .people, .expired err => db.failPeople g r.id err
  | .dotns, .landed => db.markDotnsReserved g r.id
  | .dotns, .retry notBefore attempt err => db.markDotnsRetry g r.id notBefore attempt err
  | .dotns, .failed err => db.markDotnsFailed g r.id err
  | .dotns, .expired err => db.markDotnsExpired g r.id err

/-- What marking does to the row. -/
def markRow (l : Lane) (now : Time) (tx : Tx) (attempt : Int) : Row → Row :=
  match l with
  | .people => setSubmitting now tx.hash tx.nonce attempt
  | .dotns => setDotnsSubmitting now tx.hash attempt

/-- What settling does to the row. -/
def settleRow (l : Lane) (now : Time) (w : Write) : Row → Row :=
  match l, w with
  | .people, .landed => setStatus now .assigned none none
  | .people, .retry notBefore attempt err =>
      setStatus now .retryAfter (some (notBefore, attempt)) (some err)
  | .people, .failed err | .people, .expired err => setStatus now .failedTerminal none (some err)
  | .dotns, .landed => setDotnsStatus now .reserved none none
  | .dotns, .retry notBefore attempt err =>
      setDotnsStatus now .retryAfter (some (notBefore, attempt)) (some err)
  | .dotns, .failed err => setDotnsStatus now .failedTerminal none (some err)
  | .dotns, .expired err => setDotnsStatus now .expired none (some err)

/-- What settling does to the device records. -/
def settleDevices (l : Lane) (id : Nat) (w : Write) (ds : List Device) : List Device :=
  match l, w with
  | .people, .landed => ds.map fun d => if pendingFor id d then consume d else d
  | .people, .failed _ | .people, .expired _ => ds.filter fun d => !pendingFor id d
  | _, _ => ds

/-- A guarded write by `g` to the row `id`, and whether it went through. -/
structure Wrote (g : Guard) (id : Nat) (f : Row → Row) (dev : List Device → List Device)
    (ok : Bool) (db' : Db) : Prop where
  ok_iff : ok = true ↔ db.held g = true ∧ (db.row? id).isSome
  refused : ok = false → db' = db
  row?_eq : ∀ i, db'.row? i = if ok ∧ i = id then (db.row? i).map f else db.row? i
  devices_eq : db'.devices = if ok then dev db.devices else db.devices
  now_eq : db'.now = db.now
  leases_eq : db'.leases = db.leases

theorem affected_id (id : Nat) (c : Bool) :
    db.affected (fun row => row.id = id && c) = if c ∧ (db.row? id).isSome then 1 else 0 := by
  cases c with
  | false => simp [affected]
  | true =>
    have hcount : db.affected (fun row => row.id = id && true) = (db.rows.map Row.id).count id := by
      simp [affected, List.count, List.countP_map, Function.comp_def, beq_eq_decide]
    have hsome : (db.row? id).isSome ↔ id ∈ db.rows.map Row.id := by
      simp [row?, List.find?_isSome]
    rw [hcount]
    by_cases h : id ∈ db.rows.map Row.id
    · rw [List.count_eq_one_of_mem db.ids_nodup h, if_pos ⟨rfl, hsome.mpr h⟩]
    · rw [List.count_eq_zero_of_not_mem h, if_neg (fun hc => h (hsome.mp hc.2))]

theorem guarded_wrote (g : Guard) (id : Nat) (f : Row → Row) (hf : Keeps f) :
    db.Wrote g id f (fun ds => ds) (db.guarded g id f hf).1 (db.guarded g id f hf).2 := by
  have hok : (db.guarded g id f hf).1 = true ↔ db.held g = true ∧ (db.row? id).isSome := by
    simp only [guarded, affected_id, beq_iff_eq]
    split <;> simp_all
  refine ⟨hok, ?_, ?_, by simp [guarded, updateWhere, mapRows], rfl, rfl⟩
  · intro hno
    have hmiss : ∀ row ∈ db.rows, ¬(row.id = id ∧ db.held g = true) := by
      rintro row hrow ⟨rfl, hheld⟩
      have := hok.mpr ⟨hheld, by simp [row?_eq_some.mpr ⟨hrow, rfl⟩]⟩
      rw [hno] at this
      cases this
    have hrows : (db.guarded g id f hf).2.rows = db.rows := by
      simp only [guarded, updateWhere, mapRows]
      refine (List.map_congr_left fun row hrow => ?_).trans (List.map_id _)
      simp [hmiss row hrow]
    exact Db.ext rfl rfl hrows rfl rfl
  · intro i
    have hrow : (db.guarded g id f hf).2.row? i =
        (db.row? i).map fun row => if (row.id = id && db.held g) then f row else row :=
      db.row?_updateWhere hf
    rw [hrow]
    cases hi : db.row? i with
    | none => simp
    | some row =>
      have hid := row?_id hi
      subst hid
      by_cases heq : row.id = id
      · subst heq
        cases hh : db.held g <;> simp_all
      · simp [heq]

theorem mark_wrote (l : Lane) (g : Guard) (r : Reservation) (tx : Tx) (attempt : Int) :
    db.Wrote g r.id (markRow l db.now tx attempt) (fun ds => ds) (db.mark l g r tx attempt).1
      (db.mark l g r tx attempt).2 := by
  cases l <;> exact db.guarded_wrote ..

theorem Wrote.fenced {db : Db} {g : Guard} {id : Nat} {f : Row → Row} {marked : Bool × Db}
    (h : db.Wrote g id f (fun ds => ds) marked.1 marked.2) {after : Db → Db}
    {dev : List Device → List Device} (hrows : ∀ d, (after d).rows = d.rows)
    (hdev : ∀ d, (after d).devices = dev d.devices) (hnow : ∀ d, (after d).now = d.now)
    (hleases : ∀ d, (after d).leases = d.leases) :
    db.Wrote g id f dev (db.fenced g marked after).1 (db.fenced g marked after).2 := by
  cases hm : marked.1 with
  | false =>
    have hok := h.ok_iff
    simp only [hm, Bool.false_eq_true, false_iff] at hok
    simp only [Db.fenced, hm, Bool.false_eq_true, if_false, ite_self]
    exact ⟨by simpa using hok, fun _ => rfl, by simp, by simp, rfl, rfl⟩
  | true =>
    obtain ⟨hheld, hsome⟩ := h.ok_iff.mp hm
    have hds := h.devices_eq
    simp only [hm, if_true] at hds
    simp only [Db.fenced, hheld, hm, if_true]
    refine ⟨by simp [hheld, hsome], by simp, fun i => ?_, by simp [hdev, hds],
      (hnow _).trans h.now_eq, (hleases _).trans h.leases_eq⟩
    have hrow : (after marked.2).row? i = marked.2.row? i := by simp [row?, hrows]
    rw [hrow, h.row?_eq i, hm]

theorem settle_wrote (l : Lane) (g : Guard) (r : Reservation) (w : Write) :
    db.Wrote g r.id (settleRow l db.now w) (settleDevices l r.id w) (db.settle l g r w).1
      (db.settle l g r w).2 := by
  cases l <;> cases w
  case people.landed =>
    exact (db.guarded_wrote g r.id _ (keeps_setStatus ..)).fenced
      (fun _ => rfl) (fun _ => rfl) (fun _ => rfl) (fun _ => rfl)
  case people.failed =>
    exact (db.guarded_wrote g r.id _ (keeps_setStatus ..)).fenced
      (fun _ => rfl) (fun _ => rfl) (fun _ => rfl) (fun _ => rfl)
  case people.expired =>
    exact (db.guarded_wrote g r.id _ (keeps_setStatus ..)).fenced
      (fun _ => rfl) (fun _ => rfl) (fun _ => rfl) (fun _ => rfl)
  all_goals exact db.guarded_wrote ..

end Db

/-! ### The statements of a writer -/

/-- `mark` and `settle` bind the id of the row they are given; they carry the whole row, and `mark`
    the whole transaction, so that a run shows what they were issued for. -/
inductive Stmt where
  | tryAcquire (name holderId : String) (ttl : Nat)
  | renew (g : Guard) (ttl : Nat)
  | claim (l : Lane) (limit : Nat)
  | submitting (l : Lane)
  | mark (l : Lane) (g : Guard) (r : Reservation) (tx : Tx) (attempt : Int)
  | settle (l : Lane) (g : Guard) (r : Reservation) (w : Write)
  | strandedQueued
  | fallbackDrain (grace : Nat)

namespace Stmt

@[reducible] def Out : Stmt → Type
  | .tryAcquire .. => Option Nat
  | .renew .. | .mark .. | .settle .. => Bool
  | .claim .. | .submitting .. => List Reservation
  | .strandedQueued | .fallbackDrain .. => Nat

def Does (db : Db) : (s : Stmt) → s.Out → Db → Prop
  | .tryAcquire name holderId ttl, out, db' => (out, db') = db.tryAcquire name holderId ttl
  | .renew g ttl, out, db' => (out, db') = db.renew g ttl
  | .claim l limit, out, db' => db' = db ∧
      ∃ rows, db.Selects (db.due l) (some limit) rows ∧ out = rows.map rowToReservation
  | .submitting l, out, db' => db' = db ∧
      ∃ rows, db.Selects l.inFlight none rows ∧ out = rows.map rowToReservation
  | .mark l g r tx attempt, out, db' => (out, db') = db.mark l g r tx attempt
  | .settle l g r w, out, db' => (out, db') = db.settle l g r w
  | .strandedQueued, out, db' => out = db.strandedQueued ∧ db' = db
  | .fallbackDrain grace, out, db' => (out, db') = db.fallbackDrain grace

def run (db : Db) : (s : Stmt) → s.Out × Db
  | .tryAcquire name holderId ttl => db.tryAcquire name holderId ttl
  | .renew g ttl => db.renew g ttl
  | .claim l limit => ((db.select (db.due l) (some limit)).map rowToReservation, db)
  | .submitting l => ((db.select l.inFlight none).map rowToReservation, db)
  | .mark l g r tx attempt => db.mark l g r tx attempt
  | .settle l g r w => db.settle l g r w
  | .strandedQueued => (db.strandedQueued, db)
  | .fallbackDrain grace => db.fallbackDrain grace

theorem run_does (db : Db) (s : Stmt) : s.Does db (s.run db).1 (s.run db).2 := by
  cases s with
  | claim l limit | submitting l => exact ⟨rfl, _, db.selects_select _ _, rfl⟩
  | strandedQueued => exact ⟨rfl, rfl⟩
  | _ => rfl

end Stmt

end DeviceUniqueness
