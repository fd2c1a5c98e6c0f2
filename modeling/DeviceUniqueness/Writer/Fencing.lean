import DeviceUniqueness.Writer.Fleet

/-! The fence around a row: who may move it, and where it may go.

    While a writer's guard is held, every row it has under way is where the writer read it: the row
    is live in the lane it was read for. The two halves of a row stay coupled: a dotNS half moves
    only under an assigned People half, and a People half that fails closes it. -/

namespace DeviceUniqueness

open Function Schemes

variable {l : Lane} {row row' : Row} {N : String}

/-! ### Rows -/

/-- The row can still be settled in the lane. -/
def Lane.live : Lane → Row → Bool
  | .people, row => row.status ∈ [Status.reserved, .retryAfter, .submitting]
  | .dotns, row =>
      row.status = .assigned &&
        row.dotnsStatus ∈ [some DotnsStatus.pending, some .retryAfter, some .submitting]

/-- A dotNS half that was tried has an assigned People half, a failed People half has no dotNS half
    that could still be tried, and the dotNS half is there exactly for a row signed for it. -/
structure Coupled (row : Row) : Prop where
  tried : row.dotnsStatus ∈ [some DotnsStatus.submitting, some .retryAfter, some .reserved,
    some .failedTerminal, some .expired] → row.status = .assigned
  failed : row.status = .failedTerminal → row.dotnsStatus ∈ [none, some .abandoned]
  abandoned : row.dotnsStatus = some .abandoned → row.status = .failedTerminal
  absent : row.dotnsStatus = none ↔ row.intake.dotnsSignature = none

/-- The People status a settling write leaves. -/
def Write.status : Write → Status
  | .landed => .assigned
  | .retry .. => .retryAfter
  | .failed _ | .expired _ => .failedTerminal

/-- The dotNS status a settling write leaves. -/
def Write.dotnsStatus : Write → DotnsStatus
  | .landed => .reserved
  | .retry .. => .retryAfter
  | .failed _ => .failedTerminal
  | .expired _ => .expired

theorem settleRow_people (now : Time) (w : Write) (row : Row) :
    (Db.settleRow .people now w row).status = w.status ∧
      (Db.settleRow .people now w row).intake = row.intake ∧
      (Db.settleRow .people now w row).dotnsStatus =
        if Db.closesDotns w.status row then some .abandoned else row.dotnsStatus := by
  cases w <;> exact ⟨rfl, rfl, rfl⟩

theorem settleRow_dotns (now : Time) (w : Write) (row : Row) :
    (Db.settleRow .dotns now w row).status = row.status ∧
      (Db.settleRow .dotns now w row).intake = row.intake ∧
      (Db.settleRow .dotns now w row).dotnsStatus = some w.dotnsStatus := by
  cases w <;> exact ⟨rfl, rfl, rfl⟩

/-- A row that is live in one lane is not in the other. -/
theorem Lane.live_unique {l l' : Lane} (h : l.live row = true) (h' : l'.live row = true) : l = l' := by
  cases l <;> cases l' <;> simp_all [Lane.live]

/-- A People half that is live has a dotNS half that is still pending, if any. -/
theorem Coupled.pending (h : Coupled row) (hl : Lane.people.live row = true) :
    row.dotnsStatus ∈ [none, some .pending] := by
  simp only [Lane.live, List.mem_cons, List.not_mem_nil, or_false, decide_eq_true_eq] at hl
  cases hd : row.dotnsStatus with
  | none => simp
  | some ds =>
    have htried := h.tried
    have habandoned := h.abandoned
    cases ds <;> simp_all

variable {now : Time} {tx : Tx} {attempt : Int} {ok : Bool}

theorem Coupled.mark (h : Coupled row) (hl : l.live row = true) :
    Coupled (Db.markRow l now tx attempt row) := by
  cases l with
  | people =>
    have hd := h.pending hl
    simp only [List.mem_cons, List.not_mem_nil, or_false] at hd
    refine ⟨fun ht => ?_, nofun, fun ha => ?_, h.absent⟩
    · rcases hd with hd | hd <;> simp [Db.markRow, Db.setSubmitting, hd] at ht
    · rcases hd with hd | hd <;> simp [Db.markRow, Db.setSubmitting, hd] at ha
  | dotns =>
    simp only [Lane.live, Bool.and_eq_true, decide_eq_true_eq] at hl
    have hnone : row.intake.dotnsSignature ≠ none := fun hn => by
      have := h.absent.mpr hn
      simp [this] at hl
    refine ⟨fun _ => hl.1, fun hs => ?_, fun ha => absurd ha (by simp [Db.markRow,
      Db.setDotnsSubmitting]), ⟨nofun, fun hn => absurd hn hnone⟩⟩
    rw [show (Db.markRow .dotns now tx attempt row).status = row.status from rfl, hl.1] at hs
    cases hs

theorem Coupled.settle {w : Write} (h : Coupled row) (hl : l.live row = true) :
    Coupled (Db.settleRow l now w row) := by
  cases l with
  | people =>
    obtain ⟨hstatus, hintake, hdotns⟩ := settleRow_people now w row
    have hd := h.pending hl
    have habsent := h.absent
    simp only [List.mem_cons, List.not_mem_nil, or_false] at hd
    rcases hd with hd | hd <;> cases w <;>
      simp only [Write.status, Db.closesDotns, hd] at hstatus hdotns <;>
      refine ⟨?_, ?_, ?_, ?_⟩ <;> simp_all
  | dotns =>
    obtain ⟨hstatus, hintake, hdotns⟩ := settleRow_dotns now w row
    simp only [Lane.live, Bool.and_eq_true, decide_eq_true_eq] at hl
    have hnone : row.intake.dotnsSignature ≠ none := fun hn => by
      have := h.absent.mpr hn
      simp [this] at hl
    refine ⟨?_, ?_, ?_, ?_⟩ <;> cases w <;> simp_all [Write.dotnsStatus]

theorem Coupled.shifted (h : Coupled row) (hs : Shifted row row') : Coupled row' := by
  obtain ⟨hintake, _, hdotns, _, hstatus⟩ := hs
  have htried := h.tried
  have habandoned := h.abandoned
  refine ⟨fun ht => ?_, fun hf => ?_, fun ha => ?_, by rw [hdotns, hintake]; exact h.absent⟩
  · rw [hdotns] at ht
    rcases hstatus with hstatus | ⟨hq, _⟩
    · exact hstatus.trans (h.tried ht)
    · rw [h.tried ht] at hq
      cases hq
  · rcases hstatus with hstatus | ⟨_, hr⟩
    · rw [hdotns]
      exact h.failed (hstatus.symm.trans hf)
    · rw [hr] at hf
      cases hf
  · rw [hdotns] at ha
    rcases hstatus with hstatus | ⟨hq, _⟩
    · exact hstatus.trans (h.abandoned ha)
    · rw [h.abandoned ha] at hq
      cases hq

theorem Lane.live_shifted (hs : Shifted row row') (h : l.live row = true) : l.live row' = true := by
  obtain ⟨_, _, hdotns, _, hstatus | ⟨hq, _⟩⟩ := hs
  · cases l <;> simpa [Lane.live, hdotns, hstatus] using h
  · cases l <;> simp [Lane.live, hq] at h

theorem Lane.live_mark (h : l.live row = true) :
    l.live (Db.markRow l now tx attempt row) = true := by
  cases l <;> simp_all [Lane.live, Db.markRow, Db.setSubmitting, Db.setDotnsSubmitting]

/-- Rows that are due are live. -/
theorem Lane.live_due {db : Db} (h : db.due l row = true) : l.live row = true := by
  cases l with
  | people =>
    simp only [Db.due, Bool.or_eq_true, Bool.and_eq_true, decide_eq_true_eq] at h
    rcases h with h | ⟨h, _⟩ <;> simp [Lane.live, h]
  | dotns =>
    simp only [Db.due, Bool.or_eq_true, Bool.and_eq_true, decide_eq_true_eq] at h
    obtain ⟨hs, h | ⟨h, _⟩⟩ := h <;> simp [Lane.live, hs, h]

/-- Rows that are in flight are live. -/
theorem Lane.live_inFlight (hc : Coupled row) (h : l.inFlight row = true) : l.live row = true := by
  cases l with
  | people =>
    simp only [Lane.inFlight, decide_eq_true_eq] at h
    simp [Lane.live, h]
  | dotns =>
    simp only [Lane.inFlight, decide_eq_true_eq] at h
    simp [Lane.live, h, hc.tried (by simp [h])]

/-! ### What a writer's operation does -/

variable {db db' : Db} {b b' : Book} {e : Ev Outside}

@[simp] theorem Book.logged_guard (since : Hist) : (b.logged since).guard = b.guard := rfl

@[simp] theorem Book.logged_lost (since : Hist) : (b.logged since).lost = b.lost := rfl

@[simp] theorem Book.logged_lanes (since : Hist) : (b.logged since).lanes = b.lanes := rfl

@[simp] theorem Book.onLane_guard (f : LaneBook → LaneBook) : (b.onLane l f).guard = b.guard := rfl

@[simp] theorem Book.onLane_lost (f : LaneBook → LaneBook) : (b.onLane l f).lost = b.lost := rfl

@[simp] theorem Book.onLane_self (f : LaneBook → LaneBook) :
    (b.onLane l f).lanes l = f (b.lanes l) := by
  simp [Book.onLane]

theorem Book.onLane_ne {l' : Lane} (h : l' ≠ l) (f : LaneBook → LaneBook) :
    (b.onLane l f).lanes l' = b.lanes l' :=
  update_of_ne h _ _

/-- The event is the statement, done with the outcome; its answer may have been lost. -/
def Came (s : Stmt) (out : s.Out) (e : Ev Outside) : Prop :=
  e = ⟨.stmt s, Reply.ok out⟩ ∨ ∃ err, e = ⟨.stmt s, Reply.lost out err⟩

/-- The event is a failure before a lone row was marked: its nonce, its signature or the mark. -/
def owes : Ev Outside → Bool
  | ⟨.accountNonce _ _ [_], (.error _ : Except String Nat)⟩ => true
  | ⟨.sign _ _ _ [_], (.error _ : Except String String)⟩ => true
  | ⟨.stmt (.mark _ _ r tx _), (.refused _ : Reply Bool)⟩ => tx.rows = [r]
  | _ => false

/-- Nothing was read, marked or settled in the books. -/
structure Untouched (e : Ev Outside) (b b' : Book) : Prop where
  guard : b'.guard = b.guard
  lost : b'.lost = b.lost
  todo : ∀ l, (b'.lanes l).todo = (b.lanes l).todo
  marked : ∀ l, (b'.lanes l).marked = (b.lanes l).marked
  owed : ∀ l, (b'.lanes l).owed = (b.lanes l).owed ∨ owes e = true
  asked : ∀ l, (b.lanes l).asked = true → (b'.lanes l).asked = true
  swept : ∀ l, (b'.lanes l).swept = (b.lanes l).swept
  failed : ∀ l, (b'.lanes l).failed = false → (b.lanes l).failed = false

/-- What an allowed operation does to the tables and to the writer's book. -/
inductive Did (N : String) (db : Db) (b : Book) (e : Ev Outside) (db' : Db) (b' : Book) : Prop
  | acquired (holderId : String) (ttl epoch : Nat)
      (done : db.tryAcquire N holderId ttl = (some epoch, db'))
      (book : b' = { Book.new with guard := some ⟨N, holderId, epoch⟩ })
  | dropped (admin : Admin db db') (evolves : LeasesEvolve db db') (book : b' = Book.new)
  | claimed (l : Lane) (limit : Nat) (rows : List Row) (ready : Ready l (b.lanes l))
      (reads : db.Selects (db.due l) (some limit) rows) (same : db' = db)
      (book : b' = (b.onLane l (Book.opened (rows.map rowToReservation))).logged (b.since ++ [e]))
  | swept (l : Lane) (rows : List Row) (reads : db.Selects l.inFlight none rows) (same : db' = db)
      (book : b' = (b.onLane l fun lb => { Book.opened (rows.map rowToReservation) lb with
        asked := true, swept := true }).logged (b.since ++ [e]))
  | marked (l : Lane) (g : Guard) (r : Reservation) (tx : Tx) (ok : Bool)
      (came : Came (.mark l g r tx (l.attempt r + 1)) ok e) (guard : b.guard = some g)
      (todo : r ∈ (b.lanes l).todo)
      (wrote : db.Wrote g r.id (Db.markRow l db.now tx (l.attempt r + 1)) (fun ds => ds) ok db')
      (book : b' = (if ok then b.onLane l (Book.markNoted r) else { b with lost := true }).logged
        (b.since ++ [e]))
  | settled (l : Lane) (g : Guard) (r : Reservation) (w : Write) (ok : Bool)
      (came : Came (.settle l g r w) ok e) (guard : b.guard = some g)
      (todo : r ∈ (b.lanes l).todo) (charge : ChargeOk b l r w)
      (wrote : db.Wrote g r.id (Db.settleRow l db.now w) (Db.settleDevices l r.id w) ok db')
      (book : b' = (if ok then b.onLane l (Book.settledNoted r) else b).logged (b.since ++ [e]))
  | quiet (admin : Admin db db') (evolves : LeasesEvolve db db') (book : Untouched e b b')

theorem Untouched.logged (since : Hist) : Untouched e b (b.logged since) :=
  ⟨rfl, rfl, fun _ => rfl, fun _ => rfl, fun _ => Or.inl rfl, fun _ h => h, fun _ => rfl,
    fun _ h => h⟩

theorem Untouched.onLane {f : LaneBook → LaneBook} {since : Hist}
    (htodo : (f (b.lanes l)).todo = (b.lanes l).todo)
    (hmarked : (f (b.lanes l)).marked = (b.lanes l).marked)
    (howed : (f (b.lanes l)).owed = (b.lanes l).owed ∨ owes e = true)
    (hasked : (b.lanes l).asked = true → (f (b.lanes l)).asked = true)
    (hswept : (f (b.lanes l)).swept = (b.lanes l).swept)
    (hfailed : (f (b.lanes l)).failed = false → (b.lanes l).failed = false) :
    Untouched e b ((b.onLane l f).logged since) := by
  refine ⟨rfl, rfl, ?_, ?_, ?_, ?_, ?_, ?_⟩ <;> intro l' <;> rcases eq_or_ne l' l with rfl | hne <;>
    simp_all [Book.onLane_ne]

theorem mark_does {g : Guard} {r : Reservation} (h : (ok, db') = db.mark l g r tx attempt) :
    db.Wrote g r.id (Db.markRow l db.now tx attempt) (fun ds => ds) ok db' := by
  obtain ⟨rfl, rfl⟩ := Prod.mk.inj h
  exact db.mark_wrote l g r tx attempt

theorem settle_does {g : Guard} {r : Reservation} {w : Write} (h : (ok, db') = db.settle l g r w) :
    db.Wrote g r.id (Db.settleRow l db.now w) (Db.settleDevices l r.id w) ok db' := by
  obtain ⟨rfl, rfl⟩ := Prod.mk.inj h
  exact db.settle_wrote l g r w

theorem did_stmt {s : Stmt} {reply : Reply s.Out} (hok : Allowed N b (.stmt s))
    (h : Ask.Does db (.stmt s) reply db') :
    Did N db b ⟨.stmt s, reply⟩ db' (b.next ⟨.stmt s, reply⟩) := by
  have hadmin : s.writes = false → Admin db db' := Ask.Does.admin h
  have hevolves : LeasesEvolve db db' := Ask.Does.evolves h
  cases s with
  | tryAcquire name holderId ttl =>
    obtain rfl : name = N := hok
    rcases reply with (_ | epoch) | ⟨out, err⟩ | err
    · exact .dropped (hadmin rfl) hevolves rfl
    · exact .acquired holderId ttl epoch h.symm rfl
    · exact .dropped (hadmin rfl) hevolves rfl
    · exact .dropped (hadmin rfl) hevolves rfl
  | claim l limit =>
    cases reply with
    | ok out =>
      obtain ⟨hdb, rows, hreads, rfl⟩ := h
      exact .claimed l limit rows hok.2 hreads hdb rfl
    | lost out err | refused err => exact .quiet (hadmin rfl) hevolves (.logged _)
  | submitting l =>
    cases reply with
    | ok out =>
      obtain ⟨hdb, rows, hreads, rfl⟩ := h
      exact .swept l rows hreads hdb rfl
    | lost out err | refused err =>
      exact .quiet (hadmin rfl) hevolves (.onLane rfl rfl (Or.inl rfl) (fun _ => rfl) rfl id)
  | mark l g r tx attempt =>
    obtain ⟨hg, hr, rfl⟩ := hok
    cases reply with
    | ok out =>
      exact .marked l g r tx out (Or.inl rfl) hg hr (mark_does h) (by cases out <;> rfl)
    | lost out err =>
      exact .marked l g r tx out (Or.inr ⟨err, rfl⟩) hg hr (mark_does h) (by cases out <;> rfl)
    | refused err =>
      refine .quiet (h ▸ .of_eq rfl rfl) hevolves ?_
      by_cases hlone : tx.rows = [r]
      · simp only [Book.next, Book.note, if_pos hlone]
        exact .onLane rfl rfl (Or.inr (by simpa [owes] using hlone)) id rfl id
      · simp only [Book.next, Book.note, if_neg hlone]
        exact .logged _
  | settle l g r w =>
    obtain ⟨hg, hr, hc⟩ := hok
    cases reply with
    | ok out =>
      exact .settled l g r w out (Or.inl rfl) hg hr hc (settle_does h) (by cases out <;> rfl)
    | lost out err =>
      exact .settled l g r w out (Or.inr ⟨err, rfl⟩) hg hr hc (settle_does h)
        (by cases out <;> rfl)
    | refused err => exact .quiet (h ▸ .of_eq rfl rfl) hevolves (.logged _)
  | _ => exact .quiet (hadmin rfl) hevolves (.logged _)

/-- All that an operation of a disciplined writer can do. -/
theorem did {o : Ask} {a : o.Ans} (hok : Allowed N b o) (h : o.Does db a db') :
    Did N db b ⟨o, a⟩ db' (b.next ⟨o, a⟩) := by
  cases o with
  | stmt s => exact did_stmt hok h
  | accountNonce l signer rows | sign l payload nonce rows =>
    refine .quiet (h ▸ .of_eq rfl rfl) (h ▸ .of_eq rfl rfl) ?_
    match rows, a with
    | [r], .error _ => exact .onLane rfl rfl (Or.inr rfl) id rfl id
    | [], _ | [_], .ok _ | _ :: _ :: _, _ => exact .logged _
  | startupReconcileFailed l err =>
    exact .quiet (h ▸ .of_eq rfl rfl) (h ▸ .of_eq rfl rfl)
      (.onLane rfl rfl (Or.inl rfl) id rfl nofun)
  | _ => exact .quiet (h ▸ .of_eq rfl rfl) (h ▸ .of_eq rfl rfl) (.logged _)

/-! ### The invariant -/

/-- Guards are for the one lease, and no two live writers have the same epoch. A row a writer has
    under way exists, and while the writer's guard is held it is still live in the lane it was read
    for; a guard under which a mark was turned down is not held. -/
structure Fenced (N : String) (db : Db) (bs : Nat → Option Book) : Prop where
  issued : ∀ {p b g}, bs p = some b → b.guard = some g →
    g.leaseName = N ∧ g.epoch ≤ Lease.reached (db.leases N)
  apart : ∀ {p q b c g h}, bs p = some b → bs q = some c → b.guard = some g → c.guard = some h →
    g.epoch = h.epoch → p = q
  lost : ∀ {p b g}, bs p = some b → b.guard = some g → b.lost = true → db.held g = false
  known : ∀ {p b g l r}, bs p = some b → b.guard = some g → r ∈ (b.lanes l).todo →
    ∃ row, db.row? r.id = some row ∧ (db.held g = true → l.live row = true)
  coupled : ∀ {id row}, db.row? id = some row → Coupled row

variable {bs : Nat → Option Book} {p q : Nat} {g : Guard}

theorem Fenced.empty (t : Time) : Fenced N (Db.empty t) fun _ => none where
  issued := nofun
  apart := nofun
  lost := nofun
  known := nofun
  coupled h := by simp [Db.row?, Db.empty] at h

/-- Whoever holds the lease is the one writer whose guard passes the check. -/
theorem Fenced.alone (h : Fenced N db bs) {c : Book} {g' : Guard} (hb : bs p = some b)
    (hc : bs q = some c) (hg : b.guard = some g) (hg' : c.guard = some g')
    (hheld : db.held g = true) (hheld' : db.held g' = true) : p = q := by
  refine h.apart hb hc hg hg' ?_
  rw [Db.held, (h.issued hb hg).1] at hheld
  rw [Db.held, (h.issued hc hg').1] at hheld'
  exact (Lease.holds_unique hheld hheld').2

/-- A guard that is held after the step was held before it. -/
theorem Fenced.held (h : Fenced N db bs) (he : LeasesEvolve db db') (hb : bs p = some b)
    (hg : b.guard = some g) (hheld : db'.held g = true) : db.held g = true :=
  he.held ((h.issued hb hg).1 ▸ (h.issued hb hg).2) hheld

/-- The database moves on by itself: rows stay, and stay live. -/
theorem Fenced.env (h : Fenced N db bs) (he : LeasesEvolve db db')
    (hrows : ∀ {id row}, db.row? id = some row →
      ∃ row', db'.row? id = some row' ∧ ∀ l : Lane, l.live row = true → l.live row' = true)
    (hcoupled : ∀ {id row}, db'.row? id = some row → Coupled row) : Fenced N db' bs where
  issued hb hg := ⟨(h.issued hb hg).1, (h.issued hb hg).2.trans (he.reached N)⟩
  apart := h.apart
  lost hb hg hl := by
    rw [← Bool.not_eq_true]
    intro hheld
    exact absurd (h.held he hb hg hheld) (by simp [h.lost hb hg hl])
  known hb hg hr := by
    obtain ⟨row, hrow, hlive⟩ := h.known hb hg hr
    obtain ⟨row', hrow', hstay⟩ := hrows hrow
    exact ⟨row', hrow', fun hheld => hstay _ (hlive (h.held he hb hg hheld))⟩
  coupled := hcoupled

theorem Fenced.admin (h : Fenced N db bs) (he : LeasesEvolve db db') (ha : Admin db db') :
    Fenced N db' bs := by
  refine h.env he (fun hrow => ?_) fun {id row'} hrow' => ?_
  · obtain ⟨row', hrow', hs⟩ := ha.some_of _ _ hrow
    exact ⟨row', hrow', fun _ => Lane.live_shifted hs⟩
  · obtain ⟨row, hrow, hs⟩ := ha.back hrow'
    exact (h.coupled hrow).shifted hs

theorem Fenced.added {id : Nat} {r : NewReservation} {device : Option (FixedBytes 32)}
    (h : Fenced N db bs) (he : LeasesEvolve db db') (ha : Added id r device db db') :
    Fenced N db' bs := by
  refine h.env he (fun {i row} hrow => ?_) fun {i row} hrow => ?_
  · have hi : i ≠ id := fun hi => by simp [hi, ha.fresh] at hrow
    exact ⟨row, (ha.others i hi).trans hrow, fun _ h => h⟩
  · by_cases hi : i = id
    · subst hi
      obtain ⟨new, hnew, hintake, _, _, hstatus, hdotns⟩ := ha.row
      obtain rfl : new = row := by simpa [hnew] using hrow
      have hopen : new.status ≠ .failedTerminal := by
        rcases List.mem_pair.mp hstatus with hs | hs <;> simp [hs]
      refine ⟨?_, ?_, ?_, ?_⟩ <;> cases hd : r.dotnsSignature <;> simp_all
    · exact h.coupled ((ha.others i hi).symm.trans hrow)

/-- One writer's book moves on: rows that come under way are live. -/
theorem Fenced.book (h : Fenced N db bs) (hb : bs p = some b) (hguard : b'.guard = b.guard)
    (hlost : b'.lost = true → b.lost = true ∨ ∀ g, b.guard = some g → db.held g = false)
    (htodo : ∀ l r, r ∈ (b'.lanes l).todo →
      r ∈ (b.lanes l).todo ∨ ∃ row, db.row? r.id = some row ∧ l.live row = true) :
    Fenced N db (update bs p (some b')) := by
  refine ⟨fun hc hg => ?_, fun hc hd hg hg' heq => ?_, fun {q c g} hc hg hl => ?_,
    fun {q c g l r} hc hg hr => ?_, h.coupled⟩
  · rcases of_update hc with ⟨rfl, ⟨⟩⟩ | ⟨_, hc⟩
    · exact h.issued hb (hguard ▸ hg)
    · exact h.issued hc hg
  · rcases of_update hc with ⟨rfl, ⟨⟩⟩ | ⟨_, hc₀⟩ <;> rcases of_update hd with ⟨rfl, ⟨⟩⟩ | ⟨_, hd₀⟩
    · rfl
    · exact h.apart hb hd₀ (hguard ▸ hg) hg' heq
    · exact h.apart hc₀ hb hg (hguard ▸ hg') heq
    · exact h.apart hc₀ hd₀ hg hg' heq
  · rcases of_update hc with ⟨rfl, ⟨⟩⟩ | ⟨_, hc⟩
    · rcases hlost hl with hl | hl
      · exact h.lost hb (hguard ▸ hg) hl
      · exact hl g (hguard ▸ hg)
    · exact h.lost hc hg hl
  · rcases of_update hc with ⟨rfl, ⟨⟩⟩ | ⟨_, hc⟩
    · rcases htodo l r hr with hr | ⟨row, hrow, hlive⟩
      · exact h.known hb (hguard ▸ hg) hr
      · exact ⟨row, hrow, fun _ => hlive⟩
    · exact h.known hc hg hr

/-- A guarded write: its writer alone holds the lease, so no other writer's rows are concerned. -/
theorem Fenced.wrote {f : Row → Row} {dev : List Device → List Device} {id : Nat}
    (h : Fenced N db bs) (hb : bs p = some b) (hg : b.guard = some g)
    (hw : db.Wrote g id f dev ok db') (hlive : ∀ row, db.row? id = some row → db.held g = true →
      l.live row = true) (hf : ∀ row, l.live row = true → Coupled row → Coupled (f row))
    (hstay : ∀ r ∈ (b.lanes l).todo, r.id = id → ∀ row, l.live row = true → l.live (f row) = true) :
    Fenced N db' bs := by
  cases hok : ok with
  | false => exact hw.refused hok ▸ h
  | true =>
    obtain ⟨hheld, hsome⟩ := hw.ok_iff.mp hok
    obtain ⟨old, hold⟩ := Option.isSome_iff_exists.mp hsome
    have hheld_eq : ∀ g, db'.held g = db.held g := fun g => by
      rw [Db.held, Db.held, hw.now_eq, hw.leases_eq]
    have hrow : ∀ i, db'.row? i = if i = id then (db.row? i).map f else db.row? i := by
      simpa [hok] using hw.row?_eq
    refine ⟨fun hc hg' => hw.leases_eq ▸ h.issued hc hg', h.apart,
      fun hc hg' hl => (hheld_eq _).trans (h.lost hc hg' hl), fun {q c g' l' r} hc hg' hr => ?_,
      fun {i row} hi => ?_⟩
    · obtain ⟨row, hr', hlive'⟩ := h.known hc hg' hr
      rw [hrow, hheld_eq]
      by_cases hid : r.id = id
      · rw [if_pos hid, hr', Option.map_some]
        refine ⟨f row, rfl, fun hheld' => ?_⟩
        -- both guards pass the check, so the writer is the same and so is the lane
        obtain rfl := h.alone hb hc hg hg' hheld hheld'
        obtain rfl : c = b := by simpa [hb] using hc.symm
        have hl := hlive row (hid ▸ hr') hheld
        obtain rfl := Lane.live_unique hl (hlive' hheld')
        exact hstay r hr hid row hl
      · exact ⟨row, by rw [if_neg hid]; exact hr', hlive'⟩
    · rw [hrow] at hi
      split at hi
      · next hid =>
        subst hid
        rw [hold, Option.map_some, Option.some.injEq] at hi
        exact hi ▸ hf old (hlive old hold hheld) (h.coupled hold)
      · exact h.coupled hi

/-- A writer starts over: nothing under way, and an epoch nobody else has. -/
theorem Fenced.fresh (h : Fenced N db bs) (hlost : b'.lost = false)
    (htodo : ∀ l, (b'.lanes l).todo = [])
    (hguard : ∀ g, b'.guard = some g → g.leaseName = N ∧ g.epoch ≤ Lease.reached (db.leases N) ∧
      ∀ q c g', bs q = some c → c.guard = some g' → g'.epoch ≠ g.epoch) :
    Fenced N db (update bs p (some b')) := by
  refine ⟨fun hc hg => ?_, fun hc hd hg hg' heq => ?_, fun hc hg hl => ?_, fun {q c g l r} hc hg hr => ?_,
    h.coupled⟩
  · rcases of_update hc with ⟨rfl, ⟨⟩⟩ | ⟨_, hc⟩
    · exact ⟨(hguard _ hg).1, (hguard _ hg).2.1⟩
    · exact h.issued hc hg
  · rcases of_update hc with ⟨rfl, ⟨⟩⟩ | ⟨_, hc₀⟩ <;> rcases of_update hd with ⟨rfl, ⟨⟩⟩ | ⟨_, hd₀⟩
    · rfl
    · exact absurd heq.symm ((hguard _ hg).2.2 _ _ _ hd₀ hg')
    · exact absurd heq ((hguard _ hg').2.2 _ _ _ hc₀ hg)
    · exact h.apart hc₀ hd₀ hg hg' heq
  · rcases of_update hc with ⟨rfl, ⟨⟩⟩ | ⟨_, hc⟩
    · simp [hlost] at hl
    · exact h.lost hc hg hl
  · rcases of_update hc with ⟨rfl, ⟨⟩⟩ | ⟨_, hc⟩
    · simp [htodo] at hr
    · exact h.known hc hg hr

theorem Fenced.restarted (h : Fenced N db bs) :
    Fenced N db (update bs p (some Book.new)) :=
  h.fresh rfl (fun _ => rfl) nofun

theorem Fenced.killed (h : Fenced N db bs) : Fenced N db (update bs p none) := by
  have hold : ∀ {q c}, update bs p none q = some c → bs q = some c :=
    fun hc => (of_update_none hc).2
  exact ⟨fun hc => h.issued (hold hc), fun hc hd => h.apart (hold hc) (hold hd),
    fun hc => h.lost (hold hc), fun hc => h.known (hold hc), h.coupled⟩

theorem Fenced.acquired {holderId : String} {ttl epoch : Nat} (h : Fenced N db bs)
    (hdone : db.tryAcquire N holderId ttl = (some epoch, db')) :
    Fenced N db'
      (update bs p (some { Book.new with guard := some ⟨N, holderId, epoch⟩ })) := by
  obtain ⟨hepoch, rfl⟩ := Prod.mk.inj hdone
  obtain ⟨habove, hreached⟩ := Lease.acquire_epoch hepoch
  have hdb := h.admin (tryAcquire_evolves db N holderId ttl) (.of_eq rfl rfl)
  refine hdb.fresh rfl (fun _ => rfl) ?_
  rintro _ ⟨⟩
  refine ⟨rfl, ?_, fun q c g' hc hg' => ?_⟩
  · simp [Db.tryAcquire, hreached]
  · have := (h.issued hc hg').2
    exact Nat.ne_of_lt (Nat.lt_of_le_of_lt this habove)

/-- The invariant is kept by every operation of a disciplined writer. -/
theorem Fenced.did (h : Fenced N db bs) (hb : bs p = some b) (hd : Did N db b e db' b') :
    Fenced N db' (update bs p (some b')) := by
  cases hd with
  | acquired holderId ttl epoch done book => exact book ▸ h.acquired done
  | dropped admin evolves book => exact book ▸ (h.admin evolves admin).restarted
  | claimed l limit rows ready reads same book =>
    subst same book
    refine h.book hb rfl (fun hl => Or.inl hl) fun l' r hr => ?_
    rcases eq_or_ne l' l with rfl | hne
    · obtain ⟨row, hrow, rfl⟩ := List.mem_map.mp (by simpa [Book.opened] using hr)
      exact Or.inr ⟨row, (reads.mem hrow).1, Lane.live_due (reads.mem hrow).2⟩
    · exact Or.inl (by simpa [Book.onLane_ne hne] using hr)
  | swept l rows reads same book =>
    subst same book
    refine h.book hb rfl (fun hl => Or.inl hl) fun l' r hr => ?_
    rcases eq_or_ne l' l with rfl | hne
    · obtain ⟨row, hrow, rfl⟩ := List.mem_map.mp (by simpa [Book.opened] using hr)
      obtain ⟨hfound, hflight⟩ := reads.mem hrow
      exact Or.inr ⟨row, hfound, Lane.live_inFlight (h.coupled hfound) hflight⟩
    · exact Or.inl (by simpa [Book.onLane_ne hne] using hr)
  | marked l g r tx ok came guard todo wrote book =>
    obtain ⟨row, hrow, hlive⟩ := h.known hb guard todo
    subst book
    cases ok with
    | false =>
      have hlost : db.held g = false := by simpa [hrow] using wrote.ok_iff
      rw [wrote.refused rfl]
      refine h.book hb rfl (fun _ => Or.inr fun g' hg' => ?_) fun l' r hr => Or.inl hr
      rwa [Option.some.inj (hg'.symm.trans guard)]
    | true =>
      have hbook : Fenced N db (update bs p
          (some ((b.onLane l (Book.markNoted r)).logged (b.since ++ [e])))) :=
        h.book hb rfl Or.inl fun l' r' hr => Or.inl (by
          rcases eq_or_ne l' l with rfl | hne
          · simpa [Book.markNoted] using hr
          · simpa [Book.onLane_ne hne] using hr)
      refine hbook.wrote (l := l) (update_self ..) guard wrote
        (fun row' hrow' hheld => ?_) (fun _ hl hc => hc.mark hl) fun _ _ _ _ => Lane.live_mark
      rw [Option.some.inj (hrow'.symm.trans hrow)]
      exact hlive hheld
  | settled l g r w ok came guard todo charge wrote book =>
    obtain ⟨row, hrow, hlive⟩ := h.known hb guard todo
    subst book
    cases ok with
    | false =>
      rw [wrote.refused rfl]
      exact h.book hb rfl Or.inl fun l' r hr => Or.inl hr
    | true =>
      have hbook : Fenced N db (update bs p
          (some ((b.onLane l (Book.settledNoted r)).logged (b.since ++ [e])))) :=
        h.book hb rfl Or.inl fun l' r' hr => Or.inl (by
          rcases eq_or_ne l' l with rfl | hne
          · simp only [Book.logged_lanes, Book.onLane_self, Book.settledNoted] at hr
            exact List.mem_of_mem_filter hr
          · simpa [Book.onLane_ne hne] using hr)
      refine hbook.wrote (l := l) (update_self ..) guard wrote
        (fun row' hrow' hheld => ?_) (fun _ hl hc => hc.settle hl) fun r' hr' hid => ?_
      · rw [Option.some.inj (hrow'.symm.trans hrow)]
        exact hlive hheld
      · -- the settled row is no longer under way
        simp [Book.settledNoted, hid] at hr'
  | quiet admin evolves book =>
    exact (h.admin evolves admin).book hb book.guard (fun hl => Or.inl (book.lost ▸ hl))
      fun l r hr => Or.inl (book.todo l ▸ hr)

theorem Fenced.does {ev : FleetEvent} (h : Fenced N db bs) (hd : ev.Does db db') :
    Fenced N db' bs := by
  have he := FleetEvent.Does.evolves hd
  obtain ⟨ha, -⟩ | ⟨id, r, group, device, -, ha⟩ := FleetEvent.Does.cases hd
  · exact h.admin he ha
  · exact h.added he ha

/-! ### Whole runs -/

variable {t₀ : Time}

theorem does_sound {o : Ask} {a : o.Ans} (h : o.Does db a db') : Sound o a := by
  unfold Sound
  split
  · obtain ⟨_, rows, hreads, rfl⟩ := h
    simpa [comp_def] using hreads.nodup
  · obtain ⟨_, rows, hreads, rfl⟩ := h
    simpa [comp_def] using hreads.nodup
  · trivial

/-- Every writer that can be started keeps the discipline, and reads return no row twice. -/
theorem fleet_bound : Bound (Fleet N) (Db.empty t₀) (discipline N) Book.new where
  boot := by
    rintro p prog ⟨config, fuel, rfl, rfl⟩
    exact Writer.run_allowed config fuel
  adm _ _ _ _ _ _ _ hdone := does_sound hdone

theorem reachable_fenced {ls : List FleetLabel}
    {s : FleetSys}
    (r : Reachable (Fleet N) (Db.empty t₀) ls s) :
    Fenced N s.st (s.watch (discipline N) Book.new) :=
  Reachable.inv fleet_bound (fun _ db bs => Fenced N db bs) (Fenced.empty t₀)
    { op _ _ _ _ _ _ _ _ h hb hok hdone := h.did hb (did hok hdone)
      env _ _ _ _ _ h hdone := h.does hdone
      start _ _ _ _ h _ := h.restarted
      kill _ _ _ _ _ h hdone := hdone ▸ h.killed } r

end DeviceUniqueness
