import DeviceUniqueness.Writer.Statuses
import DeviceUniqueness.Writer.Turns

/-! The attempt counters, over every run of a fleet and in every turn of a lane.

    A lane's counter is written when a row is marked and when it is settled with a retry, each time
    from the copy the writer read. It stays below the number of marks as long as every charge is
    earned by a mark. Four events break that: a lone row's nonce, signature or mark that fails is
    charged to the row, and the startup reconcile charges a row once more for the mark of a previous
    writer. -/

namespace DeviceUniqueness

open Function Schemes

variable {N : String} {t₀ : Time} {db db' : Db} {l : Lane} {row row' : Row} {b b' : Book}
  {bs : Nat → Option Book} {p : Nat} {e : Ev Outside} {r : Reservation}
  {ls : List FleetLabel} {s : FleetSys}

/-! ### Marks and charges in a run -/

/-- The row was marked in the lane, whether or not the writer was told. -/
def marksRow (l : Lane) (id : Nat) : FleetLabel → Bool
  | .op _ ⟨.stmt (.mark l' _ r _ _), (reply : Reply Bool)⟩ =>
      match reply with
      | .ok true | .lost true _ => l' = l && r.id = id
      | _ => false
  | _ => false

/-- How often the row was marked in the lane. -/
def marks (l : Lane) (id : Nat) (ls : List FleetLabel) : Nat :=
  ls.countP (marksRow l id)

/-- The startup reconcile puts a row back and charges it. -/
def recharges : Ev Outside → Bool
  | ⟨.stmt (.settle l _ _ (.retry _ _ err)), _⟩ => err = l.reconciled
  | _ => false

/-- The event makes for a charge no mark stands behind. -/
def unearned (e : Ev Outside) : Bool := owes e || recharges e

/-- In a startup reconcile that write is one for a row whose name the last owner read, which succeeded,
    does not give to the candidate. -/
theorem recharges_iff {cx : Cx} {d : Drain l} {t t₁ t₂ : Hist} {l' : Lane} {g : Guard} {w : Write}
    {a : Reply Bool} {res : Option (Except WriterError Unit × Drain l)}
    (ht : Prog.Trace (Drain.reconcileSubmitting cx d) t res)
    (hsplit : t = t₁ ++ ⟨.stmt (.settle l' g r w), a⟩ :: t₂) :
    recharges ⟨.stmt (.settle l' g r w), a⟩ = true ↔ ∃ candidate owners,
      cx.ext.accountFromStr r.candidateAccountId = some candidate ∧ lastRead t₁ = some owners ∧
        owners.lookup r.fullUsername ≠ some candidate := by
  obtain ⟨now, o, hw, reason⟩ := reconcile_reason ht hsplit
  cases reason with
  | @unparsed gate _ refused =>
    obtain ⟨hunparsed, rfl⟩ : cx.ext.accountFromStr r.candidateAccountId = none ∧
        gate = .failed "invalid candidate SS58" := by
      unfold parseCandidate at refused
      split at refused
      · cases refused
      · next hnone => exact ⟨hnone, (Except.error.inj refused).symm⟩
    subst hw
    simp [recharges, Gate.outcome, writeOf, hunparsed]
  | @read candidate names owners _ parsed named read last =>
    split at hw <;> subst hw
    · next found => simp [recharges, writeOf, parsed, last, found]
    · next found => simp [recharges, writeOf, parsed, last, found]

theorem marks_concat (x : FleetLabel) (id : Nat) :
    marks l id (ls ++ [x]) = marks l id ls + if marksRow l id x then 1 else 0 := by
  simp [marks, List.countP_append, List.countP_singleton]

theorem marks_le (x : FleetLabel) (id : Nat) :
    marks l id ls ≤ marks l id (ls ++ [x]) := by
  rw [marks_concat]
  exact Nat.le_add_right ..

/-- Every counter and every copy of one is covered by marks, a copy of a marked row with one to
    spare, and nobody owes a mark. -/
structure Counted (ls : List FleetLabel) (db : Db) (bs : Nat → Option Book) :
    Prop where
  table : ∀ {l id row}, db.row? id = some row → Lane.attemptOf l row ≤ marks l id ls
  todo : ∀ {p b l r}, bs p = some b → r ∈ (b.lanes l).todo → l.attempt r ≤ marks l r.id ls
  marked : ∀ {p b l r}, bs p = some b → r ∈ (b.lanes l).todo → r.id ∈ (b.lanes l).marked →
    l.attempt r + 1 ≤ marks l r.id ls
  owed : ∀ {p b l}, bs p = some b → (b.lanes l).owed = []

theorem Counted.mono (h : Counted ls db bs) (x : FleetLabel) :
    Counted (ls ++ [x]) db bs where
  table hrow := (h.table hrow).trans (Int.ofNat_le.mpr (marks_le x _))
  todo hb hr := (h.todo hb hr).trans (Int.ofNat_le.mpr (marks_le x _))
  marked hb hr hm := (h.marked hb hr hm).trans (Int.ofNat_le.mpr (marks_le x _))
  owed := h.owed

theorem Counted.tables (h : Counted ls db bs)
    (htable : ∀ {l id row}, db'.row? id = some row → Lane.attemptOf l row ≤ marks l id ls) :
    Counted ls db' bs :=
  ⟨htable, h.todo, h.marked, h.owed⟩

/-- One writer's book changes: its rows and marks have to be covered. -/
theorem Counted.book (h : Counted ls db bs)
    (htodo : ∀ l r, r ∈ (b'.lanes l).todo → l.attempt r ≤ marks l r.id ls)
    (hmarked : ∀ l r, r ∈ (b'.lanes l).todo → r.id ∈ (b'.lanes l).marked →
      l.attempt r + 1 ≤ marks l r.id ls)
    (howed : ∀ l, (b'.lanes l).owed = []) : Counted ls db (update bs p (some b')) where
  table := h.table
  todo hc hr := by
    rcases of_update hc with ⟨rfl, ⟨⟩⟩ | ⟨_, hc⟩
    · exact htodo _ _ hr
    · exact h.todo hc hr
  marked hc hr hm := by
    rcases of_update hc with ⟨rfl, ⟨⟩⟩ | ⟨_, hc⟩
    · exact hmarked _ _ hr hm
    · exact h.marked hc hr hm
  owed {q c l} hc := by
    rcases of_update hc with ⟨rfl, ⟨⟩⟩ | ⟨_, hc⟩
    · exact howed l
    · exact h.owed hc

theorem Counted.fresh (h : Counted ls db bs) (hnew : b'.lanes = fun _ => LaneBook.new) :
    Counted ls db (update bs p (some b')) := by
  refine h.book (fun l r hr => ?_) (fun l r hr _ => ?_) fun l => ?_
  · simp [hnew, LaneBook.new] at hr
  · simp [hnew, LaneBook.new] at hr
  · rw [hnew]
    rfl

theorem Counted.killed (h : Counted ls db bs) : Counted ls db (update bs p none) := by
  have hold : ∀ {q c}, update bs p none q = some c → bs q = some c :=
    fun hc => (of_update_none hc).2
  exact ⟨h.table, fun hc => h.todo (hold hc), fun hc => h.marked (hold hc), fun hc => h.owed (hold hc)⟩

theorem attemptOf_shifted (hs : Shifted row row') : l.attemptOf row' = l.attemptOf row := by
  cases l
  · exact hs.attempt
  · exact hs.dotnsAttempt

theorem Counted.admin (h : Counted ls db bs) (ha : Admin db db') : Counted ls db' bs := by
  refine h.tables fun {l id row'} hrow' => ?_
  obtain ⟨row, hrow, hs⟩ := ha.back hrow'
  exact attemptOf_shifted hs ▸ h.table hrow

theorem Counted.added {id : Nat} {n : NewReservation} {device : Option (FixedBytes 32)}
    (h : Counted ls db bs) (ha : Added id n device db db') : Counted ls db' bs := by
  refine h.tables fun {l i row'} hrow' => ?_
  by_cases hi : i = id
  · subst hi
    obtain ⟨new, hnew, _, hattempt, hdotns, _⟩ := ha.row
    obtain rfl : new = row' := by simpa [hnew] using hrow'
    have hzero : l.attemptOf new = 0 := by cases l; exacts [hattempt, hdotns]
    exact hzero ▸ Int.natCast_nonneg _
  · exact h.table ((ha.others i hi).symm.trans hrow')

/-! ### What writes do to the counters -/

theorem attemptOf_mark {now : Time} {tx : Tx} {attempt : Int} (l' : Lane) :
    l'.attemptOf (Db.markRow l now tx attempt row) = if l' = l then attempt else l'.attemptOf row := by
  cases l <;> cases l' <;> rfl

/-- What a settling write leaves in its lane's counter. -/
def Write.attempt (w : Write) (old : Int) : Int :=
  match w with
  | .retry _ attempt _ => attempt
  | _ => old

theorem attemptOf_settle {now : Time} {w : Write} (l' : Lane) :
    l'.attemptOf (Db.settleRow l now w row) =
      if l' = l then w.attempt (l'.attemptOf row) else l'.attemptOf row := by
  cases l <;> cases l' <;> cases w <;> rfl

theorem Counted.wrote {g : Guard} {id : Nat} {f : Row → Row} {dev : List Device → List Device}
    {ok : Bool} (h : Counted ls db bs) (hw : db.Wrote g id f dev ok db')
    (hf : ∀ l row, db.row? id = some row → ok = true → Lane.attemptOf l (f row) ≤ marks l id ls) :
    Counted ls db' bs := by
  refine h.tables fun {l i row'} hrow' => ?_
  rw [hw.row?_eq i] at hrow'
  split at hrow'
  · next hi =>
    obtain ⟨hok, rfl⟩ := hi
    obtain ⟨row, hrow, rfl⟩ := Option.map_eq_some_iff.mp hrow'
    exact hf l row hrow hok
  · exact h.table hrow'

theorem Counted.opened {rows : List Row} (h : Counted ls db bs) (hb : bs p = some b)
    (hread : ∀ row ∈ rows, db.row? row.id = some row)
    (htodo : (b'.lanes l).todo = rows.map rowToReservation) (hmarked : (b'.lanes l).marked = [])
    (howed : (b'.lanes l).owed = []) (hothers : ∀ l', l' ≠ l → b'.lanes l' = b.lanes l') :
    Counted ls db (update bs p (some b')) := by
  refine h.book (fun l' r hr => ?_) (fun l' r hr hm => ?_) fun l' => ?_ <;>
    rcases eq_or_ne l' l with rfl | hne
  · rw [htodo] at hr
    obtain ⟨row, hrow, rfl⟩ := List.mem_map.mp hr
    rw [Lane.attempt_rowToReservation]
    exact h.table (hread row hrow)
  · exact h.todo hb (hothers l' hne ▸ hr)
  · rw [hmarked] at hm
    cases hm
  · rw [hothers l' hne] at hr hm
    exact h.marked hb hr hm
  · exact howed
  · rw [hothers l' hne]
    exact h.owed hb

/-- The charge of a settling write that goes through is covered. -/
theorem Counted.charge {w : Write} {g : Guard} (h : Counted ls db bs) (hf : Fenced N db bs)
    (hb : bs p = some b) (hg : b.guard = some g) (hr : r ∈ (b.lanes l).todo)
    (hc : ChargeOk b l r w) (hheld : db.held g = true)
    (hre : ∀ t attempt err, w = .retry t attempt err → err ≠ l.reconciled) {old : Int}
    (hold : old ≤ marks l r.id ls) : w.attempt old ≤ marks l r.id ls := by
  cases w with
  | retry t attempt err =>
    rcases hc with rfl | ⟨rfl, hearned⟩
    · exact h.todo hb hr
    · rcases hearned with hm | ho | hlost | herr
      · exact h.marked hb hr hm
      · simp [h.owed hb] at ho
      · simp [hf.lost hb hg hlost] at hheld
      · exact absurd herr (hre t _ err rfl)
  | landed | failed err | expired err => exact hold

theorem marksRow_of_came {g : Guard} {tx : Tx} {attempt : Int}
    (h : Came (.mark l g r tx attempt) true e) : marksRow l r.id (.op p e) = true := by
  rcases h with rfl | ⟨err, rfl⟩ <;> simp [marksRow]

theorem recharges_of_came {g : Guard} {t : Time} {attempt : Int} {err : String} {ok : Bool}
    (h : Came (.settle l g r (.retry t attempt err)) ok e) :
    recharges e = decide (err = l.reconciled) := by
  rcases h with rfl | ⟨_, rfl⟩ <;> rfl

theorem Counted.did (h : Counted ls db bs) (hf : Fenced N db bs) (hb : bs p = some b)
    (hd : Did N db b e db' b') (he : unearned e = false) :
    Counted (ls ++ [.op p e]) db' (update bs p (some b')) := by
  have hmono := h.mono (.op p e)
  simp only [unearned, Bool.or_eq_false_iff] at he
  cases hd with
  | acquired holderId ttl epoch done book =>
    subst book
    exact (hmono.admin ((Prod.mk.inj done).2 ▸ .of_eq rfl rfl)).fresh rfl
  | dropped admin evolves book =>
    subst book
    exact (hmono.admin admin).fresh rfl
  | claimed l limit rows ready reads same book | swept l rows reads same book =>
    subst same book
    exact hmono.opened (l := l) hb (fun row hrow => (reads.mem hrow).1) (by simp [Book.opened])
      (by simp [Book.opened]) (by simp [Book.opened]) fun l' hne => by simp [Book.onLane_ne hne]
  | marked l g r tx ok came guard todo wrote book =>
    subst book
    cases ok with
    | false =>
      rw [wrote.refused rfl]
      exact hmono.book (fun _ _ hr => hmono.todo hb hr) (fun _ _ hr hm => hmono.marked hb hr hm)
        fun l' => (hmono.owed (l := l') hb :)
    | true =>
      -- the mark counts, so whatever was covered for this row has one to spare
      have hspare : ∀ {n : Int}, n ≤ marks l r.id ls → n + 1 ≤ marks l r.id (ls ++ [.op p e]) := by
        intro n hn
        rw [marks_concat, marksRow_of_came came]
        simpa using hn
      have htable := hmono.wrote wrote fun l' row hrow _ => by
        rw [attemptOf_mark]
        split
        · next hl => exact hl ▸ hspare (h.todo hb todo)
        · exact hmono.table hrow
      refine htable.book (fun l' r' hr' => ?_) (fun l' r' hr' hm' => ?_) fun l' => ?_ <;>
        rcases eq_or_ne l' l with rfl | hne
      · exact hmono.todo hb (by simpa [Book.markNoted] using hr')
      · exact hmono.todo hb (by simpa [Book.onLane_ne hne] using hr')
      · simp only [if_true, Book.logged_lanes, Book.onLane_self, Book.markNoted,
          List.mem_cons] at hr' hm'
        rcases hm' with hid | hm'
        · exact hid ▸ hspare (hid ▸ h.todo hb hr')
        · exact hmono.marked hb hr' hm'
      · simp only [if_true, Book.logged_lanes, Book.onLane_ne hne] at hr' hm'
        exact hmono.marked hb hr' hm'
      · simpa [Book.markNoted] using hmono.owed hb
      · simpa [Book.onLane_ne hne] using hmono.owed hb
  | settled l g r w ok came guard todo charge wrote book =>
    have htable : Counted (ls ++ [.op p e]) db' bs := hmono.wrote wrote fun l' row hrow hok => by
      rw [attemptOf_settle]
      split
      · next hl =>
        subst hl
        refine hmono.charge hf hb guard todo charge (wrote.ok_iff.mp hok).1 ?_ (hmono.table hrow)
        rintro t attempt err rfl herr
        simp [recharges_of_came came, herr] at he
      · exact hmono.table hrow
    have hsub : ∀ l', (b'.lanes l').todo ⊆ (b.lanes l').todo ∧
        (b'.lanes l').marked = (b.lanes l').marked ∧ (b'.lanes l').owed = (b.lanes l').owed := by
      intro l'
      subst book
      cases ok with
      | false => exact ⟨List.Subset.refl _, rfl, rfl⟩
      | true =>
        rcases eq_or_ne l' l with rfl | hne
        · simp [Book.settledNoted]
        · simp [Book.onLane_ne hne]
    refine htable.book (fun l' r' hr' => ?_) (fun l' r' hr' hm' => ?_) fun l' => ?_
    · exact hmono.todo hb ((hsub l').1 hr')
    · exact hmono.marked hb ((hsub l').1 hr') ((hsub l').2.1 ▸ hm')
    · exact (hsub l').2.2.trans (hmono.owed hb)
  | quiet admin evolves book =>
    refine (hmono.admin admin).book (fun l' r' hr' => ?_) (fun l' r' hr' hm' => ?_) fun l' => ?_
    · exact hmono.todo hb (book.todo l' ▸ hr')
    · exact hmono.marked hb (book.todo l' ▸ hr') (book.marked l' ▸ hm')
    · rcases book.owed l' with ho | ho
      · exact ho.trans (hmono.owed hb)
      · rw [he.1] at ho
        cases ho

theorem Counted.does {ev : FleetEvent} (h : Counted ls db bs) (hd : ev.Does db db') :
    Counted (ls ++ [.env ev]) db' bs := by
  have hmono := h.mono (.env ev)
  obtain ⟨ha, -⟩ | ⟨id, r, group, device, -, ha⟩ := FleetEvent.Does.cases hd
  · exact hmono.admin ha
  · exact hmono.added ha

theorem Counted.empty : Counted [] (Db.empty t₀) fun _ => none :=
  ⟨fun h => by simp [Db.row?, Db.empty] at h, nofun, nofun, nofun⟩

/-- In a run without unearned charges every counter is covered by marks. -/
theorem reachable_counted (r : Reachable (Fleet N) (Db.empty t₀) ls s)
    (hearned : ∀ p e, Label.op p e ∈ ls → unearned e = false) :
    Counted ls s.st (s.watch (discipline N) Book.new) := by
  refine Reachable.inv fleet_bound (fun ls db bs =>
    (∀ p e, Label.op p e ∈ ls → unearned e = false) → Counted ls db bs) (fun _ => Counted.empty)
    ⟨?_, ?_, ?_, ?_⟩ r hearned
  · intro ls s p b o a db' r h hb hok hdone hearned
    exact (h fun p e he => hearned p e (List.mem_append_left _ he)).did (reachable_fenced r) hb
      (DeviceUniqueness.did hok hdone) (hearned p _ (by simp))
  · intro ls s ev db' _ h hdone hearned
    exact (h fun p e he => hearned p e (List.mem_append_left _ he)).does hdone
  · intro ls s p _ h _ hearned
    exact ((h fun p e he => hearned p e (List.mem_append_left _ he)).mono _).fresh rfl
  · intro ls s p db' _ h hdone hearned
    exact hdone ▸ ((h fun p e he => hearned p e (List.mem_append_left _ he)).mono _).killed

/-! ### Charges in a turn -/

theorem ReadsSucceeded.of_sent {h ws after : Hist} {tx : Tx} {sent : Except String Unit}
    (hs : Sent l h tx sent ws after) : ReadsSucceeded h := by
  obtain ⟨⟨before, rfl, quiet⟩, _⟩ := hs
  intro e he
  have hbefore : ∀ x ∈ before, (!isSubmit x) = true := fun x hx => by simp [(quiet x hx).1]
  rw [List.takeWhile_append_of_pos hbefore, List.takeWhile_cons_of_neg (by simp [isSubmit]),
    List.append_nil] at he
  exact (quiet e he).2

theorem Records.quiet {rs : Hist} (hr : Records rs) : Quiet rs := by
  rintro ⟨o, a⟩ he
  rcases hr _ he with rfl | ⟨l, g, r, w, rfl⟩ <;> exact ⟨rfl, rfl⟩

/-- Where a failure was judged, no read before the submission had failed. -/
theorem Observed.readsSucceeded {h : Hist} {reason : String} {observed : Option Account}
    (o : Observed l h r reason observed) : ReadsSucceeded h := by
  cases o with
  | one failure records =>
    cases failure with
    | called call =>
      obtain ⟨tx, sent, ws, hs, _⟩ := call
      exact .of_sent hs
    | unsent split quiet failed =>
      subst split
      intro e he
      rcases List.mem_append.mp ((List.takeWhile_sublist _).subset he) with he | he
      · exact (quiet e he).2
      · rcases List.mem_cons.mp he with rfl | he
        · rfl
        · exact (records.quiet e he).2
  | item named failure records =>
    obtain ⟨tx, sent, ws, items, item⟩ := failure
    exact .of_sent item.handed

/-- A retry of a turn without unearned charges leaves the counter as it was read, or charges it for a
    failure of the row's own that is not the signer's, after reads that all succeeded. -/
theorem retry_charge {d : Drain l} {ts : List Turn} (run : Turns d ts) {turn : Turn}
    (hmem : turn ∈ ts) (hearned : ∀ e ∈ turn.events, unearned e = false) {t₁ t₂ : Hist} {l' : Lane}
    {g : Guard} {t : Time} {attempt : Int} {err : String} {a : Reply Bool}
    (hsplit : turn.events = t₁ ++ ⟨.stmt (.settle l' g r (.retry t attempt err)), a⟩ :: t₂) :
    attempt = l'.attempt r ∨ attempt = l'.attempt r + 1 ∧ ReadsSucceeded t₁ ∧
      contains err unfundedSigner = false ∧ isSignerContention err = false ∧
      ∃ after, OwnFailure l' t₁ r after err ∨ OwnItem l' t₁ r after (.error err) := by
  obtain ⟨now, o, hw, why⟩ := run.why hmem hsplit
  have hfree : ∀ e ∈ t₁, unearned e = false := fun e he => hearned e (by simp [hsplit, he])
  have hre : err ≠ l'.reconciled := by
    intro herr
    have := hearned ⟨.stmt (.settle l' g r (.retry t attempt err)), a⟩ (by simp [hsplit])
    simp [unearned, recharges, herr] at this
  cases why with
  | @gated ctx wall gate _ _ | @unparsed gate _ _ =>
    cases gate <;> first | exact Or.inl (Write.retry.inj hw).2.1 | cases hw
  | elsewhere | observed => cases hw
  | requeued => exact absurd (Write.retry.inj hw).2.2 hre
  | deferred => exact Or.inl (Write.retry.inj hw).2.1
  | nonceUnread reason failed =>
    have := hfree _ failed
    simp [unearned, owes] at this
  | called | completed | readBack => cases hw
  | @judged candidate observed reason at_ parsed seen =>
    unfold settleOutcome at hw
    split at hw
    · cases hw
    · exact Or.inl (Write.retry.inj hw).2.1
    · next hc =>
      obtain ⟨_, hattempt, rfl⟩ := Write.retry.inj hw
      obtain ⟨hunfunded, hcontention⟩ := classify_retry hc
      exact Or.inr ⟨hattempt, seen.readsSucceeded, hunfunded, hcontention, seen.cases.2⟩
    · exact Or.inl (Write.retry.inj hw).2.1
    · cases hw

/-! ### Attempt accounting -/

/-- As long as no charge is unearned: in every run a lane's counter is at most the number of times the
    row was marked in the lane; and in every turn a retry leaves the counter at the value it was read
    with, unless all reads before the submission succeeded and the row's own submission or item
    failed for a reason that is not the signer's. -/
theorem attempts_earned (r : Reachable (Fleet N) (Db.empty t₀) ls s)
    (hearned : ∀ p e, Label.op p e ∈ ls → unearned e = false) {d : Drain l} {ts : List Turn}
    (run : Turns d ts) (hturns : ∀ turn ∈ ts, ∀ e ∈ turn.events, unearned e = false) :
    (∀ l id row, s.st.row? id = some row → Lane.attemptOf l row ≤ marks l id ls) ∧
    (∀ turn ∈ ts, ∀ (t₁ t₂ : Hist) (l' : Lane) (g : Guard) (r : Reservation) (t : Time)
      (attempt : Int) (err : String) (a : Reply Bool),
      turn.events = t₁ ++ ⟨.stmt (.settle l' g r (.retry t attempt err)), a⟩ :: t₂ →
      attempt = l'.attempt r ∨ attempt = l'.attempt r + 1 ∧ ReadsSucceeded t₁ ∧
        contains err unfundedSigner = false ∧ isSignerContention err = false ∧
        ∃ after, OwnFailure l' t₁ r after err ∨ OwnItem l' t₁ r after (.error err)) :=
  ⟨fun _ _ _ hrow => (reachable_counted r hearned).table hrow,
    fun turn hmem _ _ _ _ _ _ _ _ _ hsplit =>
      retry_charge run hmem (hturns turn hmem) hsplit⟩

/-- The nonce of a lone row cannot be read: the row is charged though it was never marked. -/
def nonceUnread : Script :=
  [.env (.commitClaim 1 aliceClaim none none), .start 0 (testWriter "writer-1", 2)] ++ goes 0 16 ++
    [.op 0 (.fails "connection reset")] ++ goes 0 2

/-- A writer is lost after it marked the row, and the next one puts the row back: one mark, two
    charges. -/
def lostAfterMark : Script :=
  [.env (.commitClaim 1 aliceClaim none none), .start 0 (testWriter "writer-1", 2)] ++ goes 0 19 ++
    [.kill 0, .env (.tick 31000000), .start 1 (testWriter "writer-2", 2)] ++ goes 1 5

theorem attempts_overcharged :
    (∃ ls s row, Reachable (Fleet "chain-writer") (Db.empty claimedAt) ls s ∧
      s.st.row? 1 = some row ∧ marks .people 1 ls = 0 ∧ row.attempt = 1) ∧
    (∃ ls s row, Reachable (Fleet "chain-writer") (Db.empty claimedAt) ls s ∧
      s.st.row? 1 = some row ∧ marks .people 1 ls = 1 ∧ row.attempt = 2) := by
  refine ⟨?_, ?_⟩
  · obtain ⟨ls, s, r, htest⟩ := (player "chain-writer").reaches (Db.empty claimedAt) nonceUnread
      (fun ls s => (s.st.row? 1).any fun row => marks .people 1 ls = 0 && row.attempt = 1)
      (by decide +kernel)
    obtain ⟨row, hrow, hcount⟩ := Option.any_eq_true _ _ |>.mp htest
    simp only [Bool.and_eq_true, decide_eq_true_eq] at hcount
    exact ⟨ls, s, row, r, hrow, hcount⟩
  · obtain ⟨ls, s, r, htest⟩ := (player "chain-writer").reaches (Db.empty claimedAt) lostAfterMark
      (fun ls s => (s.st.row? 1).any fun row => marks .people 1 ls = 1 && row.attempt = 2)
      (by decide +kernel)
    obtain ⟨row, hrow, hcount⟩ := Option.any_eq_true _ _ |>.mp htest
    simp only [Bool.and_eq_true, decide_eq_true_eq] at hcount
    exact ⟨ls, s, row, r, hrow, hcount⟩

/-- A single submission of `alice` fails on its own account, and is charged. -/
def aliceCharged : Turn where
  cx := aliceCx
  startup := false
  events := aliceFails "Resources::Paused" (.ok none) ++
    [⟨.nowUtc, seconds 1760000240⟩, ⟨.stmt (.settle .people aliceCx.guard aliceRow
      (.retry (seconds 1760000242) 1 "proxied call failed: Resources::Paused")), Reply.ok true⟩]

set_option maxRecDepth 2000 in
theorem alice_charged : Turns (Drain.new .people 1 ()) [aliceCharged] := by
  refine .crash ⟨none, ?_, rfl⟩ (.done (Drain.new .people 1 ()))
  show Prog.Trace _ (_ :: _ :: _ :: _ :: _ :: _ :: _ :: _ :: _ :: _ :: _ :: _ :: [_]) none
  repeat (first | exact .stop _ | apply Prog.Trace.call)

theorem alice_charged_earned : ∀ e ∈ aliceCharged.events, unearned e = false := by
  decide +kernel

def earned (ls : List FleetLabel) : Bool :=
  ls.all fun x =>
    match x with
    | .op _ e => !unearned e
    | _ => true

theorem attempts_earned_drained :
    (∃ ls s, Reachable (Fleet "chain-writer") (Db.empty claimedAt) ls s ∧
      (s.st.row? 1).any (fun row => row.attempt = 1 && row.dotnsAttempt = 1) = true ∧
      ∀ l id row, s.st.row? id = some row → Lane.attemptOf l row ≤ marks l id ls) ∧
    ((1 : Int) = Lane.people.attempt aliceRow ∨ (1 : Int) = Lane.people.attempt aliceRow + 1 ∧
      ReadsSucceeded (aliceFails "Resources::Paused" (.ok none) ++
        [⟨.nowUtc, seconds 1760000240⟩]) ∧
      contains "proxied call failed: Resources::Paused" unfundedSigner = false ∧
      isSignerContention "proxied call failed: Resources::Paused" = false ∧
      ∃ after, OwnFailure .people (aliceFails "Resources::Paused" (.ok none) ++
          [⟨.nowUtc, seconds 1760000240⟩]) aliceRow after "proxied call failed: Resources::Paused" ∨
        OwnItem .people (aliceFails "Resources::Paused" (.ok none) ++
          [⟨.nowUtc, seconds 1760000240⟩]) aliceRow after
          (.error "proxied call failed: Resources::Paused")) := by
  obtain ⟨ls, s, r, htest⟩ := (player "chain-writer").reaches (Db.empty claimedAt) drained
    (fun ls s => earned ls && (s.st.row? 1).any fun row => row.attempt = 1 && row.dotnsAttempt = 1)
    (by decide +kernel)
  simp only [Bool.and_eq_true, earned, List.all_eq_true] at htest
  have hcharged : ∀ turn ∈ [aliceCharged], ∀ e ∈ turn.events, unearned e = false := by
    intro turn hmem
    rw [List.mem_singleton.mp hmem]
    exact alice_charged_earned
  obtain ⟨htable, hretry⟩ := attempts_earned r (fun p e he => by simpa using htest.1 _ he)
    alice_charged hcharged
  exact ⟨⟨ls, s, r, htest.2, htable⟩, hretry aliceCharged (List.mem_singleton.mpr rfl) _ []
    .people aliceCx.guard aliceRow _ _ _ _ rfl⟩

end DeviceUniqueness
