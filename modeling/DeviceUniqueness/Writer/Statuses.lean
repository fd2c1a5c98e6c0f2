import DeviceUniqueness.Writer.Fencing
import DeviceUniqueness.Writer.Script

/-! The two state machines of a row, over every run of a fleet.

    Both follow from `Fenced`: a write goes through only under a guard that is held, a row under a
    held guard is live in the lane that writes it, and from a live row every write of a lane is a
    move of its machine. -/

namespace DeviceUniqueness

open Schemes

variable {N : String} {t₀ : Time} {db db' : Db} {l : Lane} {row row' : Row} {b b' : Book}
  {bs : Nat → Option Book} {p : Nat} {e : Ev Outside} {ls : List FleetLabel}
  {s : FleetSys}

/-! ### The People status -/

/-- The People status stays, or makes one of its moves. -/
def Status.moves : Status → Status → Bool
  | .queued, .reserved => true
  | .reserved, .submitting | .reserved, .assigned | .reserved, .retryAfter
  | .reserved, .failedTerminal => true
  | .retryAfter, .submitting | .retryAfter, .assigned | .retryAfter, .failedTerminal => true
  | .submitting, .assigned | .submitting, .retryAfter | .submitting, .failedTerminal => true
  | a, b => a = b

@[simp] theorem Status.moves_refl (a : Status) : a.moves a = true := by cases a <;> rfl

/-- The settled statuses are never left. -/
theorem Status.eq_of_moves {a b : Status} (h : a.moves b = true)
    (ha : a ∈ [Status.assigned, .failedTerminal]) : b = a := by
  rcases List.mem_pair.mp ha with rfl | rfl <;> cases b <;> first | rfl | cases h

/-- Every row is still there, and its People status stayed or moved. -/
def Moved (db db' : Db) : Prop :=
  ∀ id row, db.row? id = some row →
    ∃ row', db'.row? id = some row' ∧ row.status.moves row'.status = true

theorem Moved.refl (db : Db) : Moved db db := fun _ row h => ⟨row, h, row.status.moves_refl⟩

theorem Admin.moved (h : Admin db db') : Moved db db' := by
  intro id row hrow
  obtain ⟨row', hrow', hs⟩ := h.some_of id row hrow
  refine ⟨row', hrow', ?_⟩
  rcases hs.status with hs | ⟨hq, hr⟩
  · simp [hs]
  · rw [hq, hr]
    rfl

variable {id : Nat} {g : Guard} {o : Ask} {a : o.Ans}

theorem Added.moved {r : NewReservation} {device : Option (FixedBytes 32)}
    (h : Added id r device db db') : Moved db db' := by
  intro i row hrow
  have hi : i ≠ id := fun hi => by simp [hi, h.fresh] at hrow
  exact ⟨row, (h.others i hi).trans hrow, row.status.moves_refl⟩

theorem Wrote.moved {f : Row → Row} {dev : List Device → List Device} {ok : Bool}
    (h : db.Wrote g id f dev ok db') (hf : ∀ row, db.row? id = some row → db.held g = true →
      row.status.moves (f row).status = true) : Moved db db' := by
  cases hok : ok with
  | false => exact h.refused hok ▸ Moved.refl db
  | true =>
    intro i row hrow
    have heq := h.row?_eq i
    by_cases hi : i = id
    · subst hi
      rw [if_pos ⟨hok, rfl⟩, hrow] at heq
      exact ⟨f row, heq, hf row hrow (h.ok_iff.mp hok).1⟩
    · rw [if_neg fun hc => hi hc.2, hrow] at heq
      exact ⟨row, heq, row.status.moves_refl⟩

theorem moves_mark {now : Time} {tx : Tx} {attempt : Int} (h : l.live row = true) :
    row.status.moves (Db.markRow l now tx attempt row).status = true := by
  cases l with
  | people =>
    simp only [Lane.live, List.mem_cons, List.not_mem_nil, or_false, decide_eq_true_eq] at h
    rcases h with h | h | h <;> rw [h] <;> rfl
  | dotns => exact row.status.moves_refl

theorem moves_settle {now : Time} {w : Write} (h : l.live row = true) :
    row.status.moves (Db.settleRow l now w row).status = true := by
  cases l with
  | people =>
    rw [(settleRow_people now w row).1]
    simp only [Lane.live, List.mem_cons, List.not_mem_nil, or_false, decide_eq_true_eq] at h
    rcases h with h | h | h <;> rw [h] <;> cases w <;> rfl
  | dotns =>
    rw [(settleRow_dotns now w row).1]
    exact row.status.moves_refl

/-- The row a writer writes is the one it has under way, and live. -/
theorem Fenced.live (h : Fenced N db bs) {r : Reservation} (hb : bs p = some b)
    (hg : b.guard = some g) (hr : r ∈ (b.lanes l).todo) (hrow : db.row? r.id = some row)
    (hheld : db.held g = true) : l.live row = true := by
  obtain ⟨row', hrow', hlive⟩ := h.known hb hg hr
  rw [hrow, Option.some.injEq] at hrow'
  exact hrow' ▸ hlive hheld

theorem Fenced.did_moved (h : Fenced N db bs) (hb : bs p = some b) (hd : Did N db b e db' b') :
    Moved db db' := by
  cases hd with
  | acquired holderId ttl epoch done book =>
    exact (Prod.mk.inj done).2 ▸ (Admin.of_eq rfl rfl).moved
  | dropped admin => exact admin.moved
  | claimed l limit rows ready reads same | swept l rows reads same => exact same ▸ Moved.refl db
  | marked l g r tx ok came guard todo wrote =>
    exact Wrote.moved wrote fun row hrow hheld => moves_mark (h.live hb guard todo hrow hheld)
  | settled l g r w ok came guard todo charge wrote =>
    exact Wrote.moved wrote fun row hrow hheld => moves_settle (h.live hb guard todo hrow hheld)
  | quiet admin => exact admin.moved

theorem FleetEvent.Does.moved {ev : FleetEvent} (h : ev.Does db db') : Moved db db' := by
  obtain ⟨ha, -⟩ | ⟨id, r, group, device, -, ha⟩ := FleetEvent.Does.cases h
  · exact ha.moved
  · exact ha.moved

theorem step_moved (r : Reachable (Fleet N) (Db.empty t₀) ls s) {x : FleetLabel}
    {t : FleetSys} (d : Step (Fleet N) s x t) :
    Moved s.st t.st := by
  cases x with
  | op p e =>
    obtain ⟨b, hb, hok, hdone, _⟩ := d.op_inv (Reachable.trusted fleet_bound r)
    exact (reachable_fenced r).did_moved hb (did hok hdone)
  | env ev =>
    cases d with
    | env done => exact FleetEvent.Does.moved done
  | start p =>
    cases d with
    | start => exact Moved.refl _
  | kill p =>
    cases d with
    | kill done => exact done ▸ Moved.refl _

/-- Along a run from a reachable state a settled People status stays. -/
theorem run_settled (r : Reachable (Fleet N) (Db.empty t₀) ls s)
    {xs : List FleetLabel} {t : FleetSys}
    (run : Run (Fleet N) s xs t) (hrow : s.st.row? id = some row)
    (hsettled : row.status ∈ [Status.assigned, .failedTerminal]) :
    ∃ row', t.st.row? id = some row' ∧ row'.status = row.status := by
  induction run with
  | nil => exact ⟨row, hrow, rfl⟩
  | snoc run d ih =>
    obtain ⟨row₁, hrow₁, hstatus⟩ := ih
    obtain ⟨row₂, hrow₂, hmoves⟩ := step_moved (r.append run) d id row₁ hrow₁
    rw [← hstatus] at hsettled
    exact ⟨row₂, hrow₂, (Status.eq_of_moves hmoves hsettled).trans hstatus⟩

/-! ### Who may change a row -/

/-- The guard a writer acts under: what its last acquisition returned to it. -/
def guardIn (h : Hist) : Option Guard := h.foldl acquiring none
where
  acquiring (g : Option Guard) : Ev Outside → Option Guard
    | ⟨.stmt (.tryAcquire name holderId _), (reply : Reply (Option Nat))⟩ =>
        match reply with
        | .ok (some epoch) => some ⟨name, holderId, epoch⟩
        | _ => none
    | _ => g

theorem Book.note_guard (b : Book) (e : Ev Outside) : (b.note e).guard = b.guard := by
  unfold Book.note
  repeat (first | rfl | split)

theorem Book.next_guard (b : Book) (e : Ev Outside) :
    (b.next e).guard = guardIn.acquiring b.guard e := by
  obtain ⟨o, a⟩ := e
  cases o with
  | stmt st =>
    cases st with
    | tryAcquire name holderId ttl =>
      match a with
      | .ok (some _) | .ok none | .lost _ _ | .refused _ => rfl
    | _ => exact b.note_guard _
  | _ => exact b.note_guard _

/-- The book's guard is the writer's. -/
theorem guard_eq_guardIn (h : Hist) : (h.foldl Book.next Book.new).guard = guardIn h := by
  have hfold : ∀ (h : Hist) (b : Book),
      (h.foldl Book.next b).guard = h.foldl guardIn.acquiring b.guard := by
    intro h
    induction h with
    | nil => exact fun _ => rfl
    | cons e h ih => exact fun b => (ih _).trans (by rw [b.next_guard e]; rfl)
  exact hfold h Book.new

/-- The janitor's statement, which every writer runs while the queue is off. -/
def isDrain : Ask → Bool
  | .stmt (.fallbackDrain _) => true
  | _ => false

/-- Without a guard that is held, a writer changes no row, the janitor's statement apart. -/
theorem rows_of_does (hok : Allowed N b o) (hheld : ∀ g, b.guard = some g → db.held g = false)
    (ho : isDrain o = false) (h : o.Does db a db') : db'.rows = db.rows := by
  have hwrote : ∀ {g id f dev ok}, b.guard = some g → db.Wrote g id f dev ok db' →
      db'.rows = db.rows := by
    intro g id f dev ok hg hw
    have hno : ok = false := by
      cases hcase : ok with
      | false => rfl
      | true => simpa [hheld g hg] using (hw.ok_iff.mp hcase).1
    rw [hw.refused hno]
  cases o with
  | stmt st =>
    rcases Ask.Does.done h with ⟨out, h⟩ | rfl
    · cases st with
      | mark l g r tx attempt => exact hwrote hok.1 (mark_does h)
      | settle l g r w => exact hwrote hok.1 (settle_does h)
      | fallbackDrain grace => cases ho
      | tryAcquire name holderId ttl | renew g ttl => exact congrArg (Db.rows ∘ Prod.snd) h
      | claim l limit | submitting l => exact congrArg Db.rows h.1
      | strandedQueued => exact congrArg Db.rows h.2
    · rfl
  | _ => exact congrArg Db.rows h

/-- What the janitor does: queued rows become reserved, all others stay. -/
theorem drain_rows (ho : isDrain o = true) (h : o.Does db a db') (id : Nat)
    (hrow : db.row? id = some row) : db'.row? id = some row ∨
      row.status = .queued ∧ ∃ row', db'.row? id = some row' ∧ row'.status = .reserved := by
  cases o with
  | stmt st =>
    cases st with
    | fallbackDrain grace =>
      rcases Ask.Does.done h with ⟨out, h⟩ | rfl
      · obtain rfl : db' = db.updateWhere _ _ (Db.keeps_reserve db.now) := (Prod.mk.inj h).2
        rw [Db.row?_updateWhere, hrow, Option.map_some]
        split
        · next hit =>
          simp only [Bool.and_eq_true, decide_eq_true_eq] at hit
          exact Or.inr ⟨hit.1, _, rfl, rfl⟩
        · exact Or.inl rfl
      · exact Or.inl hrow
    | _ => cases ho
  | _ => cases ho

/-! ### The outbox under concurrency -/

/-- In every run the People status only makes its moves and a settled one stays; and a writer whose
    guard is not held, because its epoch was superseded or ran out, changes no row. The janitor is
    not fenced by the writers' lease: what it does is listed for itself. -/
theorem outbox_moves (r : Reachable (Fleet N) (Db.empty t₀) ls s) :
    (∀ x t, Step (Fleet N) s x t → ∀ id row, s.st.row? id = some row →
      ∃ row', t.st.row? id = some row' ∧ row.status.moves row'.status = true) ∧
    (∀ xs t, Run (Fleet N) s xs t → ∀ id row, s.st.row? id = some row →
      row.status ∈ [Status.assigned, .failedTerminal] →
      ∃ row', t.st.row? id = some row' ∧ row'.status = row.status) ∧
    (∀ p h e t, s.hist p = some h → Step (Fleet N) s (.op p e) t →
      (∀ g, guardIn h = some g → s.st.held g = false) →
      t.st.rows = s.st.rows ∨ isDrain e.1 = true ∧ ∀ id row, s.st.row? id = some row →
        t.st.row? id = some row ∨
          row.status = .queued ∧ ∃ row', t.st.row? id = some row' ∧ row'.status = .reserved) := by
  refine ⟨fun x t d => step_moved r d, fun xs t run id row hrow hs => run_settled r run hrow hs,
    fun p h e t hh d hheld => ?_⟩
  obtain ⟨b, hb, hok, hdone, _⟩ := d.op_inv (Reachable.trusted fleet_bound r)
  have hw : s.watch (discipline N) Book.new p = some (h.foldl Book.next Book.new) := by
    rw [Sys.watch, hh]
    rfl
  obtain rfl := Option.some.inj (hw.symm.trans hb)
  rw [← guard_eq_guardIn] at hheld
  cases ho : isDrain e.1 with
  | false => exact Or.inl (rows_of_does hok hheld ho hdone)
  | true => exact Or.inr ⟨rfl, fun id row hrow => drain_rows ho hdone id hrow⟩

/-- A first writer marks the row of `alice` and stalls until its lease has run out; a second one takes
    over and finds the name registered. -/
def takeover : Script :=
  [.env (.commitClaim 1 aliceClaim none none), .start 0 (testWriter "writer-1", 2)] ++ goes 0 19 ++
    [.env (.tick 31000000), .start 1 (testWriter "writer-2", 2)] ++ goes 1 2 ++
    [.op 1 (.owned alice), .op 1 .smooth]

/-- The row is assigned, and the first writer's guard is no longer held. -/
def takenOver (s : FleetSys) : Bool :=
  (s.st.row? 1).any (fun row => row.status = .assigned) &&
    (s.hist 0).any fun h => (guardIn h).any fun g => !s.st.held g

theorem outbox_moves_takeover : ∃ ls s,
    Reachable (Fleet "chain-writer") (Db.empty claimedAt) ls s ∧ takenOver s = true ∧
    (∀ x t, Step (Fleet "chain-writer") s x t → ∀ id row, s.st.row? id = some row →
      ∃ row', t.st.row? id = some row' ∧ row.status.moves row'.status = true) ∧
    (∀ xs t, Run (Fleet "chain-writer") s xs t → ∀ id row, s.st.row? id = some row →
      row.status ∈ [Status.assigned, .failedTerminal] →
      ∃ row', t.st.row? id = some row' ∧ row'.status = row.status) ∧
    (∀ p h e t, s.hist p = some h → Step (Fleet "chain-writer") s (.op p e) t →
      (∀ g, guardIn h = some g → s.st.held g = false) →
      t.st.rows = s.st.rows ∨ isDrain e.1 = true ∧ ∀ id row, s.st.row? id = some row →
        t.st.row? id = some row ∨
          row.status = .queued ∧ ∃ row', t.st.row? id = some row' ∧ row'.status = .reserved) := by
  obtain ⟨ls, s, r, htest⟩ := (player "chain-writer").reaches (Db.empty claimedAt) takeover
    (fun _ s => takenOver s) (by decide +kernel)
  exact ⟨ls, s, r, htest, outbox_moves r⟩

/-- In every run: a writer whose guard is held is the only one, and the rows it has read and not
    settled are live: nobody else has settled one. -/
theorem holder_alone (r : Reachable (Fleet N) (Db.empty t₀) ls s)
    (hb : s.watch (discipline N) Book.new p = some b) (hg : b.guard = some g)
    (hheld : s.st.held g = true) :
    (∀ q c g', s.watch (discipline N) Book.new q = some c → c.guard = some g' →
      s.st.held g' = true → q = p) ∧
    ∀ l, ∀ read ∈ (b.lanes l).todo, ∃ row, s.st.row? read.id = some row ∧ l.live row = true := by
  have hfenced := reachable_fenced r
  refine ⟨fun q c g' hc hg' hheld' => hfenced.alone hc hb hg' hg hheld' hheld, fun l read hread => ?_⟩
  obtain ⟨row, hrow, hlive⟩ := hfenced.known hb hg hread
  exact ⟨row, hrow, hlive hheld⟩

theorem holder_alone_takeover : ∃ ls s b read,
    Reachable (Fleet "chain-writer") (Db.empty claimedAt) ls s ∧
    s.watch (discipline "chain-writer") Book.new 1 = some b ∧ read ∈ (b.lanes .people).todo ∧
    ∃ row, s.st.row? read.id = some row ∧ Lane.people.live row = true := by
  obtain ⟨ls, s, r, htest⟩ := (player "chain-writer").reaches (Db.empty claimedAt) takeover.dropLast
    (fun _ s => (s.watch (discipline "chain-writer") Book.new 1).any fun b =>
      b.guard.any s.st.held && (b.lanes .people).todo.any fun _ => true) (by decide +kernel)
  simp only [Option.any_eq_true, Bool.and_eq_true, List.any_eq_true] at htest
  obtain ⟨b, hb, ⟨g, hg, hheld⟩, read, hread, -⟩ := htest
  exact ⟨ls, s, b, read, r, hb, hread, (holder_alone r hb hg hheld).2 .people read hread⟩

/-! ### The coupling of the lanes -/

def isDotnsWrite : Ask → Bool
  | .stmt (.mark .dotns ..) | .stmt (.settle .dotns ..) => true
  | _ => false

theorem Wrote.status {i : Nat} {f : Row → Row} {dev : List Device → List Device} {ok : Bool}
    (h : db.Wrote g id f dev ok db') (hf : ∀ row, (f row).status = row.status)
    (hrow : db.row? i = some row) : ∃ row', db'.row? i = some row' ∧ row'.status = row.status := by
  have heq := h.row?_eq i
  rw [hrow] at heq
  split at heq
  · exact ⟨f row, heq, hf row⟩
  · exact ⟨row, heq, rfl⟩

theorem status_of_dotnsWrite (ho : isDotnsWrite o = true) (h : o.Does db a db')
    (hrow : db.row? id = some row) :
    ∃ row', db'.row? id = some row' ∧ row'.status = row.status := by
  unfold isDotnsWrite at ho
  split at ho
  · next g r tx attempt =>
    rcases Ask.Does.done h with ⟨out, h⟩ | rfl
    · exact Wrote.status (mark_does h) (fun _ => rfl) hrow
    · exact ⟨row, hrow, rfl⟩
  · next g r w =>
    rcases Ask.Does.done h with ⟨out, h⟩ | rfl
    · exact Wrote.status (settle_does h) (fun row => (settleRow_dotns _ w row).1) hrow
    · exact ⟨row, hrow, rfl⟩
  · cases ho

/-- In every run the two halves of every row stay coupled, and no write of the dotNS lane changes a
    People status. -/
theorem lanes_coupled (r : Reachable (Fleet N) (Db.empty t₀) ls s) :
    (∀ id row, s.st.row? id = some row →
      (row.dotnsStatus ∈ [some DotnsStatus.submitting, some .retryAfter, some .reserved,
        some .failedTerminal, some .expired] → row.status = .assigned) ∧
      (row.status = .failedTerminal → row.dotnsStatus ∈ [none, some .abandoned]) ∧
      (row.dotnsStatus = some .abandoned → row.status = .failedTerminal) ∧
      (row.dotnsStatus = none ↔ row.intake.dotnsSignature = none)) ∧
    (∀ p e t, Step (Fleet N) s (.op p e) t → isDotnsWrite e.1 = true → ∀ id row,
      s.st.row? id = some row → ∃ row', t.st.row? id = some row' ∧ row'.status = row.status) := by
  refine ⟨fun id row hrow => ?_, fun p e t d ho id row hrow => ?_⟩
  · have hc := (reachable_fenced r).coupled hrow
    exact ⟨hc.tried, hc.failed, hc.abandoned, hc.absent⟩
  · cases d with
    | op live done => exact status_of_dotnsWrite ho done hrow

/-- Both lanes of the claim of `alice` drained by one writer. -/
def drained : Script :=
  [.env (.commitClaim 1 aliceClaim none none), .start 0 (testWriter "writer-1", 2)] ++ goes 0 34

theorem lanes_coupled_drained : ∃ ls s,
    Reachable (Fleet "chain-writer") (Db.empty claimedAt) ls s ∧
    (s.st.row? 1).any (fun row => row.dotnsStatus = some .reserved) = true ∧
    (∀ id row, s.st.row? id = some row →
      (row.dotnsStatus ∈ [some DotnsStatus.submitting, some .retryAfter, some .reserved,
        some .failedTerminal, some .expired] → row.status = .assigned) ∧
      (row.status = .failedTerminal → row.dotnsStatus ∈ [none, some .abandoned]) ∧
      (row.dotnsStatus = some .abandoned → row.status = .failedTerminal) ∧
      (row.dotnsStatus = none ↔ row.intake.dotnsSignature = none)) ∧
    (∀ p e t, Step (Fleet "chain-writer") s (.op p e) t → isDotnsWrite e.1 = true → ∀ id row,
      s.st.row? id = some row → ∃ row', t.st.row? id = some row' ∧ row'.status = row.status) := by
  obtain ⟨ls, s, r, htest⟩ := (player "chain-writer").reaches (Db.empty claimedAt) drained
    (fun _ s => (s.st.row? 1).any fun row => row.dotnsStatus = some .reserved) (by decide +kernel)
  exact ⟨ls, s, r, htest, lanes_coupled r⟩

end DeviceUniqueness
