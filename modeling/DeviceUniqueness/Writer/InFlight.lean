import DeviceUniqueness.Writer.Statuses

/-! Rows in flight when a pass starts, over every run of a fleet.

    A claim never returns a row that is `SUBMITTING`, so a row left in flight by a previous holder is
    settled by the startup reconcile of an epoch or not at all in it. Where that reconcile reads the
    rows in flight and does not report a failure, it has settled all of them, and every row a later
    pass marks it settles before the next pass starts. -/

namespace DeviceUniqueness

open Schemes

variable {N : String} {t₀ : Time} {db db' : Db} {l : Lane} {row row' : Row} {b b' : Book}
  {bs : Nat → Option Book} {p : Nat} {g : Guard} {e : Ev Outside}
  {ls : List FleetLabel} {s : FleetSys}

/-! ### The epoch in a history -/

def isAcquire : Ask → Bool
  | .stmt (.tryAcquire ..) => true
  | _ => false

/-- The events since the lease was last asked for. -/
def epochIn (h : Hist) : Hist := h.foldl since []
where
  since (acc : Hist) (e : Ev Outside) : Hist := if isAcquire e.1 then [] else acc ++ [e]

/-- The startup reconcile of the lane reads the rows in flight. -/
def sweeps (l : Lane) : Ask → Bool
  | .stmt (.submitting l') => l' = l
  | _ => false

/-- That is the first thing a startup reconcile does that found the lane's link up; one that found it
    down does nothing more. -/
theorem reconcile_sweeps {cx : Cx} {d d' : Drain l} {up : Bool} {t₁ t₂ : Hist}
    {res : Option (Except WriterError Unit × Drain l)}
    (hup : Prog.Trace (Drain.linkUp d) t₁ (some ((.ok up : Except WriterError Bool), d')))
    (ht : Prog.Trace (Drain.reconcileSubmitting cx d) (t₁ ++ t₂) res) :
    (∀ e ∈ t₂.head?, sweeps l e.1 = true ∧ up = true) ∧ (res.isSome → up = true → t₂ ≠ []) := by
  have hrest := hup.after ht
  cases up with
  | false =>
    cases hrest with
    | stop | ret => simp
  | true =>
    cases hrest with
    | stop => simp
    | call a _ => simp [sweeps]

/-- The startup reconcile of the lane returned an error. -/
def reconcileFails (l : Lane) : Ask → Bool
  | .startupReconcileFailed l' _ => l' = l
  | _ => false

/-- What a book has noted of the startup reconcile of a lane. -/
def Book.flags (b : Book) (l : Lane) : Bool × Bool := ((b.lanes l).asked, (b.lanes l).failed)

theorem Book.flags_onLane {l' : Lane} {f : LaneBook → LaneBook} {since : Hist}
    (hf : ∀ lb, (f lb).asked = lb.asked ∧ (f lb).failed = lb.failed) :
    ((b.onLane l' f).logged since).flags l = b.flags l := by
  rcases eq_or_ne l l' with rfl | hne
  · simp [Book.flags, hf]
  · simp [Book.flags, Book.onLane_ne hne]

theorem Book.flags_next (b : Book) (l : Lane) (e : Ev Outside) (h : isAcquire e.1 = false) :
    (b.next e).flags l =
      ((b.flags l).1 || sweeps l e.1, (b.flags l).2 || reconcileFails l e.1) := by
  -- every other event notes nothing of it
  have hsame : sweeps l e.1 = false → reconcileFails l e.1 = false →
      (b.next e).flags l = b.flags l → (b.next e).flags l =
        ((b.flags l).1 || sweeps l e.1, (b.flags l).2 || reconcileFails l e.1) := by
    intro hs hr heq
    simp [hs, hr, heq]
  obtain ⟨o, a⟩ := e
  cases o with
  | stmt st =>
    cases st with
    | tryAcquire name holderId ttl => cases h
    | submitting l' =>
      rcases eq_or_ne l l' with rfl | hne
      · cases a <;> simp [Book.next, Book.note, Book.opened, Book.flags, sweeps, reconcileFails]
      · cases a <;> simp [Book.next, Book.note, Book.flags, Book.onLane_ne hne, sweeps,
          reconcileFails, hne.symm]
    | claim l' limit =>
      refine hsame rfl rfl ?_
      cases a with
      | ok rows => exact Book.flags_onLane fun _ => ⟨rfl, rfl⟩
      | lost out err | refused err => rfl
    | mark l' g r tx attempt =>
      refine hsame rfl rfl ?_
      rcases a with (_ | _) | ⟨_ | _, err⟩ | err
      · rfl
      · exact Book.flags_onLane fun _ => ⟨rfl, rfl⟩
      · rfl
      · exact Book.flags_onLane fun _ => ⟨rfl, rfl⟩
      · simp only [Book.next, Book.note]
        split
        · exact Book.flags_onLane fun _ => ⟨rfl, rfl⟩
        · rfl
    | settle l' g r w =>
      refine hsame rfl rfl ?_
      rcases a with (_ | _) | ⟨_ | _, err⟩ | err
      · rfl
      · exact Book.flags_onLane fun _ => ⟨rfl, rfl⟩
      · rfl
      · exact Book.flags_onLane fun _ => ⟨rfl, rfl⟩
      · rfl
    | _ => exact hsame rfl rfl rfl
  | accountNonce l' signer rows | sign l' payload nonce rows =>
    refine hsame rfl rfl ?_
    rcases rows with _ | ⟨r, _ | ⟨r', rows⟩⟩
    · rfl
    · cases a with
      | error err => exact Book.flags_onLane fun _ => ⟨rfl, rfl⟩
      | ok out => rfl
    · rfl
  | startupReconcileFailed l' err =>
    rcases eq_or_ne l l' with rfl | hne
    · simp [Book.next, Book.note, Book.flags, sweeps, reconcileFails]
    · simp [Book.next, Book.note, Book.flags, Book.onLane_ne hne, sweeps, reconcileFails, hne.symm]
  | _ => exact hsame rfl rfl rfl

theorem Book.flags_acquire (b : Book) (l : Lane) (e : Ev Outside) (h : isAcquire e.1 = true) :
    (b.next e).flags l = (false, false) := by
  obtain ⟨o, a⟩ := e
  cases o with
  | stmt st =>
    cases st with
    | tryAcquire name holderId ttl =>
      match a with
      | .ok (some _) | .ok none | .lost _ _ | .refused _ => rfl
    | _ => cases h
  | _ => cases h

/-- The book's notes are what happened in the epoch. -/
theorem flags_eq (h : Hist) (l : Lane) : (h.foldl Book.next Book.new).flags l =
    ((epochIn h).any fun e => sweeps l e.1, (epochIn h).any fun e => reconcileFails l e.1) := by
  induction h using List.reverseRecOn with
  | nil => rfl
  | append_singleton h e ih =>
    have hepoch : epochIn (h ++ [e]) = epochIn.since (epochIn h) e := by
      simp [epochIn, List.foldl_append]
    rw [List.foldl_append, List.foldl_cons, List.foldl_nil, hepoch, epochIn.since]
    cases ha : isAcquire e.1 with
    | true => simp [Book.flags_acquire _ l e ha]
    | false => simp [Book.flags_next _ l e ha, ih]

/-! ### The invariant -/

/-- While a writer's guard is held and its startup reconcile of the lane has read the rows in flight
    and not failed, the rows in flight are among those it has under way. -/
structure Tracked (db : Db) (bs : Nat → Option Book) : Prop where
  todo : ∀ {p b g l}, bs p = some b → b.guard = some g → db.held g = true →
    (b.lanes l).swept = true → (b.lanes l).failed = false →
    (b.lanes l).asked = true ∧ ∀ {id row}, db.row? id = some row → l.inFlight row = true →
      id ∈ (b.lanes l).todo.map Reservation.id

theorem inFlight_shifted (hs : Shifted row row') (h : l.inFlight row' = true) :
    l.inFlight row = true := by
  cases l with
  | people =>
    simp only [Lane.inFlight, decide_eq_true_eq] at h ⊢
    rcases hs.status with hs | ⟨_, hr⟩
    · exact hs.symm.trans h
    · simp [hr] at h
  | dotns => simpa [Lane.inFlight, hs.dotnsStatus] using h

theorem inFlight_mark_ne {l' : Lane} (hne : l ≠ l') {now : Time} {tx : Tx} {attempt : Int} :
    l.inFlight (Db.markRow l' now tx attempt row) = l.inFlight row := by
  cases l <;> cases l' <;> first | rfl | exact absurd rfl hne

theorem inFlight_settle {now : Time} {w : Write} : l.inFlight (Db.settleRow l now w row) = false := by
  cases l <;> cases w <;> rfl

theorem inFlight_settle_ne {l' : Lane} (hne : l ≠ l') {now : Time} {w : Write}
    (h : l.inFlight (Db.settleRow l' now w row) = true) : l.inFlight row = true := by
  cases l <;> cases l'
  · exact absurd rfl hne
  · simpa [Lane.inFlight, (settleRow_dotns now w row).1] using h
  · simp only [Lane.inFlight, (settleRow_people now w row).2.2, decide_eq_true_eq] at h ⊢
    split at h
    · cases h
    · exact h
  · exact absurd rfl hne

theorem Tracked.env (h : Tracked db bs) (hf : Fenced N db bs) (he : LeasesEvolve db db')
    (hrows : ∀ {l id row'}, db'.row? id = some row' → Lane.inFlight l row' = true →
      ∃ row, db.row? id = some row ∧ l.inFlight row = true) : Tracked db' bs := by
  refine ⟨fun {p b g l} hb hg hheld hswept hfailed => ?_⟩
  obtain ⟨hasked, hmem⟩ := h.todo hb hg (hf.held he hb hg hheld) hswept hfailed
  refine ⟨hasked, fun hrow' hflight' => ?_⟩
  obtain ⟨row, hrow, hflight⟩ := hrows hrow' hflight'
  exact hmem hrow hflight

theorem Tracked.admin (h : Tracked db bs) (hf : Fenced N db bs) (he : LeasesEvolve db db')
    (ha : Admin db db') : Tracked db' bs := by
  refine h.env hf he fun {l id row'} hrow' hflight => ?_
  obtain ⟨row, hrow, hs⟩ := ha.back hrow'
  exact ⟨row, hrow, inFlight_shifted hs hflight⟩

theorem Tracked.added {id : Nat} {r : NewReservation} {device : Option (FixedBytes 32)}
    (h : Tracked db bs) (hf : Fenced N db bs) (he : LeasesEvolve db db')
    (ha : Added id r device db db') : Tracked db' bs := by
  refine h.env hf he fun {l i row'} hrow' hflight => ?_
  by_cases hi : i = id
  · subst hi
    obtain ⟨new, hnew, _, _, _, hstatus, hdotns⟩ := ha.row
    obtain rfl : new = row' := by simpa [hnew] using hrow'
    cases l with
    | people =>
      rcases List.mem_pair.mp hstatus with hs | hs <;> simp [Lane.inFlight, hs] at hflight
    | dotns =>
      simp only [Lane.inFlight, hdotns, decide_eq_true_eq] at hflight
      split at hflight <;> cases hflight
  · exact ⟨row', (ha.others i hi).symm.trans hrow', hflight⟩

/-- One writer's book changes; of its own rows the new book has to know. -/
theorem Tracked.update (h : Tracked db bs)
    (hown : ∀ {g l}, b'.guard = some g → db.held g = true → (b'.lanes l).swept = true →
      (b'.lanes l).failed = false → (b'.lanes l).asked = true ∧
        ∀ {id row}, db.row? id = some row → l.inFlight row = true →
          id ∈ (b'.lanes l).todo.map Reservation.id) :
    Tracked db (Function.update bs p (some b')) := by
  refine ⟨fun {q c g l} hc hg hheld hswept hfailed => ?_⟩
  rcases of_update hc with ⟨rfl, ⟨⟩⟩ | ⟨_, hc⟩
  · exact hown hg hheld hswept hfailed
  · exact h.todo hc hg hheld hswept hfailed

/-- A write that went through: nobody else's guard is held, and the flags of the lanes stay. -/
theorem Tracked.wrote {f : Row → Row} {dev : List Device → List Device} {id : Nat}
    (h : Tracked db bs) (hf : Fenced N db bs) (hb : bs p = some b) (hg : b.guard = some g)
    (hw : db.Wrote g id f dev true db')
    (hflags : ∀ l, (b'.lanes l).asked = (b.lanes l).asked ∧
      (b'.lanes l).swept = (b.lanes l).swept ∧ (b'.lanes l).failed = (b.lanes l).failed)
    (hown : ∀ {l i row}, l.inFlight (if i = id then f row else row) = true →
      (l.inFlight row = true → i ∈ (b.lanes l).todo.map Reservation.id) →
        i ∈ (b'.lanes l).todo.map Reservation.id) :
    Tracked db' (Function.update bs p (some b')) := by
  have hheld := (hw.ok_iff.mp rfl).1
  refine ⟨fun {q c g' l} hc hg' hheld' hswept hfailed => ?_⟩
  rcases of_update hc with ⟨rfl, ⟨⟩⟩ | ⟨hne, hc⟩
  · obtain ⟨hasked', hswept', hfailed'⟩ := hflags l
    obtain ⟨hasked, hmem⟩ := h.todo hb hg hheld (hswept' ▸ hswept) (hfailed' ▸ hfailed)
    refine ⟨hasked'.trans hasked, fun {i row'} hrow' hflight => ?_⟩
    rw [hw.row?_eq i] at hrow'
    cases hi : db.row? i with
    | none => simp [hi] at hrow'
    | some row =>
      have heq : row' = if i = id then f row else row := by
        by_cases hid : i = id <;> simp [hid, hi] at hrow' ⊢ <;> simp_all
      exact hown (heq ▸ hflight) (hmem hi)
  · have hheld₀ : db.held g' = true := by
      rwa [Db.held, hw.now_eq, hw.leases_eq] at hheld'
    exact absurd (hf.alone hc hb hg' hg hheld₀ hheld) hne

theorem Tracked.did (h : Tracked db bs) (hf : Fenced N db bs) (hb : bs p = some b)
    (hd : Did N db b e db' b') : Tracked db' (Function.update bs p (some b')) := by
  cases hd with
  | acquired holderId ttl epoch done book =>
    subst book
    obtain ⟨_, rfl⟩ := Prod.mk.inj done
    exact (h.admin hf (tryAcquire_evolves db N holderId ttl) (.of_eq rfl rfl)).update nofun
  | dropped admin evolves book =>
    subst book
    exact (h.admin hf evolves admin).update nofun
  | claimed l limit rows ready reads same book =>
    subst same book
    refine h.update fun {g l'} hg hheld hswept hfailed => ?_
    rcases eq_or_ne l' l with rfl | hne
    · simp only [Book.logged_lanes, Book.onLane_self, Book.opened] at hswept hfailed ⊢
      obtain ⟨hasked, hmem⟩ := h.todo hb hg hheld hswept hfailed
      -- the lane may be claimed from, so nothing of it is left over
      have hempty : (b.lanes l').todo = [] := by
        rcases ready.2 hasked with hf | hs
        · rw [hfailed] at hf
          cases hf
        · exact hs.2
      refine ⟨hasked, fun hrow hflight => ?_⟩
      have := hmem hrow hflight
      simp [hempty] at this
    · simp only [Book.logged_lanes, Book.onLane_ne hne] at hswept hfailed ⊢
      exact h.todo hb hg hheld hswept hfailed
  | swept l rows reads same book =>
    subst same book
    refine h.update fun {g l'} hg hheld hswept hfailed => ?_
    rcases eq_or_ne l' l with rfl | hne
    · simp only [Book.logged_lanes, Book.onLane_self, Book.opened]
      refine ⟨trivial, fun {id row} hrow hflight => ?_⟩
      have hmem := List.mem_map_of_mem (f := rowToReservation) (reads.all hrow hflight)
      exact List.mem_map.mpr ⟨_, hmem, Db.row?_id hrow⟩
    · simp only [Book.logged_lanes, Book.onLane_ne hne] at hswept hfailed ⊢
      exact h.todo hb hg hheld hswept hfailed
  | marked l g r tx ok came guard todo wrote book =>
    subst book
    cases ok with
    | false =>
      rw [wrote.refused rfl]
      exact h.update fun {g l} hg hheld hswept hfailed =>
        (h.todo (g := g) (l := l) hb hg hheld hswept hfailed :)
    | true =>
      refine h.wrote hf hb guard wrote (fun l' => ?_) fun {l' i row} hflight hmem => ?_ <;>
        rcases eq_or_ne l' l with rfl | hne
      · simp [Book.markNoted]
      · simp [Book.onLane_ne hne]
      · simp only [if_true, Book.logged_lanes, Book.onLane_self, Book.markNoted]
        split at hflight
        · next hi => exact hi ▸ List.mem_map_of_mem todo
        · exact hmem hflight
      · simp only [if_true, Book.logged_lanes, Book.onLane_ne hne]
        split at hflight
        · exact hmem (inFlight_mark_ne hne ▸ hflight)
        · exact hmem hflight
  | settled l g r w ok came guard todo charge wrote book =>
    subst book
    cases ok with
    | false =>
      rw [wrote.refused rfl]
      exact h.update fun {g l} hg hheld hswept hfailed =>
        (h.todo (g := g) (l := l) hb hg hheld hswept hfailed :)
    | true =>
      refine h.wrote hf hb guard wrote (fun l' => ?_) fun {l' i row} hflight hmem => ?_ <;>
        rcases eq_or_ne l' l with rfl | hne
      · simp [Book.settledNoted]
      · simp [Book.onLane_ne hne]
      · simp only [if_true, Book.logged_lanes, Book.onLane_self, Book.settledNoted]
        split at hflight
        · simp [inFlight_settle] at hflight
        · next hi =>
          obtain ⟨r', hr', rfl⟩ := List.mem_map.mp (hmem hflight)
          exact List.mem_map_of_mem (List.mem_filter.mpr ⟨hr', by simpa using hi⟩)
      · simp only [if_true, Book.logged_lanes, Book.onLane_ne hne]
        split at hflight
        · exact hmem (inFlight_settle_ne hne hflight)
        · exact hmem hflight
  | quiet admin evolves book =>
    refine (h.admin hf evolves admin).update fun {g l} hg hheld hswept hfailed => ?_
    rw [book.guard] at hg
    rw [book.swept] at hswept
    obtain ⟨hasked, hmem⟩ :=
      (h.admin hf evolves admin).todo hb hg hheld hswept (book.failed l hfailed)
    exact ⟨book.asked l hasked, book.todo l ▸ hmem⟩

theorem Tracked.does {ev : FleetEvent} (h : Tracked db bs) (hf : Fenced N db bs)
    (hd : ev.Does db db') : Tracked db' bs := by
  have he := FleetEvent.Does.evolves hd
  obtain ⟨ha, -⟩ | ⟨id, r, group, device, -, ha⟩ := FleetEvent.Does.cases hd
  · exact h.admin hf he ha
  · exact h.added hf he ha

theorem Tracked.killed (h : Tracked db bs) : Tracked db (Function.update bs p none) :=
  ⟨fun hc => h.todo (of_update_none hc).2⟩

theorem reachable_tracked (r : Reachable (Fleet N) (Db.empty t₀) ls s) :
    Tracked s.st (s.watch (discipline N) Book.new) :=
  Reachable.inv fleet_bound (fun _ db bs => Tracked db bs) ⟨nofun⟩
    { op _ _ _ _ _ _ _ r h hb hok hdone := h.did (reachable_fenced r) hb (did hok hdone)
      env _ _ _ _ r h hdone := h.does (reachable_fenced r) hdone
      start _ _ _ _ h _ := h.update nofun
      kill _ _ _ _ _ h hdone := hdone ▸ h.killed } r

/-! ### No row stranded -/

def claimsFrom (l : Lane) : Ask → Bool
  | .stmt (.claim l' _) => l' = l
  | _ => false

/-- The writer is about to claim from the lane, with its link up and under a guard that is held, in an
    epoch whose startup reconcile reported no failure for the lane. -/
def passStarts (s : FleetSys) (p : Nat) (l : Lane) : Bool :=
  (s.upcoming p).any (claimsFrom l) && (s.hist p).any fun h =>
    (guardIn h).any (fun g => s.st.held g) && !(epochIn h).any fun e => reconcileFails l e.1

/-- The lane's link was up when the startup reconcile of the epoch ran, which then read the rows in
    flight. The People lane's always is. -/
def linkWasUp (s : FleetSys) (p : Nat) (l : Lane) : Bool :=
  l = .people || (s.hist p).any fun h => (epochIn h).any fun e => sweeps l e.1

/-- When a pass of a lane starts no row is in flight in it, unless the startup reconcile of the epoch
    failed for the lane or found its link down. -/
theorem pass_starts_clean (r : Reachable (Fleet N) (Db.empty t₀) ls s) {p : Nat} {l : Lane}
    (hstart : passStarts s p l = true) (hup : linkWasUp s p l = true) :
    ∀ id row, s.st.row? id = some row → l.inFlight row = false := by
  simp only [passStarts, Bool.and_eq_true, Option.any_eq_true, Bool.not_eq_true'] at hstart
  obtain ⟨⟨o, hnext, hclaims⟩, h, hhist, ⟨g, hg, hheld⟩, hreconciled⟩ := hstart
  obtain ⟨limit, rfl⟩ : ∃ limit, o = .stmt (.claim l limit) := by
    unfold claimsFrom at hclaims
    split at hclaims
    · next l' limit => exact ⟨limit, by rw [of_decide_eq_true hclaims]⟩
    · cases hclaims
  obtain ⟨_, hready⟩ := (Reachable.trusted fleet_bound r).upcoming hnext hhist
  have hw : s.watch (discipline N) Book.new p = some (h.foldl Book.next Book.new) := by
    rw [Sys.watch, hhist]
    rfl
  have hflags := flags_eq h l
  simp only [Book.flags, Prod.mk.injEq, hreconciled] at hflags
  have hasked : ((h.foldl Book.next Book.new).lanes l).asked = true := by
    cases l with
    | people => exact hready.1 rfl
    | dotns => exact hflags.1.trans (by simpa [linkWasUp, hhist] using hup)
  obtain hfailed | ⟨hswept, htodo⟩ := hready.2 hasked
  · rw [show ((h.foldl Book.next Book.new).lanes l).failed = true from hfailed] at hflags
    cases hflags.2
  · intro id row hrow
    rw [← Bool.not_eq_true]
    intro hflight
    have hmem := ((reachable_tracked r).todo hw ((guard_eq_guardIn h).trans hg) hheld hswept
      hflags.2).2 hrow hflight
    rw [show ((h.foldl Book.next Book.new).lanes l).todo = [] from htodo] at hmem
    simp at hmem

/-- A first writer is lost with the dotNS half of the row of `alice` in flight, and a second one takes
    over. -/
def lostInFlight : Script :=
  [.env (.commitClaim 1 aliceClaim none none), .start 0 (testWriter "writer-1", 2)] ++ goes 0 31 ++
    [.kill 0, .env (.tick 31000000), .start 1 (testWriter "writer-2", 2)]

/-- If Asset Hub cannot be reached when the second writer reconciles, but is when its first pass
    starts, the row is still in flight then, and no claim will return it. -/
theorem stranded_in_flight : ∃ ls s,
    Reachable (Fleet "chain-writer") (Db.empty claimedAt) ls s ∧ passStarts s 1 .dotns = true ∧
    ∃ row, s.st.row? 1 = some row ∧ Lane.dotns.inFlight row = true := by
  obtain ⟨ls, s, r, htest⟩ := (player "chain-writer").reaches (Db.empty claimedAt)
    (lostInFlight ++ goes 1 3 ++ [.op 1 (.fails "connection refused"), .env (.tick 29000000),
      .op 1 .smooth, .env (.tick 2000000)] ++ goes 1 8)
    (fun _ s => passStarts s 1 .dotns && (s.st.row? 1).any Lane.dotns.inFlight) (by decide +kernel)
  rw [Bool.and_eq_true, Option.any_eq_true] at htest
  exact ⟨ls, s, r, htest⟩

/-- With Asset Hub up from the start, the second writer puts the row back and its pass starts clean. -/
theorem pass_starts_clean_reconciled : ∃ ls s,
    Reachable (Fleet "chain-writer") (Db.empty claimedAt) ls s ∧ passStarts s 1 .dotns = true ∧
    linkWasUp s 1 .dotns = true ∧
    (s.st.row? 1).any (fun row => row.dotnsStatus = some .retryAfter) = true ∧
    ∀ id row, s.st.row? id = some row → Lane.dotns.inFlight row = false := by
  obtain ⟨ls, s, r, htest⟩ := (player "chain-writer").reaches (Db.empty claimedAt)
    (lostInFlight ++ goes 1 16)
    (fun _ s => passStarts s 1 .dotns && (linkWasUp s 1 .dotns &&
      (s.st.row? 1).any fun row => row.dotnsStatus = some .retryAfter)) (by decide +kernel)
  simp only [Bool.and_eq_true] at htest
  exact ⟨ls, s, r, htest.1, htest.2.1, htest.2.2, pass_starts_clean r htest.1 htest.2.1⟩

end DeviceUniqueness
