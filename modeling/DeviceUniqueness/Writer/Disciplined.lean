import DeviceUniqueness.Writer.Discipline

/-! Every writer keeps the discipline: one specification per function.

    `Left l b rows` says that the rows a lane still has under way are exactly `rows`; the functions
    of a pass hand it from one to the next until nothing is left. A function that fails says only
    which lane it was in, because the loop above it takes the lease anew, or reports the reconcile
    as failed. -/

namespace DeviceUniqueness

open Function Schemes

variable {α β σ : Type} {N : String} {cx : Cx} {l : Lane} {s : σ} {b b' : Book} {r : Reservation}

/-- The rows of the lane that are not settled yet. -/
structure Left (l : Lane) (b : Book) (rows : List Reservation) : Prop where
  nodup : (rows.map Reservation.id).Nodup
  iff : ∀ r, r ∈ (b.lanes l).todo ↔ r ∈ rows

/-- The row was settled, and only it. -/
def Settled (l : Lane) (r : Reservation) (b b' : Book) : Prop :=
  (b'.lanes l).todo = (b.lanes l).todo.filter fun r' => r'.id ≠ r.id

theorem Left.mem {rows : List Reservation} (h : Left l b rows) {r : Reservation} (hr : r ∈ rows) :
    r ∈ (b.lanes l).todo :=
  (h.iff r).mpr hr

theorem Left.notes {rows : List Reservation} (h : Left l b rows) (hn : Notes l b b') :
    Left l b' rows :=
  ⟨h.nodup, fun r => by rw [hn.todo]; exact h.iff r⟩

theorem Left.settled {u v : List Reservation} (h : Left l b (u ++ r :: v))
    (hs : Settled l r b b') : Left l b' (u ++ v) := by
  have hnodup := h.nodup
  rw [List.map_append, List.map_cons, List.nodup_middle, List.nodup_cons, ← List.map_append]
    at hnodup
  refine ⟨hnodup.2, fun r' => ?_⟩
  rw [hs, List.mem_filter, h.iff]
  simp only [decide_eq_true_eq, List.mem_append, List.mem_cons, ne_eq]
  constructor
  · rintro ⟨h | rfl | h, hne⟩
    · exact Or.inl h
    · exact absurd rfl hne
    · exact Or.inr h
  · intro hmem
    refine ⟨hmem.elim Or.inl fun h => Or.inr (Or.inr h), fun hid => hnodup.1 ?_⟩
    rw [← hid]
    exact List.mem_map_of_mem (List.mem_append.mpr hmem)

theorem Left.perm {rows rows' : List Reservation} (h : Left l b rows) (hp : rows.Perm rows') :
    Left l b rows' :=
  ⟨(hp.map _).nodup_iff.mp h.nodup, fun r => (h.iff r).trans hp.mem_iff⟩

theorem Left.nil_iff : Left l b [] ↔ (b.lanes l).todo = [] := by
  constructor
  · intro h
    exact List.eq_nil_iff_forall_not_mem.mpr fun r hr => by simpa using (h.iff r).mp hr
  · intro h
    exact ⟨by simp, by simp [h]⟩

/-! ### The monitor on single events -/

@[simp] theorem discipline_next (e : Ev Outside) : (discipline N).next b e = b.next e := rfl

theorem Onward.logged (h : Onward l b b') (since : Hist) : Onward l b (b'.logged since) :=
  ⟨h.guard, h.lost, h.others, h.marked, h.owed, h.asked, h.swept, h.failed⟩

theorem Notes.logged (h : Notes l b b') (since : Hist) : Notes l b (b'.logged since) :=
  ⟨h.toOnward.logged since, h.todo⟩

theorem Onward.of_logged {since : Hist} (h : Onward l (b.logged since) b') : Onward l b b' :=
  ⟨h.guard, h.lost, h.others, h.marked, h.owed, h.asked, h.swept, h.failed⟩

theorem markNoted_notes : Notes l b (b.onLane l (Book.markNoted r)) := by
  refine ⟨⟨rfl, fun h => h, fun l' hl => update_of_ne hl _ _, ?_, ?_, ?_, ?_, ?_⟩, ?_⟩ <;>
    simp [Book.onLane, Book.markNoted]

theorem oweNoted_notes : Notes l b (b.onLane l (Book.oweNoted r)) := by
  refine ⟨⟨rfl, fun h => h, fun l' hl => update_of_ne hl _ _, ?_, ?_, ?_, ?_, ?_⟩, ?_⟩ <;>
    simp [Book.onLane, Book.oweNoted]

theorem settledNoted_onward : Onward l b (b.onLane l (Book.settledNoted r)) := by
  refine ⟨rfl, fun h => h, fun l' hl => update_of_ne hl _ _, ?_, ?_, ?_, ?_, ?_⟩ <;>
    simp [Book.onLane, Book.settledNoted]

theorem mem_markNoted : r.id ∈ ((b.onLane l (Book.markNoted r)).lanes l).marked := by
  simp [Book.onLane, Book.markNoted]

theorem mem_oweNoted : r.id ∈ ((b.onLane l (Book.oweNoted r)).lanes l).owed := by
  simp [Book.onLane, Book.oweNoted]

theorem settledNoted_settled : Settled l r b (b.onLane l (Book.settledNoted r)) := by
  simp [Book.onLane, Book.settledNoted, Settled]

/-- The step keeps to the discipline, goes on in its lane and leaves the book as `P` says. -/
abbrev Proceeds {σ ε α : Type} (N : String) (l : Lane) (s : σ) (b : Book) (m : Act Outside σ ε α)
    (P : Book → α → Prop) : Prop :=
  m.Sat (discipline N) s b (fun b' x _ => Onward l b b' ∧ P b' x) fun b' _ _ => Onward l b b'

/-- What is done after the lane has got to `b'` is done after `b`. -/
theorem sat_onward {ε : Type} {m : Act Outside σ ε α} {P : Book → α → Prop} (hon : Onward l b b')
    (h : Proceeds N l s b' m P) :
    m.Sat (discipline N) s b' (fun b'' x _ => Onward l b b'' ∧ P b'' x)
      fun b'' _ _ => Onward l b b'' :=
  h.mono (fun _ _ _ h => ⟨hon.trans h.1, h.2⟩) fun _ _ _ h => hon.trans h

/-! ### Recording -/

theorem write_allowed {w : Write} {doing : Op} (hg : b.guard = some cx.guard)
    (hr : r ∈ (b.lanes l).todo) (hc : ChargeOk b l r w) :
    Proceeds N l s b (write cx l r w doing) fun b' _ => Settled l r b b' := by
  simp only [write, Act.sat_bind]
  refine sat_dbCall.mpr ⟨⟨hg, hr, hc⟩, fun reply _ => ⟨fun done hdone => ?_, fun e he => ?_⟩⟩
  · obtain rfl := Reply.seen_eq_ok.mp hdone
    cases done with
    | true => exact ⟨settledNoted_onward.logged _, settledNoted_settled⟩
    | false => exact (Onward.refl l b).logged _
  · rcases reply with out | ⟨_ | _, err⟩ | err
    · cases he
    · exact (Onward.refl l b).logged _
    · exact settledNoted_onward.logged _
    · exact (Onward.refl l b).logged _

/-- What a charged outcome needs. -/
def OutcomeOk (b : Book) (l : Lane) (r : Reservation) : Outcome → Prop
  | .retry reason => Earned b l r reason
  | _ => True

theorem record_allowed {o : Outcome} (hg : b.guard = some cx.guard) (hr : r ∈ (b.lanes l).todo)
    (ho : OutcomeOk b l r o) :
    Proceeds N l s b (record cx l r o) fun b' _ => Settled l r b b' := by
  cases o with
  | landed | observed => exact write_allowed hg hr trivial
  | retry reason =>
    refine ⟨trivial, fun t _ => ?_⟩
    refine (write_allowed (b := b.logged (b.since ++ [⟨.nowUtc, t⟩])) (w := .retry _ _ reason)
      hg hr (Or.inr ⟨rfl, ho⟩)).mono ?_ fun _ _ _ h => h.of_logged
    exact fun _ _ _ h => ⟨h.1.of_logged, h.2⟩
  | park reason =>
    refine ⟨trivial, fun t _ => ?_⟩
    refine (write_allowed (b := b.logged (b.since ++ [⟨.nowUtc, t⟩])) (w := .retry _ _ reason)
      hg hr (Or.inl rfl)).mono ?_ fun _ _ _ h => h.of_logged
    exact fun _ _ _ h => ⟨h.1.of_logged, h.2⟩
  | defer until_ reason cause => exact write_allowed hg hr (w := .retry _ _ reason) (Or.inl rfl)
  | failed reason | expired reason => exact write_allowed hg hr trivial

/-- Recording the rows of a list, one after another, leaves the rest. -/
theorem forEach_allowed (key : α → Reservation) (rest : List Reservation)
    {f : α → Act Outside σ WriterError Unit} {xs : List α} (hg : b.guard = some cx.guard)
    (hleft : Left l b (xs.map key ++ rest))
    (turn : ∀ x ∈ xs, ∀ b' s, Onward l b b' → b'.guard = some cx.guard →
      key x ∈ (b'.lanes l).todo →
      Proceeds N l s b' (f x) fun b'' _ => Settled l (key x) b' b'') :
    Proceeds N l s b (Act.forEach f xs) fun b' _ => Left l b' rest := by
  refine (Act.sat_forEach (fun ys b' _ => (Onward l b b' ∧ Left l b' (ys.map key ++ rest)) ∧
    ∀ y ∈ ys, y ∈ xs) ?_ ⟨⟨Onward.refl l b, hleft⟩, fun _ hy => hy⟩).weaken
    (fun _ _ _ h => h.1)
  rintro x ys b' s ⟨⟨hon, hl⟩, hmem⟩
  have hx := hl.mem (r := key x) (by simp)
  refine (turn x (hmem x (List.mem_cons_self ..)) b' s hon (hon.guard.trans hg) hx).mono ?_
    fun _ _ _ h => hon.trans h
  rintro b'' _ _ ⟨hon', hs⟩
  exact ⟨⟨hon.trans hon', hl.settled (u := []) hs⟩, fun y hy => hmem y (List.mem_cons_of_mem _ hy)⟩

/-- A loop that settles some rows and keeps the others leaves the ones it kept. -/
theorem collect_allowed (key : α → Reservation) (kept : β → Reservation)
    {f : α → Act Outside σ WriterError (Option β)} {xs : List α} (hg : b.guard = some cx.guard)
    (hleft : Left l b (xs.map key))
    (turn : ∀ x ∈ xs, ∀ b' s, Onward l b b' → b'.guard = some cx.guard →
      key x ∈ (b'.lanes l).todo →
      (f x).Sat (discipline N) s b'
        (fun b'' y _ => (∃ z, y = some z ∧ kept z = key x ∧ b'' = b') ∨
          (y = none ∧ Onward l b' b'' ∧ Settled l (key x) b' b''))
        (fun b'' _ _ => Onward l b' b'')) :
    Proceeds N l s b (Act.collect f xs) fun b' ys => Left l b' (ys.map kept) := by
  refine (Act.sat_collect (fun zs ys b' _ =>
    (Onward l b b' ∧ Left l b' (ys.map kept ++ zs.map key)) ∧ ∀ z ∈ zs, z ∈ xs) ?_
    ⟨⟨Onward.refl l b, hleft⟩, fun _ hz => hz⟩).weaken ?_
  · rintro x zs ys b' s ⟨⟨hon, hl⟩, hmem⟩
    have hx := hl.mem (r := key x) (by simp)
    refine (turn x (hmem x (List.mem_cons_self ..)) b' s hon (hon.guard.trans hg) hx).mono ?_
      fun _ _ _ h => hon.trans h
    have hmem' : ∀ z ∈ zs, z ∈ xs := fun z hz => hmem z (List.mem_cons_of_mem _ hz)
    rintro b'' y _ (⟨z, rfl, hz, rfl⟩ | ⟨rfl, hon', hs⟩)
    · exact ⟨⟨hon, by simpa [hz] using hl⟩, hmem'⟩
    · exact ⟨⟨hon.trans hon', by simpa using hl.settled hs⟩, hmem'⟩
  · rintro b' ys _ ⟨⟨hon, hl⟩, _⟩
    exact ⟨hon, by simpa using hl⟩

/-! ### Submitting -/

theorem heartbeat_allowed : (heartbeat cx : Act Outside σ WriterError Bool).Sat (discipline N) s b
    (fun b' _ _ => Same b b') (fun b' _ _ => Same b b') :=
  sat_dbCall.mpr ⟨trivial, fun _ _ => ⟨fun _ _ => ⟨rfl, rfl, rfl⟩, fun _ _ => ⟨rfl, rfl, rfl⟩⟩⟩

variable {rows : List (Reservation × Account)} {tx : Tx} {nonce : Nat} {candidate : Account}

theorem finalize_allowed : ∀ (ticks : Nat) {s : σ} {b : Book},
    (finalize cx l tx ticks : Act Outside σ String Finalized).Sat (discipline N) s b
      (fun b' _ _ => Same b b') (fun b' _ _ => Same b b')
  | 0, _, b => Same.refl b
  | ticks + 1, _, b => by
      simp only [finalize, Act.sat_bind]
      refine Act.sat_op.mpr ⟨trivial, fun a _ => ?_⟩
      have hwait : Same b (b.next ⟨.awaitFinalized l tx, a⟩) := ⟨rfl, rfl, rfl⟩
      cases a with
      | done verdict =>
        rw [Act.sat_ofExcept]
        exact ⟨fun _ _ => hwait, fun _ _ => hwait⟩
      | timeout => exact hwait
      | renew =>
        simp only [Act.sat_bind, Act.sat_mapError]
        refine heartbeat_allowed.mono ?_ fun _ _ _ h => hwait.trans h
        intro b' kept _ hb
        cases kept with
        | true =>
          exact (finalize_allowed ticks).mono (fun _ _ _ h => (hwait.trans hb).trans h)
            fun _ _ _ h => (hwait.trans hb).trans h
        | false => exact hwait.trans hb

theorem submit_allowed : (submit cx l tx : Act Outside σ String Finalized).Sat (discipline N) s b
      (fun b' _ _ => Same b b') (fun b' _ _ => Same b b') := by
  simp only [submit, Act.sat_bind, Act.sat_ofExcept]
  refine Act.sat_op.mpr ⟨trivial, fun sent _ => ?_⟩
  have hsent : Same b (b.next ⟨.submitAndWatch l tx, sent⟩) := ⟨rfl, rfl, rfl⟩
  exact ⟨fun _ _ => (finalize_allowed _).mono (fun _ _ _ h => hsent.trans h)
    fun _ _ _ h => hsent.trans h, fun _ _ => hsent⟩

/-- A read or a signature that failed is noted when it was for a lone row. -/
theorem sign_allowed : (sign cx l nonce rows : Act Outside σ String Tx).Sat (discipline N) s b
      (fun b' tx _ => Notes l b b' ∧ tx.rows = rows.map Prod.fst)
      (fun b' _ _ => Notes l b b' ∧
        ∀ r, rows.map Prod.fst = [r] → r.id ∈ (b'.lanes l).owed) := by
  simp only [sign, Act.sat_bind, Act.sat_ofExcept, Act.sat_pure]
  refine Act.sat_op.mpr ⟨trivial, fun a _ => ⟨fun hash h => ?_, fun e h => ?_⟩⟩ <;> subst h
  · refine ⟨?_, trivial⟩
    rcases rows with _ | ⟨row, _ | ⟨row', rows⟩⟩ <;> exact (Notes.refl l b).logged _
  · rcases rows with _ | ⟨row, _ | ⟨row', rows⟩⟩
    · exact ⟨(Notes.refl l b).logged _, by simp⟩
    · refine ⟨oweNoted_notes.logged _, ?_⟩
      rintro r ⟨⟩
      exact mem_oweNoted
    · exact ⟨(Notes.refl l b).logged _, by simp⟩

theorem mark_allowed (hg : b.guard = some cx.guard) (hr : r ∈ (b.lanes l).todo) :
    (mark cx l r tx : Act Outside σ WriterError Unit).Sat (discipline N) s b
      (fun b' _ _ => Notes l b b' ∧ r.id ∈ (b'.lanes l).marked)
      (fun b' _ _ => Notes l b b' ∧ (tx.rows = [r] → ∀ err, Earned b' l r err)) := by
  simp only [mark, Act.sat_bind]
  refine sat_dbCall.mpr ⟨⟨hg, hr, rfl⟩, fun reply _ => ⟨fun done hdone => ?_, fun e he => ?_⟩⟩
  · obtain rfl := Reply.seen_eq_ok.mp hdone
    cases done with
    | true => exact ⟨markNoted_notes.logged _, mem_markNoted⟩
    | false => exact ⟨⟨⟨rfl, fun _ => rfl, fun _ _ => rfl, fun _ h => h, fun _ h => h, rfl, rfl, rfl⟩, rfl⟩,
        fun _ _ => Or.inr (Or.inr (Or.inl rfl))⟩
  · rcases reply with out | ⟨_ | _, err⟩ | err
    · cases he
    · exact ⟨⟨⟨rfl, fun _ => rfl, fun _ _ => rfl, fun _ h => h, fun _ h => h, rfl, rfl, rfl⟩, rfl⟩,
        fun _ _ => Or.inr (Or.inr (Or.inl rfl))⟩
    · exact ⟨markNoted_notes.logged _, fun _ _ => Or.inl mem_markNoted⟩
    · simp only [discipline_next, Book.next, Book.note]
      split
      · exact ⟨oweNoted_notes.logged _, fun _ _ => Or.inr (Or.inl mem_oweNoted)⟩
      · next hne => exact ⟨(Notes.refl l b).logged _, fun heq => absurd heq hne⟩

theorem submitOne_allowed (hg : b.guard = some cx.guard) (hr : r ∈ (b.lanes l).todo) :
    (submitOne cx l nonce r candidate : Act Outside σ String Unit).Sat (discipline N) s b
      (fun b' _ _ => Notes l b b')
      (fun b' _ _ => Notes l b b' ∧ ∀ err, Earned b' l r err) := by
  simp only [submitOne, Act.sat_bind, Act.sat_mapError, Act.sat_ofExcept]
  refine sign_allowed.mono ?_ ?_
  · rintro b₁ tx _ ⟨hn₁, htx⟩
    refine (mark_allowed (hn₁.guard.trans hg) (by rwa [hn₁.todo])).mono ?_ ?_
    · rintro b₂ _ _ ⟨hn₂, hmark⟩
      have hn := hn₁.trans hn₂
      refine submit_allowed.mono ?_ ?_
      · intro b₃ fin _ hs
        have hn₃ := hn.trans (hs.notes l)
        exact ⟨fun _ _ => hn₃, fun e _ => ⟨hn₃, fun _ => Or.inl ((hs.notes l).marked hmark)⟩⟩
      · intro b₃ e _ hs
        exact ⟨hn.trans (hs.notes l), fun _ => Or.inl ((hs.notes l).marked hmark)⟩
    · rintro b₂ e _ ⟨hn₂, hearned⟩
      exact ⟨hn₁.trans hn₂, hearned htx⟩
  · rintro b₁ e _ ⟨hn₁, howed⟩
    exact ⟨hn₁, fun _ => Or.inr (Or.inl (howed r rfl))⟩

theorem submitBatch_allowed (hg : b.guard = some cx.guard)
    (hr : ∀ row ∈ rows, row.1 ∈ (b.lanes l).todo) :
    (submitBatch cx l nonce rows : Act Outside σ String _).Sat (discipline N) s b
      (fun b' _ _ => Notes l b b' ∧ ∀ row ∈ rows, row.1.id ∈ (b'.lanes l).marked)
      (fun b' _ _ => Notes l b b') := by
  simp only [submitBatch, Act.sat_bind, Act.sat_ofExcept]
  refine sign_allowed.mono ?_ fun _ _ _ h => h.1
  rintro b₁ tx _ ⟨hn₁, _⟩
  -- every row the marking loop has passed is marked
  refine (Act.sat_forEach (fun ys b' _ => Notes l b b' ∧
    (∀ row ∈ rows, row ∈ ys ∨ row.1.id ∈ (b'.lanes l).marked) ∧ ∀ y ∈ ys, y ∈ rows) ?_
    ⟨hn₁, fun _ h => Or.inl h, fun _ h => h⟩).weaken ?_
  · rintro row ys b' s ⟨hn, hmarked, hmem⟩
    rw [Act.sat_mapError]
    refine (mark_allowed (hn.guard.trans hg)
      (by rw [hn.todo]; exact hr row (hmem row (List.mem_cons_self ..)))).mono ?_
      fun _ _ _ h => hn.trans h.1
    rintro b'' _ _ ⟨hn', hm⟩
    refine ⟨hn.trans hn', fun row' hrow' => ?_, fun y hy => hmem y (List.mem_cons_of_mem _ hy)⟩
    rcases hmarked row' hrow' with h | h
    · rcases List.mem_cons.mp h with rfl | h
      · exact Or.inr hm
      · exact Or.inl h
    · exact Or.inr (hn'.marked h)
  · rintro b₂ _ _ ⟨hn₂, hmarked, _⟩
    refine submit_allowed.mono ?_ fun _ _ _ hs => hn₂.trans (hs.notes l)
    intro b₃ fin _ hs
    have hn₃ := hn₂.trans (hs.notes l)
    refine ⟨fun _ _ => ⟨fun _ _ => ⟨hn₃, fun row hrow => ?_⟩, fun _ _ => hn₃⟩, fun _ _ => hn₃⟩
    rcases hmarked row hrow with h | h
    · cases h
    · exact (hs.notes l).marked h

namespace Drain

variable {d : Drain l}
variable {reason : String} {ε : Type}

theorem defer_allowed {rows : List Reservation} {backoff : Time} (hg : b.guard = some cx.guard)
    (hleft : Left l b rows) : Proceeds N l d b (defer cx rows backoff reason)
      fun b' _ => Left l b' [] := by
  refine ⟨trivial, fun t _ => ?_⟩
  have hlogged := (Notes.refl l b).logged (b.since ++ [⟨.nowUtc, t⟩])
  exact sat_onward hlogged.toOnward (forEach_allowed id [] (b := b.logged _) hg
    (by simpa using hleft.notes hlogged) fun r _ b' s _ hg' hr => record_allowed hg' hr trivial)

theorem retryBatch_allowed {rows : List Reservation} (hg : b.guard = some cx.guard)
    (hleft : Left l b rows) : Proceeds N l d b (retryBatch cx rows reason)
      fun b' _ => Left l b' [] := by
  simp only [retryBatch, Act.sat_bind, Act.sat_get, Act.sat_modify]
  exact defer_allowed hg hleft

theorem settle_allowed {observed : Option Account} (hg : b.guard = some cx.guard)
    (hr : r ∈ (b.lanes l).todo) (he : ∀ err, Earned b l r err) :
    Proceeds N l d b (settle cx r candidate observed reason) fun b' _ => Settled l r b b' := by
  unfold settle
  split
  · exact record_allowed hg hr trivial
  · exact record_allowed hg hr trivial
  · exact record_allowed hg hr (he reason)
  · refine ⟨trivial, fun t _ => ?_⟩
    refine (record_allowed (b := b.logged (b.since ++ [⟨.nowUtc, t⟩])) (o := signerDefer t reason)
      hg hr trivial).mono ?_ fun _ _ _ h => h.of_logged
    exact fun _ _ _ h => ⟨h.1.of_logged, h.2⟩
  · exact record_allowed hg hr trivial

theorem nextNonce_allowed {rows : List Reservation} :
    (nextNonce cx rows).Sat (discipline N) d b (fun b' _ _ => Notes l b b')
      (fun b' _ _ => Notes l b b' ∧ ∀ r, rows = [r] → r.id ∈ (b'.lanes l).owed) := by
  simp only [nextNonce, Act.sat_bind, Act.sat_get]
  split
  · exact Notes.refl l b
  · simp only [Act.sat_bind]
    refine Act.sat_op.mpr ⟨trivial, fun a _ => ?_⟩
    cases a with
    | ok n =>
      rcases rows with _ | ⟨row, _ | ⟨row', rows⟩⟩ <;> exact (Notes.refl l b).logged _
    | error e =>
      rcases rows with _ | ⟨row, _ | ⟨row', rows⟩⟩
      · exact ⟨(Notes.refl l b).logged _, by simp⟩
      · refine ⟨oweNoted_notes.logged _, ?_⟩
        rintro r ⟨⟩
        exact mem_oweNoted
      · exact ⟨(Notes.refl l b).logged _, by simp⟩

theorem one_allowed (hg : b.guard = some cx.guard) (hleft : Left l b [r]) :
    Proceeds N l d b (one cx r candidate) fun b' _ => Left l b' [] := by
  -- once the row is settled nothing is left
  have hdone : ∀ {b₁ b₂ : Book}, Notes l b b₁ → Onward l b₁ b₂ ∧ Settled l r b₁ b₂ →
      Onward l b b₂ ∧ Left l b₂ [] := fun hn h =>
    ⟨hn.toOnward.trans h.1, (hleft.notes hn).settled (u := []) h.2⟩
  simp only [one, Act.sat_bind, Act.sat_attempt]
  refine nextNonce_allowed.mono ?_ ?_
  · intro b₁ nonce _ hn₁
    refine (submitOne_allowed (hn₁.guard.trans hg) ((hleft.notes hn₁).mem (by simp))).mono ?_ ?_
    · intro b₂ _ _ hn₂
      have hn := hn₁.trans hn₂
      simp only [succeeded, Act.sat_modify]
      exact (record_allowed (r := r) (o := .landed) (hn.guard.trans hg)
        ((hleft.notes hn).mem (by simp)) trivial).mono (fun _ _ _ h => hdone hn h)
        fun _ _ _ h => hn.toOnward.trans h
    · rintro b₂ reason _ ⟨hn₂, hearned⟩
      have hn := hn₁.trans hn₂
      simp only [resetNonce, Act.sat_modify]
      refine Act.sat_op.mpr ⟨trivial, fun answer _ => ?_⟩
      have hread : Same b₂ (b₂.next ⟨.owner l r.fullUsername, answer⟩) := ⟨rfl, rfl, rfl⟩
      have hn' := hn.trans (hread.notes l)
      exact (settle_allowed (hn'.guard.trans hg) ((hleft.notes hn').mem (by simp))
        fun err => (hearned err).notes (hread.notes l).toOnward).mono
        (fun _ _ _ h => hdone hn' h) fun _ _ _ h => hn'.toOnward.trans h
  · rintro b₁ e _ ⟨hn₁, howed⟩
    exact (record_allowed (r := r) (o := .retry _) (hn₁.guard.trans hg)
      ((hleft.notes hn₁).mem (by simp)) (Or.inr (Or.inl (howed r rfl)))).mono
      (fun _ _ _ h => hdone hn₁ h)
      fun _ _ _ h => hn₁.toOnward.trans h

theorem ownersOf_same {names : List String} {err : Book → ε → σ → Prop} :
    (ownersOf l names : Act Outside σ ε _).Sat (discipline N) s b (fun b' _ _ => Same b b') err :=
  sat_ownersOf (fun _ => Same.refl b) fun _ => ⟨trivial, fun _ _ => ⟨rfl, rfl, rfl⟩⟩

theorem reconcileBatch_allowed (hg : b.guard = some cx.guard)
    (hleft : Left l b (rows.map Prod.fst)) : Proceeds N l d b (reconcileBatch cx rows reason)
      fun b' _ => Left l b' [] := by
  simp only [reconcileBatch, Act.sat_bind]
  refine ownersOf_same.weaken ?_
  intro b₁ answer _ hs
  have hn := hs.notes l
  cases answer with
  | error e =>
    exact sat_onward hn.toOnward (defer_allowed (hn.guard.trans hg) (hleft.notes hn))
  | ok owners =>
    simp only [Act.sat_bind]
    refine (collect_allowed Prod.fst Prod.fst (hn.guard.trans hg)
      (hleft.notes hn) ?_).mono ?_ fun _ _ _ h => hn.toOnward.trans h
    · intro row _ b' s _ hg' hr
      split
      · simp only [Act.sat_bind, Act.sat_pure]
        exact (record_allowed (o := .landed) hg' hr trivial).weaken
          (fun _ _ _ h => Or.inr ⟨trivial, h⟩)
      · exact Or.inl ⟨row, rfl, rfl, rfl⟩
    · rintro b₂ unlanded _ ⟨hon, hleft₂⟩
      have hon₂ := hn.toOnward.trans hon
      split
      · next hempty =>
        rw [List.isEmpty_iff.mp hempty] at hleft₂
        exact ⟨hon₂, hleft₂⟩
      · exact sat_onward hon₂ (defer_allowed (hon₂.guard.trans hg) hleft₂)

theorem apply_allowed {items : List (Except String Unit)} (hg : b.guard = some cx.guard)
    (hleft : Left l b (rows.map Prod.fst)) (hmarked : ∀ row ∈ rows, row.1.id ∈ (b.lanes l).marked) :
    Proceeds N l d b (apply cx rows items) fun b' _ => Left l b' [] := by
  unfold apply
  split
  · exact reconcileBatch_allowed hg hleft
  · next hlen =>
    simp only [Act.sat_bind]
    refine ownersOf_same.weaken ?_
    intro b₁ answer _ hs
    have hn := hs.notes l
    have hkeys : (rows.zip items).map (fun x => x.1.1) = rows.map Prod.fst := by
      rw [← comp_def Prod.fst Prod.fst, ← List.map_map, List.map_fst_zip]
      exact (not_not.mp hlen).ge
    refine sat_onward hn.toOnward (forEach_allowed
      (fun x : (Reservation × Account) × Except String Unit => x.1.1) [] (hn.guard.trans hg)
      (by simpa [hkeys] using hleft.notes hn) ?_)
    rintro ⟨row, item⟩ hmem b' s hon hg' hr
    have hm := hon.marked (hn.marked (hmarked row (List.of_mem_zip hmem).1))
    cases item with
    | ok _ => exact record_allowed hg' hr trivial
    | error reason => exact settle_allowed hg' hr fun _ => Or.inl hm

theorem batchRows_allowed (hg : b.guard = some cx.guard) (hleft : Left l b (rows.map Prod.fst)) :
    Proceeds N l d b (batchRows cx rows) fun b' _ => Left l b' [] := by
  have hretry : ∀ {b₁ : Book} {d : Drain l} {reason : String}, Notes l b b₁ →
      (retryBatch cx (rows.map Prod.fst) reason).Sat (discipline N) d b₁
        (fun b' _ _ => Onward l b b' ∧ Left l b' []) (fun b' _ _ => Onward l b b') := fun hn =>
    sat_onward hn.toOnward (retryBatch_allowed (hn.guard.trans hg) (hleft.notes hn))
  simp only [batchRows, Act.sat_bind, Act.sat_attempt]
  refine nextNonce_allowed.mono ?_ fun _ _ _ h => hretry h.1
  intro b₁ nonce _ hn₁
  refine (submitBatch_allowed (hn₁.guard.trans hg) fun row hrow =>
    (hleft.notes hn₁).mem (List.mem_map_of_mem hrow)).mono ?_ ?_
  · rintro b₂ items _ ⟨hn₂, hmarked⟩
    have hn := hn₁.trans hn₂
    simp only [succeeded, Act.sat_modify]
    exact sat_onward hn.toOnward (apply_allowed (hn.guard.trans hg) (hleft.notes hn) hmarked)
  · intro b₂ e _ hn₂
    simp only [resetNonce, Act.sat_modify]
    exact hretry (hn₁.trans hn₂)

/-! ### The pass -/

theorem submitRows_allowed (hg : b.guard = some cx.guard) (hleft : Left l b (rows.map Prod.fst)) :
    Proceeds N l d b (submitRows cx rows) fun b' _ => Left l b' [] := by
  match rows with
  | [] => exact ⟨Onward.refl l b, hleft⟩
  | [(r, candidate)] => exact one_allowed hg hleft
  | _ :: _ :: _ => exact batchRows_allowed hg hleft

theorem triage_allowed {ctx : l.Ctx} {due : List Reservation} (hg : b.guard = some cx.guard)
    (hleft : Left l b due) :
    Proceeds N l d b (triage cx ctx due) fun b' rows => Left l b' (rows.map Prod.fst) := by
  simp only [triage, Act.sat_mapError, Act.sat_bind]
  refine Act.sat_op.mpr ⟨trivial, fun wall _ => ?_⟩
  have hs₁ : Same b (b.next ⟨.nowUtc, wall⟩) := ⟨rfl, rfl, rfl⟩
  have hn₁ := hs₁.notes l
  refine (collect_allowed id Prod.fst (hn₁.guard.trans hg)
    (by simpa using hleft.notes hn₁) ?_).mono ?_ fun _ _ _ h => hn₁.toOnward.trans h
  · intro r _ b' s _ hg' hr
    unfold gateRow
    split
    · next candidate _ => exact Or.inl ⟨(r, candidate), rfl, rfl, rfl⟩
    · next gate _ =>
      simp only [Act.sat_bind, Act.sat_pure]
      exact (record_allowed (o := gate.outcome) hg' hr (by cases gate <;> trivial)).weaken
        (fun _ _ _ h => Or.inr ⟨trivial, h⟩)
  · rintro b₂ gated _ ⟨hon, hleft₂⟩
    have hon₂ := hn₁.toOnward.trans hon
    split
    · next hempty =>
      rw [List.isEmpty_iff.mp hempty] at hleft₂
      exact ⟨hon₂, hleft₂⟩
    · simp only [Act.sat_bind]
      refine ownersOf_same.weaken ?_
      intro b₃ answer _ hs₃
      have hn₃ := hs₃.notes l
      have hon₃ := hon₂.trans hn₃.toOnward
      cases answer with
      | error e =>
        simp only [Act.sat_bind, Act.sat_pure]
        exact sat_onward hon₃ (retryBatch_allowed (hon₃.guard.trans hg) (hleft₂.notes hn₃))
      | ok owners =>
        refine sat_onward hon₃ (collect_allowed Prod.fst Prod.fst (hon₃.guard.trans hg)
          (hleft₂.notes hn₃) ?_)
        intro row _ b' s _ hg' hr
        unfold checkOwner
        split
        · next owner _ =>
          simp only [Act.sat_bind, Act.sat_pure]
          exact (record_allowed hg' hr (by split <;> trivial)).weaken
            (fun _ _ _ h => Or.inr ⟨trivial, h⟩)
        · exact Or.inl ⟨row, rfl, rfl, rfl⟩

theorem linkUp_same {err : Book → ε → Drain l → Prop} :
    (linkUp : Act Outside (Drain l) ε Bool).Sat (discipline N) d b
      (fun b' up _ => Same b b' ∧ (l = .people → up = true)) err := by
  simp only [linkUp, Act.sat_zoom]
  cases l with
  | people => exact ⟨Same.refl b, fun _ => rfl⟩
  | dotns =>
    simp only [Lane.up, DotnsLink.up, Act.sat_bind, Act.sat_get]
    refine Act.sat_op.mpr ⟨trivial, fun now _ => ?_⟩
    have hs : Same b (b.next ⟨.instantNow, now⟩) := ⟨rfl, rfl, rfl⟩
    split
    · exact ⟨hs, by simp⟩
    · exact ⟨hs, by simp⟩
    · simp only [Act.sat_bind]
      refine Act.sat_op.mpr ⟨trivial, fun a _ => ?_⟩
      cases a <;> exact ⟨⟨rfl, rfl, rfl⟩, by simp⟩

theorem linkCtx_same {err : Book → ε → Drain l → Prop} :
    (linkCtx : Act Outside (Drain l) ε _).Sat (discipline N) d b (fun b' _ _ => Same b b') err := by
  simp only [linkCtx, Act.sat_zoom]
  cases l with
  | people => exact ⟨trivial, fun _ _ => ⟨rfl, rfl, rfl⟩⟩
  | dotns =>
    simp only [Lane.ctx, Act.sat_bind, Act.sat_get]
    split
    · exact Same.refl b
    · simp only [Act.sat_bind]
      refine Act.sat_op.mpr ⟨trivial, fun a _ => ?_⟩
      cases a <;> exact ⟨rfl, rfl, rfl⟩

theorem opened_left (rows : List Reservation) {f : LaneBook → LaneBook}
    (hf : ∀ lb, (f lb).todo = rows) (hnodup : (rows.map Reservation.id).Nodup) (since : Hist) :
    Left l ((b.onLane l f).logged since) rows :=
  ⟨hnodup, fun r => by simp [Book.onLane, Book.logged, hf]⟩

/-- A pass touches only its own lane, and one that ends well leaves it ready to be claimed from. -/
theorem pass_allowed (cx : Cx) (hg : b.guard = some cx.guard) (hready : Ready l (b.lanes l)) :
    (pass cx : Act Outside (Drain l) WriterError Bool).Sat (discipline N) d b
      (fun b' _ _ => b'.guard = b.guard ∧ (∀ l', l' ≠ l → b'.lanes l' = b.lanes l') ∧
        Ready l (b'.lanes l))
      (fun _ _ _ => True) := by
  simp only [pass, Act.sat_bind]
  refine linkUp_same.weaken ?_
  rintro b₁ up d₁ ⟨hs₁, _⟩
  cases up with
  | false => exact ⟨hs₁.guard, fun l' _ => by rw [hs₁.lanes], by rwa [hs₁.lanes]⟩
  | true =>
    simp only [if_true, Act.sat_bind, Act.sat_get]
    have hg₁ : b₁.guard = some cx.guard := hs₁.guard.trans hg
    have hready₁ : Ready l (b₁.lanes l) := by rwa [hs₁.lanes]
    refine sat_dbCall.mpr ⟨⟨by simp [hg₁], hready₁⟩,
      fun reply hadm => ⟨fun due hdue => ?_, fun _ _ => trivial⟩⟩
    obtain rfl := Reply.seen_eq_ok.mp hdue
    simp only [discipline_next]
    generalize hb₂ : b₁.next ⟨.stmt (.claim l d₁.batch.size), Reply.ok due⟩ = b₂
    have hleft₂ : Left l b₂ due := by
      rw [← hb₂]
      exact opened_left due (fun _ => rfl) hadm _
    have hg₂ : b₂.guard = some cx.guard := by rw [← hb₂]; exact hg₁
    -- from here on the lane only has to be emptied
    have hend : ∀ b', Onward l b₂ b' ∧ Left l b' [] →
        b'.guard = b.guard ∧ (∀ l', l' ≠ l → b'.lanes l' = b.lanes l') ∧ Ready l (b'.lanes l) := by
      rintro b' ⟨hon, hleft⟩
      have hlane : (b₂.lanes l) = Book.opened due (b₁.lanes l) := by
        rw [← hb₂]; simp [Book.next, Book.note, Book.onLane, Book.logged]
      refine ⟨(hon.guard.trans hg₂).trans hg.symm, fun l' hl => ?_, ?_, ?_⟩
      · rw [hon.others l' hl, ← hb₂, ← hs₁.lanes]
        exact update_of_ne hl _ _
      · intro hl
        rw [hon.asked, hlane]
        exact hready₁.1 hl
      · intro hasked
        rw [hon.asked, hlane] at hasked
        rw [hon.failed, hon.swept, hlane]
        exact (hready₁.2 hasked).imp id fun h => ⟨h.1, Left.nil_iff.mp hleft⟩
    split
    · next hempty =>
      rw [List.isEmpty_iff.mp hempty] at hleft₂
      exact hend b₂ ⟨Onward.refl l b₂, hleft₂⟩
    · simp only [hold, Act.sat_bind]
      refine heartbeat_allowed.mono ?_ fun _ _ _ _ => trivial
      intro b₃ held _ hs₃
      cases held with
      | false => exact trivial
      | true =>
        refine linkCtx_same.weaken ?_
        intro b₄ ctx _ hs₄
        have hn₄ := (hs₃.trans hs₄).notes l
        cases ctx with
        | error e =>
          simp only [Act.sat_bind, Act.sat_pure]
          exact (retryBatch_allowed (hn₄.guard.trans hg₂) (hleft₂.notes hn₄)).mono
            (fun b' _ _ h => hend b' ⟨hn₄.toOnward.trans h.1, h.2⟩) fun _ _ _ _ => trivial
        | ok ctx =>
          simp only [Act.sat_bind, Act.sat_pure]
          refine (triage_allowed (hn₄.guard.trans hg₂) (hleft₂.notes hn₄)).mono ?_
            fun _ _ _ _ => trivial
          rintro b₅ rows _ ⟨hon₅, hleft₅⟩
          have hon := hn₄.toOnward.trans hon₅
          exact (submitRows_allowed (hon.guard.trans hg₂) hleft₅).mono
            (fun b' _ _ h => hend b' ⟨hon.trans h.1, h.2⟩) fun _ _ _ _ => trivial

/-! ### The startup reconcile -/

theorem flatten_chunks {n : Nat} (hn : 0 < n) : ∀ (fuel : Nat) (xs : List α), xs.length ≤ fuel →
    (chunks.go n fuel xs).flatten = xs
  | 0, xs, h => by simp [List.eq_nil_of_length_eq_zero (Nat.le_zero.mp h), chunks.go]
  | _ + 1, [], _ => rfl
  | fuel + 1, x :: xs, h => by
      have hlen : ((x :: xs).drop n).length ≤ fuel := by simp at h ⊢; omega
      simp [chunks.go, flatten_chunks hn fuel _ hlen]

/-- A chunk whose owners were read is settled; the rows of one that could not be read count as
    unread. -/
theorem reconcileChunk_allowed {unread : Nat} {chunk : List (Reservation × Account)}
    {rest : List Reservation} (hg : b.guard = some cx.guard)
    (hleft : Left l b (chunk.map Prod.fst ++ rest)) :
    (reconcileChunk cx unread chunk : Act Outside (Drain l) WriterError Nat).Sat (discipline N) d b
      (fun b' unread' _ => Onward l b b' ∧ ((unread' = unread ∧ Left l b' rest) ∨
        (unread' = unread + chunk.length ∧ Left l b' (chunk.map Prod.fst ++ rest))))
      (fun b' _ _ => Onward l b b') := by
  simp only [reconcileChunk, Act.sat_bind]
  refine ownersOf_same.weaken ?_
  intro b₁ answer _ hs
  have hn := hs.notes l
  cases answer with
  | error e => exact ⟨hn.toOnward, Or.inr ⟨rfl, hleft.notes hn⟩⟩
  | ok owners =>
    simp only [Act.sat_bind, Act.sat_pure]
    refine (forEach_allowed Prod.fst _ (hn.guard.trans hg) (hleft.notes hn) ?_).mono
      ?_ fun _ _ _ h => hn.toOnward.trans h
    · intro row _ b' s _ hg' hr
      refine record_allowed hg' hr ?_
      split
      · exact trivial
      · exact Or.inr (Or.inr (Or.inr rfl))
    · exact fun _ _ _ h => ⟨hn.toOnward.trans h.1, Or.inl ⟨trivial, h.2⟩⟩

/-- The startup reconcile touches only its own lane. One that ends well leaves it ready, one that
    fails has at least read the rows in flight on the People lane. -/
theorem reconcileSubmitting_allowed (cx : Cx) (hg : b.guard = some cx.guard)
    (hnew : (b.lanes l).asked = false) :
    (reconcileSubmitting cx : Act Outside (Drain l) WriterError Unit).Sat (discipline N) d b
      (fun b' _ _ => b'.guard = b.guard ∧ (∀ l', l' ≠ l → b'.lanes l' = b.lanes l') ∧
        Ready l (b'.lanes l))
      (fun b' _ _ => b'.guard = b.guard ∧ (∀ l', l' ≠ l → b'.lanes l' = b.lanes l') ∧
        (l = .people → (b'.lanes l).asked = true)) := by
  simp only [reconcileSubmitting, Act.sat_bind]
  refine linkUp_same.weaken ?_
  rintro b₁ up d₁ ⟨hs₁, hup⟩
  cases up with
  | false =>
    refine ⟨hs₁.guard, fun l' _ => by rw [hs₁.lanes], fun hl => ?_, fun hasked => ?_⟩
    · cases hup hl
    · rw [hs₁.lanes, hnew] at hasked
      cases hasked
  | true =>
    simp only [if_true, Act.sat_bind]
    have hg₁ : b₁.guard = some cx.guard := hs₁.guard.trans hg
    refine sat_dbCall.mpr ⟨by simp [Allowed, discipline, hg₁],
      fun reply hadm => ⟨fun stuck hstuck => ?_, fun e he => ?_⟩⟩
    · obtain rfl := Reply.seen_eq_ok.mp hstuck
      simp only [discipline_next]
      generalize hb₂ : b₁.next ⟨.stmt (.submitting l), Reply.ok stuck⟩ = b₂
      have hleft₂ : Left l b₂ stuck := by
        rw [← hb₂]
        exact opened_left stuck (fun _ => rfl) hadm _
      have hg₂ : b₂.guard = some cx.guard := by rw [← hb₂]; exact hg₁
      have hasked₂ : (b₂.lanes l).asked = true ∧ (b₂.lanes l).swept = true := by
        rw [← hb₂]; simp [Book.next, Book.note, Book.onLane, Book.logged]
      have hothers : ∀ b', Onward l b₂ b' → b'.guard = b.guard ∧
          ∀ l', l' ≠ l → b'.lanes l' = b.lanes l' := by
        refine fun b' hon => ⟨(hon.guard.trans hg₂).trans hg.symm, fun l' hl => ?_⟩
        rw [hon.others l' hl, ← hb₂, ← hs₁.lanes]
        exact update_of_ne hl _ _
      have hfail : ∀ b', Onward l b₂ b' → b'.guard = b.guard ∧
          (∀ l', l' ≠ l → b'.lanes l' = b.lanes l') ∧
          (l = .people → (b'.lanes l).asked = true) := fun b' hon =>
        ⟨(hothers b' hon).1, (hothers b' hon).2, fun _ => hon.asked.trans hasked₂.1⟩
      refine (collect_allowed id Prod.fst hg₂ (by simpa using hleft₂) ?_).mono
        ?_ fun b' _ _ h => hfail b' h
      · intro r _ b' s _ hg' hr
        unfold parseRow
        split
        · next candidate _ => exact Or.inl ⟨(r, candidate), rfl, rfl, rfl⟩
        · next gate _ =>
          simp only [Act.sat_bind, Act.sat_pure]
          exact (record_allowed (o := gate.outcome) hg' hr (by cases gate <;> trivial)).weaken
            (fun _ _ _ h => Or.inr ⟨trivial, h⟩)
      · rintro b₃ parsed _ ⟨hon₃, hleft₃⟩
        -- what is left are the rows of the chunks to come and of those that could not be read
        refine (Act.sat_fold (fun cs unread b' _ => Onward l b₂ b' ∧
          ∃ skipped : List Reservation, unread = skipped.length ∧
            Left l b' (cs.flatten.map Prod.fst ++ skipped)) ?_ ⟨hon₃, [], rfl, ?_⟩).mono ?_
          fun b' _ _ h => hfail b' h
        · rintro chunk cs unread b' s ⟨hon, skipped, rfl, hleft⟩
          rw [List.flatten_cons, List.map_append, List.append_assoc] at hleft
          refine (reconcileChunk_allowed (hon.guard.trans hg₂) hleft).mono ?_
            fun _ _ _ h => hon.trans h
          rintro b'' unread' _ ⟨hon', ⟨rfl, hleft'⟩ | ⟨rfl, hleft'⟩⟩
          · exact ⟨hon.trans hon', skipped, rfl, hleft'⟩
          · refine ⟨hon.trans hon', skipped ++ chunk.map Prod.fst, by simp, hleft'.perm ?_⟩
            rw [← List.append_assoc (cs.flatten.map Prod.fst)]
            exact List.perm_append_comm
        · simpa [chunks, flatten_chunks (n := reconcileReadChunk) (by decide) _ parsed le_rfl]
            using hleft₃
        · rintro b₄ unread _ ⟨hon₄, skipped, rfl, hleft₄⟩
          split
          · exact hfail b₄ hon₄
          · next hzero =>
            obtain rfl : skipped = [] := List.eq_nil_of_length_eq_zero (by omega)
            refine ⟨(hothers b₄ hon₄).1, (hothers b₄ hon₄).2,
              fun _ => hon₄.asked.trans hasked₂.1, fun _ => Or.inr ⟨hon₄.swept.trans hasked₂.2, ?_⟩⟩
            exact Left.nil_iff.mp hleft₄
    · have hb₂ : ((discipline N).next b₁ ⟨.stmt (.submitting l), reply⟩).lanes =
          update b₁.lanes l { b₁.lanes l with asked := true } := by
        cases reply with
        | ok out => cases he
        | lost out err | refused err => rfl
      have hguard : ((discipline N).next b₁ ⟨.stmt (.submitting l), reply⟩).guard = b₁.guard := by
        cases reply with
        | ok out => cases he
        | lost out err | refused err => rfl
      refine ⟨hguard.trans hs₁.guard, fun l' hl => ?_, fun _ => ?_⟩
      · rw [hb₂, update_of_ne hl, hs₁.lanes]
      · rw [hb₂, update_self]

end Drain

end DeviceUniqueness
